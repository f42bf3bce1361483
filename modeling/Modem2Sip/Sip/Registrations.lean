import Modem2Sip.Lib.Lease
import Modem2Sip.Lib.Run
import Modem2Sip.Sip.Server

/-!
# The registrar is a map with expiry

`sip/registrar.rs` and `handle_register` of `sip/core.rs`.  What a REGISTER says is a list of acts
on leases: the holder is the address of record, the name of a binding is its bare contact URI, and
a wildcard wipes.  The lists of bindings follow these acts through every run of the element, with
the readers of the registrar coming in between as they like.
-/

namespace Modem2Sip.Sip

open Text Net Lease

/-! ## What a REGISTER says -/

/-- What bindings are told apart by. -/
def Binding.name (b : Binding) : Str := b.contact.uri.bare.show

abbrev RegisterAct := Act Str Str Binding

/-- A contact that lasts as long as it says, or else as long as the field `Expires` says, or else
an hour, but never longer than that. -/
def lifetime (req : Request) (contact : NameAddr) : Nat :=
  let asked := (contact.param "expires").bind fun v ↦ parseU32 (trim v)
  let expires := (req.headers.get "expires").bind fun v ↦ parseU32 (trim v)
  min ((asked.or expires).getD maxRegisterExpires) maxRegisterExpires

/-- A contact asks for a binding or, with no lifetime, gives it up. -/
def contactAct (now : Nat) (aor : Str) (req : Request) (src : SocketAddr) (contact : NameAddr) :
    RegisterAct :=
  let secs := lifetime req contact
  if secs = 0 then .release aor contact.uri.bare.show
  else .grant aor { contact, source := src, expiresAt := now + secs * 1000, registeredAt := now }

/-- The acts of a REGISTER. -/
def registerActs (now : Nat) (aor : Str) (req : Request) (src : SocketAddr) : List RegisterAct :=
  let fields := req.headers.getAll "contact"
  if ∃ field ∈ fields, trim field = ['*'] then [.wipe aor]
  else ((fields.flatMap splitContacts).filterMap NameAddr.parse).map (contactAct now aor req src)

namespace Registrar

/-! ## The readers -/

/-- The bindings that are stored, whether or not they have lapsed. -/
def bindings (m : Registrar) (aor : Str) : List Binding := (m.get? aor).getD []

/-- What `contacts` gives; it leaves `m.expire now` behind. -/
def contacts (now : Nat) (m : Registrar) (aor : Str) : List Binding :=
  ((m.expire now).get? aor).getD []

/-- A hash map yields its values in any order. -/
structure Iteration (m : Registrar) where
  values : List (List Binding)
  perm : values.Perm (m.entries.map Sigma.snd)

/-- What `newest` gives; it leaves `m.expire now` behind. -/
def newest (now : Nat) (m : Registrar) (order : Iteration (m.expire now)) : Option Binding :=
  maxByKey Binding.registeredAt order.values.flatten

/-! ## What the operations do to the lists -/

@[simp] theorem bindings_empty : bindings Map.empty = fun _ ↦ [] := by
  funext aor
  simp [bindings]

theorem bindings_insert (m : Registrar) (aor : Str) (list : List Binding) :
    bindings (m.insert aor list) = Function.update m.bindings aor list := by
  funext aor'
  rw [bindings, Map.get?_insert, Function.update_apply]
  split <;> rfl

theorem bindings_erase (m : Registrar) (aor : Str) :
    bindings (m.erase aor) = Function.update m.bindings aor [] := by
  funext aor'
  rw [bindings, Map.get?_erase, Function.update_apply]
  split <;> rfl

/-- Make a list the one of an address of record; an empty list is not stored. -/
def store (m : Registrar) (aor : Str) (list : List Binding) : Registrar :=
  if list = [] then m.erase aor else m.insert aor list

theorem bindings_store (m : Registrar) (aor : Str) (list : List Binding) :
    bindings (m.store aor list) = Function.update m.bindings aor list := by
  rw [store]
  split
  · rename_i hnil
    rw [hnil]
    exact bindings_erase m aor
  · exact bindings_insert m aor list

theorem update_eq (now : Nat) (m : Registrar) (aor : Str) (contact : NameAddr)
    (source : SocketAddr) (expires : Nat) :
    m.update now aor contact source expires =
      m.store aor (Keeps.drop Binding.name contact.uri.bare.show (m.bindings aor) ++
        if expires = 0 then []
        else [{ contact, source, expiresAt := now + expires * 1000, registeredAt := now }]) := by
  have hdrop : Keeps.drop Binding.name contact.uri.bare.show (m.bindings aor) =
      (m.bindings aor).filter fun b ↦ b.contact.uri.bare.show != contact.uri.bare.show := by
    refine List.filter_congr fun b _ ↦ ?_
    rw [Bool.eq_iff_iff, decide_eq_true_iff, bne_iff_ne]
    rfl
  rw [hdrop]
  cases expires with
  | zero =>
      rw [update, if_pos rfl, List.append_nil, if_neg (Nat.lt_irrefl 0)]
      rfl
  | succ n =>
      rw [update, if_neg n.succ_ne_zero, if_pos n.succ_pos]
      rfl

theorem get?_expire (now : Nat) (m : Registrar) (aor : Str) :
    (m.expire now).get? aor =
      ((m.get? aor).map (unlapsed Binding.expiresAt now)).filter (· != []) := by
  rw [expire, Map.get?_retain, Map.get?_mapVal]
  rfl

theorem bindings_expire (now : Nat) (m : Registrar) :
    bindings (m.expire now) = fun aor ↦ unlapsed Binding.expiresAt now (m.bindings aor) := by
  funext aor
  rw [bindings, get?_expire, bindings]
  cases m.get? aor with
  | none => rfl
  | some list =>
      rw [Option.map_some, Option.getD_some]
      cases hlist : unlapsed Binding.expiresAt now list with
      | nil => rfl
      | cons b bs => rfl

theorem contacts_eq (now : Nat) (m : Registrar) (aor : Str) :
    contacts now m aor = unlapsed Binding.expiresAt now (m.bindings aor) :=
  congrFun (bindings_expire now m) aor

/-- To look in between changes nothing of what is seen later. -/
theorem contacts_expire {now now' : Nat} (hle : now ≤ now') (m : Registrar) (aor : Str) :
    contacts now' (m.expire now) aor = contacts now' m aor := by
  rw [contacts_eq, contacts_eq, bindings_expire]
  exact unlapsed_unlapsed hle _

/-- The order in which the map is gone through does not matter for what there is. -/
theorem Iteration.mem_flatten {m : Registrar} (order : Iteration m) {b : Binding} :
    b ∈ order.values.flatten ↔ ∃ aor, b ∈ m.bindings aor := by
  rw [List.mem_flatten]
  constructor
  · rintro ⟨list, hlist, hb⟩
    obtain ⟨⟨aor, _⟩, hentry, rfl⟩ := List.mem_map.mp (order.perm.mem_iff.mp hlist)
    have hget : m.get? aor = some _ := AList.mem_lookup_iff.mpr hentry
    exact ⟨aor, by rwa [bindings, hget]⟩
  · rintro ⟨aor, hb⟩
    rw [bindings] at hb
    cases hget : m.get? aor with
    | none => simp [hget] at hb
    | some list =>
        rw [hget] at hb
        have hentry : ⟨aor, list⟩ ∈ m.entries := AList.mem_lookup_iff.mp hget
        exact ⟨list, order.perm.mem_iff.mpr (List.mem_map.mpr ⟨_, hentry, rfl⟩), hb⟩

/-- No list that is stored is empty. -/
def NoEmpty (m : Registrar) : Prop := ∀ aor, m.get? aor ≠ some []

theorem noEmpty_expire (now : Nat) (m : Registrar) : NoEmpty (m.expire now) := by
  intro aor heq
  rw [get?_expire, Option.filter_eq_some_iff] at heq
  exact absurd heq.2 (by simp)

end Registrar

/-! ## One REGISTER -/

open Server (registerContact registerContacts defaultExpires)

theorem defaultExpires_lifetime (req : Request) (contact : NameAddr) :
    min (((contact.param "expires").bind fun v ↦ parseU32 (trim v)).getD (defaultExpires req))
      maxRegisterExpires = lifetime req contact := by
  rw [lifetime, defaultExpires]
  cases (contact.param "expires").bind fun v ↦ parseU32 (trim v) with
  | none => exact Nat.min_eq_left (Nat.min_le_right ..)
  | some asked => rfl

/-- A contact does to the lists what its act says. -/
theorem bindings_update (now : Nat) (m : Registrar) (aor : Str) (req : Request)
    (src : SocketAddr) (contact : NameAddr) :
    Registrar.bindings (m.update now aor contact src (lifetime req contact)) =
      (contactAct now aor req src contact).apply Binding.name m.bindings := by
  rw [Registrar.update_eq, Registrar.bindings_store, contactAct]
  split
  · rw [List.append_nil]
    rfl
  · rfl

/-- The contacts of a REGISTER, one after the other. -/
theorem bindings_foldl (now : Nat) (m : Registrar) (aor : Str) (req : Request) (src : SocketAddr)
    (raws : List Str) :
    Registrar.bindings (raws.foldl (registerContact now aor src (defaultExpires req)) m) =
      ((raws.filterMap NameAddr.parse).map (contactAct now aor req src)).foldl
        (Act.apply Binding.name) m.bindings := by
  induction raws generalizing m with
  | nil => rfl
  | cons raw raws ih =>
      rw [List.foldl_cons, ih, registerContact]
      cases hparse : NameAddr.parse raw with
      | none => rw [List.filterMap_cons_none hparse]
      | some contact =>
          rw [List.filterMap_cons_some hparse, List.map_cons, List.foldl_cons, ← bindings_update,
            ← defaultExpires_lifetime]

/-- What `handle_register` leaves: the acts of the request are done, and what has lapsed is gone. -/
theorem bindings_registerContacts (now : Nat) (m : Registrar) (aor : Str) (req : Request)
    (src : SocketAddr) :
    Registrar.bindings (registerContacts now m aor req src) = fun k ↦
      unlapsed Binding.expiresAt now
        ((registerActs now aor req src).foldl (Act.apply Binding.name) m.bindings k) := by
  rw [registerContacts, Registrar.bindings_expire, registerActs]
  by_cases hwild : ∃ field ∈ req.headers.getAll "contact", trim field = ['*']
  · have hany : ((req.headers.getAll "contact").any fun c ↦ trim c == ['*']) = true := by
      simpa [List.any_eq_true] using hwild
    rw [if_pos hwild, if_pos hany, Registrar.bindings_erase]
    rfl
  · have hany : ¬ ((req.headers.getAll "contact").any fun c ↦ trim c == ['*']) = true := by
      simpa [List.any_eq_true] using hwild
    rw [if_neg hwild, if_neg hany, bindings_foldl]

/-- The lists follow the acts, and none is stored that is empty. -/
structure Registrar.Follows (now : Nat) (m : Registrar) (acts : List RegisterAct) : Prop where
  keeps : Keeps Binding.name Binding.expiresAt now m.bindings acts
  noEmpty : m.NoEmpty

namespace Registrar.Follows

variable {now : Nat} {m : Registrar} {acts : List RegisterAct}

theorem later (h : m.Follows now acts) {now' : Nat} (hle : now ≤ now') : m.Follows now' acts :=
  ⟨h.keeps.later hle, h.noEmpty⟩

theorem expire (h : m.Follows now acts) : Follows now (m.expire now) acts where
  keeps := by
    rw [bindings_expire]
    exact h.keeps.expire
  noEmpty := noEmpty_expire now m

theorem register (h : m.Follows now acts) (aor : Str) (req : Request) (src : SocketAddr) :
    Follows now (registerContacts now m aor req src) (acts ++ registerActs now aor req src) where
  keeps := by
    rw [bindings_registerContacts]
    exact (h.keeps.foldl _).expire
  noEmpty := noEmpty_expire now _

end Registrar.Follows

/-! ## Runs of the element -/

namespace Server

section Parameters

variable (toUppercase : Char → Str) (md5Hex : List UInt8 → Str) (cfg : ServerConfig)

/-- What happens to the registrar: the element takes a step, or somebody looks. -/
inductive Use where
  | server (e : Event)
  | contacts (aor : Str)
  | newest
deriving DecidableEq, Repr

def use (s : Server) : Use → Server
  | .server e => s.step toUppercase md5Hex cfg e
  | .contacts _ | .newest => { s with registrar := s.registrar.expire s.now }

/-- The acts of a handler: those of a REGISTER that is let through and says for whom it is. -/
def handlerActs (s : Server) (req : Request) (src : SocketAddr) (tag : Str) : List RegisterAct :=
  if req.method = .register ∧ (s.authorised toUppercase md5Hex cfg req src tag).1 = true then
    match req.headers.toAddr with
    | none => []
    | some addr => registerActs s.now addr.uri.bare.show req src
  else []

def useActs (s : Server) : Use → List RegisterAct
  | .server (.handle i tag) =>
    match s.tasks[i]? with
    | none => []
    | some (req, src) =>
      { s with tasks := s.tasks.eraseIdx i }.handlerActs toUppercase md5Hex cfg req src tag
  | _ => []

/-- The acts of a run. -/
def history (s : Server) : List Use → List RegisterAct
  | [] => []
  | u :: us => s.useActs toUppercase md5Hex cfg u ++ (s.use toUppercase md5Hex cfg u).history us

variable {toUppercase md5Hex cfg}

/-- The clock and the registrar are the same. -/
structure SameRegistrar (s s' : Server) : Prop where
  now : s'.now = s.now
  registrar : s'.registrar = s.registrar

theorem SameRegistrar.trans {s s' s'' : Server} (h : SameRegistrar s s')
    (h' : SameRegistrar s' s'') : SameRegistrar s s'' :=
  ⟨h'.now.trans h.now, h'.registrar.trans h.registrar⟩

theorem sameRegistrar_retransmit (s : Server) (req : Request) (bytes : List UInt8)
    (dest : SocketAddr) : SameRegistrar s (s.retransmitUntilAcked req bytes dest) := by
  unfold retransmitUntilAcked
  split
  · exact ⟨rfl, rfl⟩
  · dsimp only
    split <;> exact ⟨rfl, rfl⟩

variable (toUppercase cfg) in
theorem sameRegistrar_respond (s : Server) (req : Request) (src : SocketAddr) (resp : Response) :
    SameRegistrar s (s.respond toUppercase cfg req src resp) := by
  unfold respond
  generalize (complete cfg req src resp).encode toUppercase = bytes
  cases txnKey req with
  | none =>
      dsimp only
      split
      · obtain ⟨hnow, hreg⟩ := sameRegistrar_retransmit s req bytes src
        exact ⟨hnow, hreg⟩
      · exact ⟨rfl, rfl⟩
  | some key =>
      dsimp only
      split
      · obtain ⟨hnow, hreg⟩ := sameRegistrar_retransmit
          { s with cache := cacheResponse s.now s.cache key resp.code bytes } req bytes src
        exact ⟨hnow, hreg⟩
      · exact ⟨rfl, rfl⟩

variable (toUppercase md5Hex cfg) in
theorem sameRegistrar_authorised (s : Server) (req : Request) (src : SocketAddr) (tag : Str) :
    SameRegistrar s (s.authorised toUppercase md5Hex cfg req src tag).2 := by
  unfold authorised
  split
  · exact ⟨rfl, rfl⟩
  · rename_i seen resp heq
    obtain ⟨hnow, hreg⟩ := sameRegistrar_respond toUppercase cfg { s with nonceSeen := seen } req src
      resp
    exact ⟨hnow, hreg⟩

variable (toUppercase cfg) in
theorem sameRegistrar_arrive (s : Server) (req : Request) (src : SocketAddr) (tag : Str) :
    SameRegistrar s (s.arrive toUppercase cfg req src tag) := by
  unfold arrive
  split
  · exact sameRegistrar_respond toUppercase cfg s req src _
  · split
    · cases dialogKey req with
      | none => exact ⟨rfl, rfl⟩
      | some key =>
          dsimp only
          cases s.pendingAck.get? key with
          | none => exact ⟨rfl, rfl⟩
          | some i => exact ⟨rfl, rfl⟩
    · cases txnKey req with
      | none => exact ⟨rfl, rfl⟩
      | some key =>
          dsimp only
          split <;> exact ⟨rfl, rfl⟩

theorem sameRegistrar_timer (s : Server) (i : Nat) : SameRegistrar s (s.timer i) := by
  unfold timer
  split
  · exact ⟨rfl, rfl⟩
  · split
    · exact ⟨rfl, rfl⟩
    · split
      · exact ⟨rfl, rfl⟩
      · dsimp only
        split <;> exact ⟨rfl, rfl⟩

variable (toUppercase md5Hex cfg) in
/-- Of the handlers only that of REGISTER touches the registrar. -/
theorem sameRegistrar_handle {s : Server} {req : Request} (hmethod : req.method ≠ .register)
    (src : SocketAddr) (tag : Str) :
    SameRegistrar s (s.handle toUppercase md5Hex cfg req src tag) := by
  have hauth := sameRegistrar_authorised toUppercase md5Hex cfg s req src tag
  unfold handle
  split
  · contradiction
  · exact sameRegistrar_respond toUppercase cfg s req src _
  · exact ⟨rfl, rfl⟩
  all_goals first
    | exact sameRegistrar_respond toUppercase cfg s req src _
    | (split
       · rename_i s' heq
         rwa [heq] at hauth
       · rename_i s' heq
         rw [heq] at hauth
         exact hauth.trans ⟨rfl, rfl⟩)

variable (toUppercase md5Hex cfg) in
/-- What the handler of a REGISTER does to the registrar. -/
theorem handleRegister_spec (s : Server) (req : Request) (src : SocketAddr) (tag : Str) :
    (s.handleRegister toUppercase md5Hex cfg req src tag).now = s.now ∧
      (s.handleRegister toUppercase md5Hex cfg req src tag).registrar =
        if (s.authorised toUppercase md5Hex cfg req src tag).1 = true then
          match req.headers.toAddr with
          | none => s.registrar
          | some addr => registerContacts s.now s.registrar addr.uri.bare.show req src
        else s.registrar := by
  have hauth := sameRegistrar_authorised toUppercase md5Hex cfg s req src tag
  unfold handleRegister
  split
  · rename_i s' heq
    rw [heq] at hauth ⊢
    exact ⟨hauth.now, hauth.registrar⟩
  · rename_i s' heq
    rw [heq] at hauth ⊢
    dsimp only at hauth
    rw [if_pos rfl]
    cases req.headers.toAddr with
    | none =>
        have hrespond := hauth.trans (sameRegistrar_respond toUppercase cfg s' req src
          (makeResponse cfg.toCoreConfig tag req 400 none))
        exact ⟨hrespond.now, hrespond.registrar⟩
    | some addr =>
        dsimp only
        rw [← hauth.now, ← hauth.registrar]
        generalize registerContacts s'.now s'.registrar addr.uri.bare.show req src = m
        obtain ⟨hnow, hreg⟩ := sameRegistrar_respond toUppercase cfg { s' with registrar := m } req src
          (registerResponse cfg s'.now ((m.get? addr.uri.bare.show).getD []) tag req)
        exact ⟨hnow, hreg⟩

variable (toUppercase md5Hex cfg) in
/-- What a handler does to the registrar. -/
theorem handle_spec (s : Server) (req : Request) (src : SocketAddr) (tag : Str) :
    (s.handle toUppercase md5Hex cfg req src tag).now = s.now ∧
      ((s.handle toUppercase md5Hex cfg req src tag).registrar = s.registrar ∧
          s.handlerActs toUppercase md5Hex cfg req src tag = [] ∨
        ∃ aor, (s.handle toUppercase md5Hex cfg req src tag).registrar =
            registerContacts s.now s.registrar aor req src ∧
          s.handlerActs toUppercase md5Hex cfg req src tag = registerActs s.now aor req src) := by
  by_cases hmethod : req.method = .register
  · have hhandle : s.handle toUppercase md5Hex cfg req src tag =
        s.handleRegister toUppercase md5Hex cfg req src tag := by
      rw [handle, hmethod]
    obtain ⟨hnow, hreg⟩ := handleRegister_spec toUppercase md5Hex cfg s req src tag
    rw [hhandle, handlerActs]
    refine ⟨hnow, ?_⟩
    by_cases hauth : (s.authorised toUppercase md5Hex cfg req src tag).1 = true
    · rw [if_pos hauth] at hreg
      rw [if_pos ⟨hmethod, hauth⟩]
      cases haddr : req.headers.toAddr with
      | none =>
          rw [haddr] at hreg
          exact .inl ⟨hreg, rfl⟩
      | some addr =>
          rw [haddr] at hreg
          exact .inr ⟨_, hreg, rfl⟩
    · rw [if_neg hauth] at hreg
      rw [if_neg fun h ↦ hauth h.2]
      exact .inl ⟨hreg, rfl⟩
  · obtain ⟨hnow, hreg⟩ := sameRegistrar_handle toUppercase md5Hex cfg (s := s) hmethod src tag
    rw [handlerActs, if_neg fun h ↦ hmethod h.1]
    exact ⟨hnow, .inl ⟨hreg, rfl⟩⟩

variable (toUppercase md5Hex cfg) in
/-- One use of the registrar: nothing, an expiry, or a REGISTER. -/
theorem use_cases (s : Server) (u : Use) :
    s.now ≤ (s.use toUppercase md5Hex cfg u).now ∧
      (((s.use toUppercase md5Hex cfg u).registrar = s.registrar ∨
          (s.use toUppercase md5Hex cfg u).registrar = s.registrar.expire s.now) ∧
        s.useActs toUppercase md5Hex cfg u = [] ∨
      ∃ aor req src, (s.use toUppercase md5Hex cfg u).registrar =
          registerContacts s.now s.registrar aor req src ∧
        s.useActs toUppercase md5Hex cfg u = registerActs s.now aor req src) := by
  cases u with
  | contacts aor => exact ⟨le_rfl, .inl ⟨.inr rfl, rfl⟩⟩
  | newest => exact ⟨le_rfl, .inl ⟨.inr rfl, rfl⟩⟩
  | server e =>
      cases e with
      | tick ms => exact ⟨Nat.le_add_right .., .inl ⟨.inl rfl, rfl⟩⟩
      | request req src tag =>
          obtain ⟨hnow, hreg⟩ := sameRegistrar_arrive toUppercase cfg s req src tag
          exact ⟨hnow.ge, .inl ⟨.inl hreg, rfl⟩⟩
      | handle i tag =>
          rw [use, step, useActs]
          cases s.tasks[i]? with
          | none => exact ⟨le_rfl, .inl ⟨.inl rfl, rfl⟩⟩
          | some task =>
              obtain ⟨req, src⟩ := task
              obtain ⟨hnow, hreg⟩ := handle_spec toUppercase md5Hex cfg
                { s with tasks := s.tasks.eraseIdx i } req src tag
              refine ⟨hnow.ge, ?_⟩
              rcases hreg with ⟨hreg, hacts⟩ | ⟨aor, hreg, hacts⟩
              · exact .inl ⟨.inl hreg, hacts⟩
              · exact .inr ⟨aor, req, src, hreg, hacts⟩
      | respond req src resp =>
          obtain ⟨hnow, hreg⟩ := sameRegistrar_respond toUppercase cfg s req src resp
          exact ⟨hnow.ge, .inl ⟨.inl hreg, rfl⟩⟩
      | timer i =>
          obtain ⟨hnow, hreg⟩ := sameRegistrar_timer s i
          exact ⟨hnow.ge, .inl ⟨.inl hreg, rfl⟩⟩
      | gc => exact ⟨le_rfl, .inl ⟨.inl rfl, rfl⟩⟩
      | modem ready => exact ⟨le_rfl, .inl ⟨.inl rfl, rfl⟩⟩

theorem follows_use {s : Server} {acts : List RegisterAct} (h : s.registrar.Follows s.now acts)
    (u : Use) :
    (s.use toUppercase md5Hex cfg u).registrar.Follows (s.use toUppercase md5Hex cfg u).now
      (acts ++ s.useActs toUppercase md5Hex cfg u) := by
  obtain ⟨hnow, ⟨hreg | hreg, hacts⟩ | ⟨aor, req, src, hreg, hacts⟩⟩ :=
    use_cases toUppercase md5Hex cfg s u
  · rw [hreg, hacts, List.append_nil]
    exact h.later hnow
  · rw [hreg, hacts, List.append_nil]
    exact h.expire.later hnow
  · rw [hreg, hacts]
    exact (h.register aor req src).later hnow

theorem follows_run {s : Server} {acts : List RegisterAct} (h : s.registrar.Follows s.now acts)
    (us : List Use) :
    (Run.run (use toUppercase md5Hex cfg) s us).registrar.Follows
      (Run.run (use toUppercase md5Hex cfg) s us).now (acts ++ s.history toUppercase md5Hex cfg us) := by
  induction us generalizing s acts with
  | nil =>
      rw [history, List.append_nil]
      exact h
  | cons u us ih =>
      rw [history, ← List.append_assoc]
      exact ih (follows_use h u)

/-- What is used for others leaves the contacts of an address of record alone. -/
theorem contacts_use {s : Server} {u : Use} {aor : Str}
    (hother : ∀ a ∈ s.useActs toUppercase md5Hex cfg u, a.holder ≠ aor) {time : Nat}
    (hle : s.now ≤ time) :
    (s.use toUppercase md5Hex cfg u).registrar.contacts time aor = s.registrar.contacts time aor := by
  obtain ⟨-, ⟨hreg | hreg, -⟩ | ⟨aor', req, src, hreg, hacts⟩⟩ := use_cases toUppercase md5Hex cfg s u
  · rw [hreg]
  · rw [hreg]
    exact Registrar.contacts_expire hle s.registrar aor
  · rw [hacts] at hother
    rw [hreg, Registrar.contacts_eq, Registrar.contacts_eq, bindings_registerContacts,
      unlapsed_unlapsed hle, foldl_apply_of_ne _ hother]

variable (toUppercase md5Hex cfg)

/-- A binding of an address of record: the last act about its contact URI granted it, and its
lifetime has not run out. -/
def Bound (acts : List RegisterAct) (now : Nat) (aor : Str) (b : Binding) : Prop :=
  InForce Binding.name acts aor b ∧ now < b.expiresAt

/-- At the end of every run, the registrar answers as the acts of the run say, whoever looked in
between: `contacts` lists the bindings, one for each contact URI, and `newest` gives one that was
registered last of all, if there is any.  No later use for others changes what the contacts of an
address of record are at any time. -/
theorem registrar_refines (us : List Use) :
    let s := Run.run (use toUppercase md5Hex cfg) init us
    let acts := init.history toUppercase md5Hex cfg us
    (∀ aor, (∀ b, b ∈ s.registrar.contacts s.now aor ↔ Bound acts s.now aor b) ∧
      ((s.registrar.contacts s.now aor).map Binding.name).Nodup) ∧
    (∀ order, match s.registrar.newest s.now order with
      | some b => (∃ aor, Bound acts s.now aor b) ∧
          ∀ aor b', Bound acts s.now aor b' → b'.registeredAt ≤ b.registeredAt
      | none => ∀ aor b, ¬ Bound acts s.now aor b) ∧
    s.registrar.NoEmpty ∧
    ∀ u aor, (∀ a ∈ s.useActs toUppercase md5Hex cfg u, a.holder ≠ aor) → ∀ time, s.now ≤ time →
      (s.use toUppercase md5Hex cfg u).registrar.contacts time aor =
        s.registrar.contacts time aor := by
  intro s acts
  have hinit : init.registrar.Follows init.now [] :=
    ⟨Registrar.bindings_empty ▸ keeps_nil Binding.name Binding.expiresAt 0,
      fun aor ↦ by simp [init]⟩
  have h : s.registrar.Follows s.now acts := follows_run hinit us
  have hbound (aor : Str) (b : Binding) :
      b ∈ s.registrar.contacts s.now aor ↔ Bound acts s.now aor b := by
    rw [Registrar.contacts_eq]
    exact h.keeps.mem_unlapsed_iff
  refine ⟨fun aor ↦ ⟨hbound aor, ?_⟩, fun order ↦ ?_, h.noEmpty, ?_⟩
  · rw [Registrar.contacts_eq]
    exact h.keeps.expire.nodup aor
  · have hmem (b : Binding) : b ∈ order.values.flatten ↔ ∃ aor, Bound acts s.now aor b := by
      rw [order.mem_flatten]
      exact exists_congr fun aor ↦ hbound aor b
    split
    · rename_i b hnewest
      obtain ⟨hb, hmax⟩ := maxByKey_spec hnewest
      exact ⟨(hmem b).mp hb, fun aor b' hb' ↦ hmax b' ((hmem b').mpr ⟨aor, hb'⟩)⟩
    · rename_i hnewest
      intro aor b hb
      have hnone := maxByKey_eq_none.mp hnewest
      rw [List.eq_nil_iff_forall_not_mem] at hnone
      exact hnone b ((hmem b).mpr ⟨aor, hb⟩)
  · intro u aor hother time hle
    exact contacts_use hother hle

end Parameters

/-! ## Two addresses of record -/

/-- A configuration that serves everybody. -/
def openHouse : ServerConfig where
  auth := none
  domain := none
  userAgent := "modem2sip"
  transport :=
    { bound := ⟨.v4 (ofOctets 192 0 2 1), 5060⟩, publicIp := none, localIpFor := fun _ ↦ none }
  secret := []
  allow := []
  optionsReflectModem := false
  retryAfterSecs := 30

def phone : SocketAddr := ⟨.v4 (ofOctets 10 0 0 1), 5060⟩

/-- A REGISTER of `user` with these contacts. -/
def registerOf (user contacts : Str) : Request where
  method := .register
  uri := Uri.new none "gw" none
  headers := ⟨[("to", "<sip:" ++ user ++ "@gw>"), ("contact", contacts)]⟩
  body := []

/-- Alice has registered one contact and given up another; Bob's request waits. -/
def aliceThenBob : List Use :=
  [.server (.request (registerOf "alice" "<sip:a@10.0.0.1>;expires=60, <sip:b@10.0.0.1>;expires=0")
      phone []),
    .server (.handle 0 []), .server (.tick 1000),
    .server (.request (registerOf "bob" "*") phone [])]

theorem registrar_refines_two :
    let s := Run.run (use (fun c ↦ [c]) (fun _ ↦ []) openHouse) init aliceThenBob
    (∃ b, Bound (init.history (fun c ↦ [c]) (fun _ ↦ []) openHouse aliceThenBob) s.now "sip:alice@gw" b) ∧
      (s.use (fun c ↦ [c]) (fun _ ↦ []) openHouse (.server (.handle 0 []))).registrar.contacts 2000
        "sip:alice@gw" = s.registrar.contacts 2000 "sip:alice@gw" := by
  intro s
  obtain ⟨hcontacts, -, -, hother⟩ :=
    registrar_refines (fun c ↦ [c]) (fun _ ↦ []) openHouse aliceThenBob
  have hne : s.registrar.contacts s.now "sip:alice@gw" ≠ [] := by decide +kernel
  obtain ⟨b, hb⟩ := List.exists_mem_of_ne_nil _ hne
  exact ⟨⟨b, ((hcontacts "sip:alice@gw").1 b).mp hb⟩,
    hother (.server (.handle 0 [])) "sip:alice@gw" (by decide +kernel) 2000 (by decide +kernel)⟩

end Server

end Modem2Sip.Sip
