import Modem2Sip.Lib.Prog
import Modem2Sip.Mms.Dns
import Modem2Sip.Mms.Outgoing

/-!
# Reaching the MMSC

`mms/dns.rs` and `mms/http.rs`: how the name of an MMSC becomes addresses, and which of them is connected
to.  The resolvers of the carrier are asked first, each over a socket of its own, and what comes back there
may be forged, late or broken.
-/

namespace Modem2Sip.Mms.Http

open Text Net Dns

/-! ## The functions -/

inductive Call where
  /-- A UDP socket, bound and connected to the resolver. -/
  | openSocket (server : IpAddr) (bind : SocketAddr) (interface : Option Str)
  | randomId
  | send (server : IpAddr) (query : List UInt8)
  /-- The next datagram on the socket, if one comes in time. -/
  | recv (server : IpAddr)
  /-- The resolver of the system. -/
  | lookupHost (host : Str) (port : Nat)
  /-- A TCP connection from the bearer. -/
  | connect (addr : SocketAddr) (interface : Option Str) (localIp : Option IpAddr)
deriving DecidableEq, Repr

abbrev Call.Answer : Call → Type
  | .openSocket _ _ _ => Except Str Unit
  | .randomId => UInt16
  | .send _ _ => Except Str Unit
  | .recv _ => Except Str (Option (List UInt8))
  | .lookupHost _ _ => Except Str (List SocketAddr)
  | .connect _ _ _ => Except Str Unit

abbrev Task (α : Type) : Type := Prog Call Call.Answer α

abbrev Attempt (α : Type) : Type := ExceptT Str Task α

def Attempt.ofExcept {α : Type} (r : Except Str α) : Attempt α := ExceptT.mk (.done r)

/-- The source address of a query: that of the bearer, if it is of the family of the resolver. -/
def bindAddr (localIp : Option IpAddr) (server : IpAddr) : SocketAddr :=
  match localIp, server with
  | some (.v4 bits), .v4 _ => ⟨.v4 bits, 0⟩
  | _, .v4 _ => ⟨.v4 0, 0⟩
  | some (.v6 bits), .v6 _ => ⟨.v6 bits, 0⟩
  | _, .v6 _ => ⟨.v6 0, 0⟩

def unanswered (server : IpAddr) : Str := server.show ++ (" did not answer in 5s" : Str)

variable (w : Nat) (opts : HttpOptions)

/-- The loop of `query`, while at most `n` datagrams come in time. -/
def awaitReply (server : IpAddr) (host : Str) (qtype id : Nat) : Nat → Attempt Answer
  | 0 => Attempt.ofExcept (.error (unanswered server))
  | n + 1 => ExceptT.mk (.call (Call.recv server) fun
    | .error e => .done (.error e)
    | .ok none => .done (.error (unanswered server))
    | .ok (some msg) =>
      match classify w msg id host qtype with
      -- There is no datagram for which it traps.
      | .error _ => .done (.error "trap")
      | .ok .ours =>
        match parseAnswer w msg id qtype with
        | .error _ => .done (.error "trap")
        | .ok r => .done r
      | .ok (.rejected rcode) =>
        .done (.error (server.show ++ ((" answered rcode " : Str) ++ dec rcode)))
      | .ok .notOurs => awaitReply server host qtype id n)

/-- The query goes out, if there is one for the name. -/
def sendQuery (patience : Nat) (server : IpAddr) (host : Str) (qtype id : Nat) :
    Except Str (List UInt8) → Attempt Answer
  | .error e => Attempt.ofExcept (.error e)
  | .ok bytes => do
    ExceptT.mk (Prog.ask (Call.send server bytes))
    awaitReply w server host qtype id patience

/-- `Resolver::query`. -/
def query (patience : Nat) (server : IpAddr) (host : Str) (qtype : Nat) : Attempt Answer := do
  ExceptT.mk (Prog.ask (Call.openSocket server (bindAddr opts.localIp server) opts.interface))
  let id : UInt16 ← ExceptT.mk (.call Call.randomId fun id ↦ .done (.ok id))
  sendQuery w patience server host qtype id.toNat (buildQuery id.toNat host qtype)

/-- `query_all_servers`, with the last error so far. -/
def queryAllServers (patience : Nat) (host : Str) (qtype : Nat) :
    Option Str → List IpAddr → Attempt (List IpAddr)
  | last, [] => Attempt.ofExcept (.error (last.getD "no answer"))
  | last, server :: servers => do
    match ← Prog.outcome (query w opts patience server host qtype) with
    | .error e => queryAllServers patience host qtype (some e) servers
    | .ok ⟨addrs, cname⟩ =>
      if addrs ≠ [] then pure addrs
      else
        match cname with
        | none => queryAllServers patience host qtype last servers
        | some target =>
          -- A name instead of an address is followed once.
          match ← Prog.outcome (query w opts patience server target qtype) with
          | .error _ => queryAllServers patience host qtype last servers
          | .ok answer =>
            if answer.addrs ≠ [] then pure answer.addrs
            else queryAllServers patience host qtype last servers

/-- A round of the loop of `lookup`, and what follows if it finds nothing. -/
def lookupFamily (patience : Nat) (host : Str) (port qtype : Nat)
    (otherwise : Attempt (List SocketAddr)) : Attempt (List SocketAddr) := do
  let found ← Prog.outcome (queryAllServers w opts patience host qtype none opts.dnsServers)
  match found.toOption.getD [] with
  | [] => otherwise
  | ip :: ips => pure ((ip :: ips).map (SocketAddr.mk · port))

/-- `Resolver::lookup`. -/
def lookup (patience : Nat) (host : Str) (port : Nat) : Attempt (List SocketAddr) :=
  match IpAddr.parse host with
  | some ip => pure [⟨ip, port⟩]
  | none =>
    if opts.dnsServers = [] then Attempt.ofExcept (.error "no carrier DNS server known")
    else lookupFamily w opts patience host port typeA (lookupFamily w opts patience host port typeAaaa
      (Attempt.ofExcept (.error ("carrier DNS has no address for " ++ host))))

/-- The host without the brackets of an IPv6 address. -/
def bareHost (host : Str) : Str :=
  ((stripPrefix ['['] host).bind (stripSuffix [']'])).getD host

/-- The fallback of `resolve`, IPv4 first. -/
def systemLookup (host : Str) (port : Nat) : Attempt (List SocketAddr) := do
  let addrs ← ExceptT.mk (Prog.ask (Call.lookupHost host port))
  let addrs := addrs.mergeSort fun a b ↦ !a.ip.isV6 || b.ip.isV6
  if addrs = [] then Attempt.ofExcept (.error ("no address for " ++ host)) else pure addrs

/-- `resolve`, behind the brackets. -/
def resolveBare (patience : Nat) (host : Str) (port : Nat) : Attempt (List SocketAddr) :=
  match IpAddr.parse host with
  | some ip => pure [⟨ip, port⟩]
  | none =>
    if opts.dnsServers = [] then systemLookup host port
    else do
      match ← Prog.outcome (lookup w opts patience host port) with
      | .ok addrs => pure addrs
      | .error _ => systemLookup host port

def resolve (patience : Nat) (host : Str) (port : Nat) : Attempt (List SocketAddr) :=
  resolveBare w opts patience (bareHost host) port

/-- `connect_any`, with the last error so far. -/
def connectAny : Option Str → List SocketAddr → Attempt SocketAddr
  | last, [] => Attempt.ofExcept (.error (last.getD "no address to connect to"))
  | _, addr :: addrs => ExceptT.mk (.call (Call.connect addr opts.interface opts.localIp) fun
    | .ok () => .done (.ok addr)
    | .error e => connectAny (some e) addrs)

/-- How `request` comes to its stream. -/
def reach (patience : Nat) (host : Str) (port : Nat) : Attempt SocketAddr := do
  connectAny opts none (← resolve w opts patience host port)

/-! ## What the bearer may be used for -/

abbrev History : Type := List (Prog.Event Call Call.Answer)

/-- The resolvers, the others on the network and the peers may answer anything. -/
def anything : Prog.World Call Call.Answer Unit := fun _ _ _ _ ↦ True

/-- The system was asked, or a peer was tried. -/
def isOutside : Prog.Event Call Call.Answer → Bool
  | ⟨.lookupHost _ _, _⟩ => true
  | ⟨.connect _ _ _, _⟩ => true
  | _ => false

/-- The resolver has answered the question, over the socket on which it was asked and before the next one. -/
def Reported (h : History) (server : IpAddr) (host : Str) (qtype : Nat) (answer : Answer) : Prop :=
  ∃ before between rest id bytes msg,
    h = before ++ ⟨.send server bytes, .ok ()⟩ :: (between ++ ⟨.recv server, .ok (some msg)⟩ :: rest) ∧
      (∀ e ∈ between, e.1 = .recv server) ∧ buildQuery id host qtype = .ok bytes ∧
        classify w msg id host qtype = .ok .ours ∧ parseAnswer w msg id qtype = .ok (.ok answer)

/-- A name that a resolver is asked for: the host, or what it gave in the place of an address. -/
def Named (h : History) (server : IpAddr) (host : Str) (qtype : Nat) (name : Str) : Prop :=
  name = host ∨ Reported w h server host qtype ⟨[], some name⟩

/-- An address that a resolver of the carrier gave for the host. -/
def FromCarrier (h : History) (host : Str) (ip : IpAddr) : Prop :=
  ∃ server ∈ opts.dnsServers, ∃ qtype name answer, (qtype = typeA ∨ qtype = typeAaaa) ∧
    Named w h server host qtype name ∧ Reported w h server name qtype answer ∧ ip ∈ answer.addrs

/-- Where an address may come from. -/
def Vouched (h : History) (host : Str) (port : Nat) (addr : SocketAddr) : Prop :=
  (IpAddr.parse host = some addr.ip ∧ addr.port = port) ∨
    ((∀ e ∈ h, e.1 ≠ .lookupHost host port) ∧ FromCarrier w opts h host addr.ip ∧ addr.port = port) ∨
    ∃ addrs, ⟨.lookupHost host port, .ok addrs⟩ ∈ h ∧ addr ∈ addrs

/-- How a resolver is turned to. -/
abbrev openCall (server : IpAddr) : Call := .openSocket server (bindAddr opts.localIp server) opts.interface

/-- How often. -/
def opens (server : IpAddr) (h : History) : Nat := (h.filter fun e ↦ e.1 == openCall opts server).length

/-- A resolver was turned to for the addresses of one family: the question went out, unless there was no
socket for it or the name does not fit into a question. -/
def Asked (server : IpAddr) (name : Str) (qtype : Nat) (h : History) : Prop :=
  (∃ id bytes r, buildQuery id name qtype = .ok bytes ∧ ⟨.send server bytes, r⟩ ∈ h) ∨
    (∃ e, ⟨openCall opts server, .error e⟩ ∈ h) ∨
    ∃ id e, buildQuery id name qtype = .error e ∧ ⟨openCall opts server, .ok ()⟩ ∈ h

/-- What may be called for after what has happened. -/
def Conforms (host : Str) (port : Nat) (h : History) (_ : Unit) : Call → Prop
  | .openSocket server bind interface =>
    server ∈ opts.dnsServers ∧ bind = bindAddr opts.localIp server ∧ interface = opts.interface ∧
      opens opts server h < 4 * opts.dnsServers.count server
  | .send server bytes =>
    server ∈ opts.dnsServers ∧ ∃ id name qtype, buildQuery id name qtype = .ok bytes ∧
      (qtype = typeA ∨ qtype = typeAaaa) ∧ Named w h server host qtype name
  | .lookupHost host' port' =>
    host' = host ∧ port' = port ∧ ∃ first second, h = first ++ second ∧
      ∀ server ∈ opts.dnsServers, Asked opts server host typeA first ∧ Asked opts server host typeAaaa second
  | .connect addr interface localIp =>
    interface = opts.interface ∧ localIp = opts.localIp ∧ Vouched w opts h host port addr ∧
      (∀ addr' r, ⟨.connect addr' interface localIp, r⟩ ∈ h → r.isOk = false ∧
        (addr.ip.isV6 = false → addr'.ip.isV6 = false))
  | _ => True

/-! ## Families -/

section Families

variable {w}

/-- A question about one family has no answer of the other. -/
def OfFamily (qtype : Nat) (answer : Answer) : Prop :=
  ∀ ip ∈ answer.addrs, (qtype = typeA → ip.isV6 = false) ∧ (qtype = typeAaaa → ip.isV6 = true)

theorem addRecord_family {msg rdata : List UInt8} {qtype rtype pos : Nat} {answer : Answer}
    (h : OfFamily qtype answer) :
    Outcome.Yields (addRecord w msg qtype rtype pos rdata answer) (OfFamily qtype) := by
  unfold addRecord
  split
  · rename_i ha
    refine (Outcome.yields_any _).bind fun a _ ↦ (Outcome.yields_any _).bind fun b _ ↦
      (Outcome.yields_any _).bind fun c _ ↦ (Outcome.yields_any _).bind fun d _ ↦ Outcome.yields_pure ?_
    intro ip hip
    rcases List.mem_append.mp hip with hold | hnew
    · exact h ip hold
    · obtain rfl := List.mem_singleton.mp hnew
      exact ⟨fun _ ↦ rfl, fun hother ↦ absurd (ha.2.2.symm.trans hother) (by decide)⟩
  · split
    · rename_i haaaa
      refine Outcome.yields_pure ?_
      intro ip hip
      rcases List.mem_append.mp hip with hold | hnew
      · exact h ip hold
      · obtain rfl := List.mem_singleton.mp hnew
        exact ⟨fun hother ↦ absurd (hother.symm.trans haaaa.2.2) (by decide), fun _ ↦ rfl⟩
    · split
      · refine (Outcome.yields_any _).bind fun name _ ↦ ?_
        cases name with
        | ok name => exact Outcome.yields_pure h
        | error e => exact Outcome.yields_pure h
      · exact Outcome.yields_pure h

theorem readRecords_family {msg : List UInt8} {qtype : Nat} (n : Nat) {pos : Nat} {answer : Answer}
    (h : OfFamily qtype answer) :
    Outcome.Yields (readRecords w msg qtype n pos answer) (OfFamily qtype) := by
  induction n generalizing pos answer with
  | zero => exact Outcome.yields_pure h
  | succ n ih =>
      refine (Outcome.yields_any _).bind fun start _ ↦ (Outcome.yields_any _).bind fun stop _ ↦
        (Outcome.yields_any _).bind fun header _ ↦ (Outcome.yields_any _).bind fun rtype _ ↦
        (Outcome.yields_any _).bind fun rdlen _ ↦ (Outcome.yields_any _).bind fun last _ ↦
        (Outcome.yields_any _).bind fun rdata _ ↦ ?_
      exact (addRecord_family h).bind fun answer hanswer ↦ ih hanswer

theorem parseAnswer_family (msg : List UInt8) (id qtype : Nat) :
    Outcome.Yields (parseAnswer w msg id qtype) (OfFamily qtype) := by
  have hempty : OfFamily qtype ⟨[], none⟩ := List.forall_mem_nil _
  unfold parseAnswer
  split
  · rintro a ⟨⟩
  · exact (Outcome.yields_any _).bind fun _ _ ↦ (Outcome.yields_any _).bind fun _ _ ↦
      (Outcome.yields_any _).bind fun _ _ ↦ (Outcome.yields_any _).bind fun _ _ ↦
      (Outcome.yields_any _).bind fun n _ ↦ (Outcome.yields_any _).bind fun _ _ ↦
      readRecords_family n hempty

end Families

/-! ## One call after the other -/

section Steps

variable {w opts} {host : Str} {port : Nat} {α : Type} {h more : History} {server : IpAddr} {name : Str}
  {qtype : Nat} {answer : Answer}

/-- From here on what is called for is what may be. -/
abbrev Sound (w : Nat) (opts : HttpOptions) (host : Str) (port : Nat) {α : Type} (p : Task α)
    (h : History) : Prop :=
  p.Obeys anything (fun h e ↦ h ++ [e]) (Conforms w opts host port) h ()

theorem Reported.append (hr : Reported w h server name qtype answer) (more : History) :
    Reported w (h ++ more) server name qtype answer := by
  obtain ⟨before, between, rest, id, bytes, msg, rfl, hspec⟩ := hr
  refine ⟨before, between, rest ++ more, id, bytes, msg, ?_, hspec⟩
  simp only [List.append_assoc, List.cons_append]

theorem Named.append (hn : Named w h server host qtype name) (more : History) :
    Named w (h ++ more) server host qtype name := hn.imp_right fun hr ↦ hr.append more

theorem sound_awaitReply {g : Except Str Answer → Task α} (n : Nat) {id : Nat} {bytes : List UInt8}
    {before between : History} (hsent : h = before ++ ⟨.send server bytes, .ok ()⟩ :: between)
    (hbetween : ∀ e ∈ between, e.1 = .recv server) (hbytes : buildQuery id name qtype = .ok bytes)
    (hg : ∀ r more, (∀ e ∈ more, e.1 = .recv server) →
      (∀ answer, r = .ok answer → Reported w (h ++ more) server name qtype answer) →
        Sound w opts host port (g r) (h ++ more)) :
    Sound w opts host port (Prog.bind (awaitReply w server name qtype id n) g) h := by
  induction n generalizing h between with
  | zero =>
      have hend := hg (.error (unanswered server)) [] (List.forall_mem_nil _) nofun
      rw [List.append_nil] at hend
      exact hend
  | succ n ih =>
      refine .call trivial ?_
      intro r _ _
      have hone (e : Str) : Sound w opts host port (g (.error e)) (h ++ [⟨.recv server, r⟩]) :=
        hg (.error e) [⟨.recv server, r⟩] (List.forall_mem_singleton.mpr rfl) nofun
      rcases r with e | _ | msg
      · exact hone e
      · exact hone _
      · dsimp only
        cases hclass : classify w msg id name qtype with
        | error t => exact hone _
        | ok reply =>
            cases reply with
            | rejected rcode => exact hone _
            | ours =>
                dsimp only
                cases hparse : parseAnswer w msg id qtype with
                | error t => exact hone _
                | ok r =>
                    refine hg r [⟨.recv server, .ok (some msg)⟩] (List.forall_mem_singleton.mpr rfl) ?_
                    rintro answer rfl
                    refine ⟨before, between, [], id, bytes, msg, ?_, hbetween, hbytes, hclass, hparse⟩
                    rw [hsent, List.append_assoc, List.cons_append]
            | notOurs =>
                refine @ih _ (between ++ [⟨.recv server, .ok (some msg)⟩]) ?_ ?_ ?_
                · rw [hsent, List.append_assoc, List.cons_append]
                · exact List.forall_mem_append.mpr ⟨hbetween, List.forall_mem_singleton.mpr rfl⟩
                · intro r more hmore hr
                  rw [List.append_assoc] at hr ⊢
                  exact hg r _ (List.forall_mem_cons.mpr ⟨rfl, hmore⟩) hr

theorem Asked.append_right (ha : Asked opts server name qtype h) (more : History) :
    Asked opts server name qtype (h ++ more) := by
  rcases ha with ⟨id, bytes, r, hbytes, hmem⟩ | ⟨e, hmem⟩ | ⟨id, e, herror, hmem⟩
  · exact .inl ⟨id, bytes, r, hbytes, List.mem_append_left more hmem⟩
  · exact .inr (.inl ⟨e, List.mem_append_left more hmem⟩)
  · exact .inr (.inr ⟨id, e, herror, List.mem_append_left more hmem⟩)

theorem Asked.append_left (ha : Asked opts server name qtype more) (h : History) :
    Asked opts server name qtype (h ++ more) := by
  rcases ha with ⟨id, bytes, r, hbytes, hmem⟩ | ⟨e, hmem⟩ | ⟨id, e, herror, hmem⟩
  · exact .inl ⟨id, bytes, r, hbytes, List.mem_append_right h hmem⟩
  · exact .inr (.inl ⟨e, List.mem_append_right h hmem⟩)
  · exact .inr (.inr ⟨id, e, herror, List.mem_append_right h hmem⟩)

theorem opens_append (h more : History) :
    opens opts server (h ++ more) = opens opts server h + opens opts server more := by
  rw [opens, List.filter_append, List.length_append, opens, opens]

/-- What turning to one resolver may add to a history. -/
structure Turn (opts : HttpOptions) (server : IpAddr) (name : Str) (qtype : Nat) (more : History) : Prop where
  quiet : ∀ e ∈ more, isOutside e = false
  once : ∀ other, opens opts other more = [server].count other
  asked : Asked opts server name qtype more

/-- A socket, and calls that open no other. -/
theorem turn_cons {r : Except Str Unit}
    (hquiet : ∀ e ∈ more, isOutside e = false ∧ ∀ other, e.1 ≠ openCall opts other)
    (hasked : Asked opts server name qtype (⟨openCall opts server, r⟩ :: more)) :
    Turn opts server name qtype (⟨openCall opts server, r⟩ :: more) where
  quiet := List.forall_mem_cons.mpr ⟨rfl, fun e he ↦ (hquiet e he).1⟩
  once other := by
    have hrest : more.filter (fun e ↦ e.1 == openCall opts other) = [] :=
      List.filter_eq_nil_iff.mpr fun e he heq ↦ (hquiet e he).2 other (beq_iff_eq.mp heq)
    rw [opens, List.filter_cons, hrest, List.count_singleton]
    by_cases heq : server = other
    · rw [heq, beq_self_eq_true, beq_self_eq_true]
      rfl
    · have hne : (openCall opts server == openCall opts other) = false :=
        beq_eq_false_iff_ne.mpr fun h ↦ heq (Call.openSocket.inj h).1
      rw [hne, beq_eq_false_iff_ne.mpr heq]
      rfl
  asked := hasked

theorem sound_query {g : Except Str Answer → Task α} (patience : Nat) (hserver : server ∈ opts.dnsServers)
    (hqtype : qtype = typeA ∨ qtype = typeAaaa) (hname : Named w h server host qtype name)
    (hopen : opens opts server h < 4 * opts.dnsServers.count server)
    (hg : ∀ r more, Turn opts server name qtype more →
      (∀ answer, r = .ok answer → Reported w (h ++ more) server name qtype answer) →
        Sound w opts host port (g r) (h ++ more)) :
    Sound w opts host port (Prog.bind (query w opts patience server name qtype) g) h := by
  refine .call ⟨hserver, rfl, rfl, hopen⟩ ?_
  intro opened _ _
  rcases opened with e | ⟨⟩
  · exact hg (.error e) [⟨openCall opts server, .error e⟩]
      (turn_cons (List.forall_mem_nil _) (.inr (.inl ⟨e, List.mem_cons_self⟩))) nofun
  refine .call trivial ?_
  intro id _ _
  rw [List.append_assoc]
  change Sound w opts host port (Prog.bind (sendQuery w patience server name qtype id.toNat
    (buildQuery id.toNat name qtype)) g) _
  have hdrawn : isOutside ⟨.randomId, id⟩ = false ∧ ∀ other, Call.randomId ≠ openCall opts other :=
    ⟨rfl, nofun⟩
  cases hbytes : buildQuery id.toNat name qtype with
  | error e =>
      exact hg (.error e) [⟨openCall opts server, .ok ()⟩, ⟨.randomId, id⟩]
        (turn_cons (List.forall_mem_singleton.mpr hdrawn)
          (.inr (.inr ⟨id.toNat, e, hbytes, List.mem_cons_self⟩))) nofun
  | ok bytes =>
      refine .call ⟨hserver, id.toNat, name, qtype, hbytes, hqtype, hname.append _⟩ ?_
      intro sent _ _
      have hsent : isOutside ⟨.send server bytes, sent⟩ = false ∧
          ∀ other, Call.send server bytes ≠ openCall opts other := ⟨rfl, nofun⟩
      have hasked (rest : History) : Asked opts server name qtype
          (⟨openCall opts server, .ok ()⟩ :: ⟨.randomId, id⟩ :: ⟨.send server bytes, sent⟩ :: rest) :=
        .inl ⟨id.toNat, bytes, sent, hbytes,
          List.mem_cons_of_mem _ (List.mem_cons_of_mem _ List.mem_cons_self)⟩
      rw [List.append_assoc]
      rcases sent with e | ⟨⟩
      · exact hg (.error e) [⟨openCall opts server, .ok ()⟩, ⟨.randomId, id⟩, ⟨.send server bytes, .error e⟩]
          (turn_cons (List.forall_mem_cons.mpr ⟨hdrawn, List.forall_mem_singleton.mpr hsent⟩) (hasked []))
          nofun
      · change Sound w opts host port (Prog.bind (awaitReply w server name qtype id.toNat patience) g) _
        have hnone : ∀ e ∈ ([] : History), e.1 = .recv server := List.forall_mem_nil _
        refine sound_awaitReply patience (List.append_assoc h _ _).symm hnone hbytes ?_
        intro r more hmore hr
        rw [List.append_assoc] at hr ⊢
        refine hg r _ (turn_cons ?_ (hasked more)) hr
        refine List.forall_mem_cons.mpr ⟨hdrawn, List.forall_mem_cons.mpr ⟨hsent, ?_⟩⟩
        rintro ⟨c, r⟩ he
        obtain rfl : c = .recv server := hmore _ he
        exact ⟨rfl, nofun⟩

/-- What turning to some of the resolvers may add, at most twice to each; and each is asked if none of
them knows an address. -/
structure Turns (opts : HttpOptions) (servers : List IpAddr) (host : Str) (qtype : Nat) (failed : Prop)
    (more : History) : Prop where
  quiet : ∀ e ∈ more, isOutside e = false
  few : ∀ other, opens opts other more ≤ 2 * servers.count other
  asked : failed → ∀ server ∈ servers, Asked opts server host qtype more

/-- One turn with a resolver, or two. -/
structure Visit (opts : HttpOptions) (server : IpAddr) (host : Str) (qtype : Nat) (more : History) : Prop where
  quiet : ∀ e ∈ more, isOutside e = false
  few : ∀ other, opens opts other more ≤ 2 * [server].count other
  asked : Asked opts server host qtype more

theorem Turn.visit (ht : Turn opts server name qtype more) : Visit opts server name qtype more where
  quiet := ht.quiet
  few other := by
    rw [ht.once]
    exact Nat.le_mul_of_pos_left _ (Nat.zero_lt_succ 1)
  asked := ht.asked

theorem Turn.twice {name' : Str} {first second : History} (h₁ : Turn opts server name qtype first)
    (h₂ : Turn opts server name' qtype second) : Visit opts server name qtype (first ++ second) where
  quiet := List.forall_mem_append.mpr ⟨h₁.quiet, h₂.quiet⟩
  few other := by rw [opens_append, h₁.once, h₂.once, Nat.two_mul]
  asked := h₁.asked.append_right second

theorem Visit.turns (hv : Visit opts server host qtype more) {servers : List IpAddr} {failed : Prop}
    (hnot : ¬ failed) : Turns opts (server :: servers) host qtype failed more where
  quiet := hv.quiet
  few other := by
    have := hv.few other
    rw [List.count_singleton] at this
    rw [List.count_cons]
    omega
  asked hfailed := absurd hfailed hnot

theorem Turns.cons {servers : List IpAddr} {failed : Prop} {first rest : History}
    (hv : Visit opts server host qtype first) (hrest : Turns opts servers host qtype failed rest) :
    Turns opts (server :: servers) host qtype failed (first ++ rest) where
  quiet := List.forall_mem_append.mpr ⟨hv.quiet, hrest.quiet⟩
  few other := by
    have hfirst := hv.few other
    have := hrest.few other
    rw [List.count_singleton] at hfirst
    rw [opens_append, List.count_cons]
    omega
  asked hfailed := List.forall_mem_cons.mpr ⟨hv.asked.append_right rest,
    fun other hother ↦ (hrest.asked hfailed other hother).append_left first⟩

/-- What the resolvers of the carrier found out. -/
def Found (w : Nat) (opts : HttpOptions) (host : Str) (qtype : Nat) (h : History)
    (r : Except Str (List IpAddr)) : Prop :=
  ∀ addrs, r = .ok addrs → addrs ≠ [] ∧ ∀ ip ∈ addrs, FromCarrier w opts h host ip ∧
    (qtype = typeA → ip.isV6 = false) ∧ (qtype = typeAaaa → ip.isV6 = true)

theorem found_of_reported (hserver : server ∈ opts.dnsServers) (hqtype : qtype = typeA ∨ qtype = typeAaaa)
    (hname : Named w h server host qtype name) (hr : Reported w h server name qtype answer)
    (hne : answer.addrs ≠ []) : Found w opts host qtype h (.ok answer.addrs) := by
  rintro addrs ⟨⟩
  refine ⟨hne, fun ip hip ↦ ⟨⟨server, hserver, qtype, name, answer, hqtype, hname, hr, hip⟩, ?_⟩⟩
  obtain ⟨_, _, _, id, _, msg, -, -, -, -, hparse⟩ := hr
  exact parseAnswer_family msg id qtype answer hparse ip hip

theorem sound_queryAllServers {g : Except Str (List IpAddr) → Task α} (patience : Nat)
    (hqtype : qtype = typeA ∨ qtype = typeAaaa) {servers : List IpAddr} (last : Option Str)
    (hservers : ∀ server ∈ servers, server ∈ opts.dnsServers)
    (hopen : ∀ other, opens opts other h + 2 * servers.count other ≤ 4 * opts.dnsServers.count other)
    (hg : ∀ r more, Turns opts servers host qtype (r.isOk = false) more → Found w opts host qtype (h ++ more) r →
      Sound w opts host port (g r) (h ++ more)) :
    Sound w opts host port (Prog.bind (queryAllServers w opts patience host qtype last servers) g) h := by
  induction servers generalizing last h with
  | nil =>
      have hend := hg (.error (last.getD "no answer")) []
        ⟨List.forall_mem_nil _, fun _ ↦ Nat.le_refl 0, fun _ ↦ List.forall_mem_nil _⟩ nofun
      rw [List.append_nil] at hend
      exact hend
  | cons server servers ih =>
      obtain ⟨hserver, hservers⟩ := List.forall_mem_cons.mp hservers
      have hroom : opens opts server h + 2 ≤ 4 * opts.dnsServers.count server := by
        have := hopen server
        rw [List.count_cons_self] at this
        omega
      -- The next resolver, after one or two turns with this one.
      have hnext (last : Option Str) {first : History} (hv : Visit opts server host qtype first) :
          Sound w opts host port
            (Prog.bind (queryAllServers w opts patience host qtype last servers) g) (h ++ first) := by
        refine ih last hservers ?_ ?_
        · intro other
          have hle := hopen other
          have hfew := hv.few other
          rw [List.count_singleton] at hfew
          rw [List.count_cons] at hle
          rw [opens_append]
          omega
        · intro r more hturns hfound
          rw [List.append_assoc] at hfound ⊢
          exact hg r _ (hturns.cons hv) hfound
      have hok (addrs : List IpAddr) : ¬ (Except.ok (ε := Str) addrs).isOk = false :=
        fun h : true = false ↦ Bool.noConfusion h
      change Sound w opts host port (Prog.bind (Prog.bind (Prog.bind
        (query w opts patience server host qtype) _) _) g) h
      rw [Prog.bind_assoc, Prog.bind_assoc]
      refine sound_query patience hserver hqtype (.inl rfl) (by omega) ?_
      intro r more hturn hr
      rcases r with e | ⟨addrs, cname⟩
      · exact hnext (some e) hturn.visit
      by_cases haddrs : addrs = []
      · subst haddrs
        cases cname with
        | none => exact hnext last hturn.visit
        | some target =>
            change Sound w opts host port (Prog.bind (Prog.bind (Prog.bind
              (query w opts patience server target qtype) _) _) g) (h ++ more)
            rw [Prog.bind_assoc, Prog.bind_assoc]
            refine sound_query patience hserver hqtype (.inr (hr _ rfl)) ?_ ?_
            · rw [opens_append, hturn.once, List.count_cons_self, List.count_nil]
              omega
            intro r' more' hturn' hr'
            rw [List.append_assoc] at hr' ⊢
            have hv : Visit opts server host qtype (more ++ more') := hturn.twice hturn'
            rcases r' with e | answer
            · exact hnext last hv
            by_cases hanswer : answer.addrs = []
            · change Sound w opts host port (Prog.bind (if answer.addrs ≠ [] then _ else _) g) _
              rw [if_neg (not_not.mpr hanswer)]
              exact hnext last hv
            · change Sound w opts host port (Prog.bind (if answer.addrs ≠ [] then _ else _) g) _
              rw [if_pos hanswer]
              have hnamed : Named w (h ++ (more ++ more')) server host qtype target := by
                rw [← List.append_assoc]
                exact .inr ((hr _ rfl).append more')
              exact hg (.ok answer.addrs) (more ++ more') (hv.turns (hok _))
                (found_of_reported hserver hqtype hnamed (hr' answer rfl) hanswer)
      · change Sound w opts host port (Prog.bind (if addrs ≠ [] then _ else _) g) _
        rw [if_pos haddrs]
        exact hg (.ok addrs) more (hturn.visit.turns (hok addrs))
          (found_of_reported hserver hqtype (.inl rfl) (hr _ rfl) haddrs)

/-- Addresses of the host for which the system was not asked. -/
def OfCarrier (w : Nat) (opts : HttpOptions) (host : Str) (port : Nat) (h : History)
    (addrs : List SocketAddr) : Prop :=
  (∀ a ∈ addrs, FromCarrier w opts h host a.ip ∧ a.port = port) ∧
    ((∀ a ∈ addrs, a.ip.isV6 = false) ∨ ∀ a ∈ addrs, a.ip.isV6 = true)

theorem ofCarrier_of_found (hqtype : qtype = typeA ∨ qtype = typeAaaa) {ips : List IpAddr}
    (hfound : Found w opts host qtype h (.ok ips)) :
    OfCarrier w opts host port h (ips.map (SocketAddr.mk · port)) := by
  obtain ⟨-, hips⟩ := hfound ips rfl
  refine ⟨?_, ?_⟩
  · intro a ha
    obtain ⟨ip, hip, rfl⟩ := List.mem_map.mp ha
    exact ⟨(hips ip hip).1, rfl⟩
  · refine hqtype.imp (fun hq a ha ↦ ?_) fun hq a ha ↦ ?_
    · obtain ⟨ip, hip, rfl⟩ := List.mem_map.mp ha
      exact (hips ip hip).2.1 hq
    · obtain ⟨ip, hip, rfl⟩ := List.mem_map.mp ha
      exact (hips ip hip).2.2 hq

theorem sound_lookupFamily {g : Except Str (List SocketAddr) → Task α} {otherwise : Attempt (List SocketAddr)}
    (patience : Nat) (hqtype : qtype = typeA ∨ qtype = typeAaaa)
    (hopen : ∀ other, opens opts other h ≤ 2 * opts.dnsServers.count other)
    (hother : ∀ more, Turns opts opts.dnsServers host qtype True more →
      Sound w opts host port (Prog.bind otherwise g) (h ++ more))
    (hg : ∀ addrs more, (∀ e ∈ more, isOutside e = false) → OfCarrier w opts host port (h ++ more) addrs →
      Sound w opts host port (g (.ok addrs)) (h ++ more)) :
    Sound w opts host port (Prog.bind (lookupFamily w opts patience host port qtype otherwise) g) h := by
  change Sound w opts host port (Prog.bind (Prog.bind (Prog.bind
    (queryAllServers w opts patience host qtype none opts.dnsServers) _) _) g) h
  rw [Prog.bind_assoc, Prog.bind_assoc]
  have hroom (other : IpAddr) : opens opts other h + 2 * opts.dnsServers.count other ≤
      4 * opts.dnsServers.count other := by
    have := hopen other
    omega
  refine sound_queryAllServers patience hqtype none (fun _ h ↦ h) hroom ?_
  intro r more hturns hfound
  rcases r with e | _ | ⟨ip, ips⟩
  · exact hother more ⟨hturns.quiet, hturns.few, fun _ ↦ hturns.asked rfl⟩
  · exact absurd rfl (hfound [] rfl).1
  · exact hg _ more hturns.quiet (ofCarrier_of_found hqtype hfound)

theorem sound_lookup {g : Except Str (List SocketAddr) → Task α} (patience : Nat)
    (hhost : IpAddr.parse host = none) (hservers : opts.dnsServers ≠ [])
    (hfail : ∀ e first second, (∀ e ∈ first ++ second, isOutside e = false) →
      (∀ server ∈ opts.dnsServers, Asked opts server host typeA first ∧
        Asked opts server host typeAaaa second) → Sound w opts host port (g (.error e)) (first ++ second))
    (hg : ∀ addrs more, (∀ e ∈ more, isOutside e = false) → OfCarrier w opts host port more addrs →
      Sound w opts host port (g (.ok addrs)) more) :
    Sound w opts host port (Prog.bind (lookup w opts patience host port) g) [] := by
  unfold lookup
  rw [hhost]
  dsimp only
  rw [if_neg hservers]
  refine sound_lookupFamily patience (.inl rfl) (fun _ ↦ Nat.zero_le _) ?_ fun addrs more ↦ hg addrs more
  intro first hfirst
  rw [List.nil_append]
  refine sound_lookupFamily patience (.inr rfl) hfirst.few ?_ ?_
  · intro second hsecond
    exact hfail _ _ _ (List.forall_mem_append.mpr ⟨hfirst.quiet, hsecond.quiet⟩)
      fun server hserver ↦ ⟨hfirst.asked trivial server hserver, hsecond.asked trivial server hserver⟩
  · intro addrs second hquiet
    exact hg addrs _ (List.forall_mem_append.mpr ⟨hfirst.quiet, hquiet⟩)

theorem Vouched.append {addr : SocketAddr} (hv : Vouched w opts h host port addr)
    (hmore : ∀ e ∈ more, e.1 ≠ .lookupHost host port) : Vouched w opts (h ++ more) host port addr := by
  rcases hv with hliteral | ⟨hnone, hcarrier, hport⟩ | ⟨addrs, hmem, haddr⟩
  · exact .inl hliteral
  · obtain ⟨server, hserver, qtype, name, answer, hqtype, hname, hr, hip⟩ := hcarrier
    exact .inr (.inl ⟨List.forall_mem_append.mpr ⟨hnone, hmore⟩,
      ⟨server, hserver, qtype, name, answer, hqtype, hname.append more, hr.append more, hip⟩, hport⟩)
  · exact .inr (.inr ⟨addrs, List.mem_append_left more hmem, haddr⟩)

/-- IPv4 is tried first. -/
def V4First (addrs : List SocketAddr) : Prop :=
  addrs.Pairwise fun a b ↦ b.ip.isV6 = false → a.ip.isV6 = false

/-- The peers are tried in order, each once, until one of them can be reached. -/
theorem sound_connectAny {addrs : List SocketAddr} (last : Option Str)
    (hvouched : ∀ a ∈ addrs, Vouched w opts h host port a) (hfirst : V4First addrs)
    (htried : ∀ addr interface localIp r, ⟨.connect addr interface localIp, r⟩ ∈ h → r.isOk = false ∧
      ∀ a ∈ addrs, a.ip.isV6 = false → addr.ip.isV6 = false) :
    Sound w opts host port (connectAny opts last addrs) h := by
  induction addrs generalizing last h with
  | nil => exact Prog.Obeys.done
  | cons addr addrs ih =>
      obtain ⟨haddr, hrest⟩ := List.forall_mem_cons.mp hvouched
      obtain ⟨hbefore, hfirst⟩ := List.pairwise_cons.mp hfirst
      refine .call ⟨rfl, rfl, haddr, ?_⟩ ?_
      · intro addr' r hr
        obtain ⟨hfailed, hv4⟩ := htried addr' _ _ r hr
        exact ⟨hfailed, hv4 addr List.mem_cons_self⟩
      · intro r _ _
        rcases r with e | ⟨⟩
        · refine ih (some e) ?_ hfirst ?_
          · intro a ha
            exact (hrest a ha).append (List.forall_mem_singleton.mpr nofun)
          · intro addr' interface localIp r hr
            rcases List.mem_append.mp hr with hold | hnew
            · obtain ⟨hfailed, hv4⟩ := htried addr' interface localIp r hold
              exact ⟨hfailed, fun a ha ↦ hv4 a (List.mem_cons_of_mem addr ha)⟩
            · obtain ⟨⟨⟩, ⟨⟩⟩ := Sigma.mk.inj (List.mem_singleton.mp hnew)
              exact ⟨rfl, hbefore⟩
        · exact Prog.Obeys.done

/-- Nothing was tried before. -/
theorem sound_connectAny_first {addrs : List SocketAddr}
    (hquiet : ∀ addr interface localIp r, (⟨.connect addr interface localIp, r⟩ : Prog.Event Call Call.Answer) ∉ h)
    (hvouched : ∀ a ∈ addrs, Vouched w opts h host port a) (hfirst : V4First addrs) :
    Sound w opts host port (connectAny opts none addrs) h :=
  sound_connectAny none hvouched hfirst fun addr interface localIp r hr ↦
    absurd hr (hquiet addr interface localIp r)

theorem not_mem_of_quiet (hquiet : ∀ e ∈ h, isOutside e = false) (addr : SocketAddr)
    (interface : Option Str) (localIp : Option IpAddr) (r : Except Str Unit) :
    (⟨.connect addr interface localIp, r⟩ : Prog.Event Call Call.Answer) ∉ h :=
  fun hr ↦ Bool.noConfusion (hquiet _ hr : true = false)

theorem v4First_mergeSort (addrs : List SocketAddr) :
    V4First (addrs.mergeSort fun a b ↦ !a.ip.isV6 || b.ip.isV6) := by
  have hsorted := @List.pairwise_mergeSort _ (fun a b : SocketAddr ↦ !a.ip.isV6 || b.ip.isV6)
    (fun a b c ↦ by cases a.ip.isV6 <;> cases b.ip.isV6 <;> cases c.ip.isV6 <;> decide)
    (fun a b ↦ by cases a.ip.isV6 <;> cases b.ip.isV6 <;> rfl) addrs
  refine hsorted.imp ?_
  intro a b hle hb
  rw [hb, Bool.or_false, Bool.not_eq_true'] at hle
  exact hle

theorem sound_systemLookup (hquiet : ∀ e ∈ h, isOutside e = false)
    (hasked : ∃ first second, h = first ++ second ∧ ∀ server ∈ opts.dnsServers,
      Asked opts server host typeA first ∧ Asked opts server host typeAaaa second) :
    Sound w opts host port (Prog.bind (systemLookup host port)
      (ExceptT.bindCont fun addrs ↦ connectAny opts none addrs)) h := by
  refine .call ⟨rfl, rfl, hasked⟩ ?_
  intro r _ _
  rcases r with e | addrs
  · exact Prog.Obeys.done
  change Sound w opts host port (Prog.bind (if addrs.mergeSort _ = [] then _ else _) _) _
  split
  · exact Prog.Obeys.done
  · refine sound_connectAny_first ?_ ?_ (v4First_mergeSort addrs)
    · intro addr interface localIp r hr
      rcases List.mem_append.mp hr with hold | hnew
      · exact not_mem_of_quiet hquiet addr interface localIp r hold
      · cases List.mem_singleton.mp hnew
    · intro a ha
      exact .inr (.inr ⟨addrs, List.mem_append_right h List.mem_cons_self, List.mem_mergeSort.mp ha⟩)

theorem sound_resolveBare (patience : Nat) :
    Sound w opts host port (Prog.bind (resolveBare w opts patience host port)
      (ExceptT.bindCont fun addrs ↦ connectAny opts none addrs)) [] := by
  unfold resolveBare
  cases hhost : IpAddr.parse host with
  | some ip =>
      exact sound_connectAny_first (not_mem_of_quiet (List.forall_mem_nil _))
        (List.forall_mem_singleton.mpr (.inl ⟨hhost, rfl⟩)) (List.pairwise_singleton _ _)
  | none =>
      dsimp only
      by_cases hservers : opts.dnsServers = []
      · rw [if_pos hservers]
        refine sound_systemLookup (List.forall_mem_nil _) ⟨[], [], rfl, ?_⟩
        rw [hservers]
        exact List.forall_mem_nil _
      rw [if_neg hservers]
      change Sound w opts host port (Prog.bind (Prog.bind (Prog.bind (lookup w opts patience host port) _) _) _) []
      rw [Prog.bind_assoc, Prog.bind_assoc]
      refine sound_lookup patience hhost hservers ?_ ?_
      · intro e first second hquiet hasked
        exact sound_systemLookup hquiet ⟨first, second, rfl, hasked⟩
      · intro addrs more hquiet hcarrier
        refine sound_connectAny_first (not_mem_of_quiet hquiet) ?_ ?_
        · intro a ha
          obtain ⟨hfrom, hport⟩ := hcarrier.1 a ha
          refine .inr (.inl ⟨fun e he ↦ ?_, hfrom, hport⟩)
          obtain ⟨c, r⟩ := e
          rintro rfl
          exact Bool.noConfusion (hquiet _ he : true = false)
        · rcases hcarrier.2 with hv4 | hv6
          · exact List.pairwise_of_forall_mem_list fun a ha _ _ _ ↦ hv4 a ha
          · exact List.pairwise_of_forall_mem_list fun _ _ b hb h ↦ absurd (hv6 b hb) (h ▸ Bool.false_ne_true)

theorem foldl_push (h es : History) : es.foldl (fun h e ↦ h ++ [e]) h = h ++ es := by
  induction es generalizing h with
  | nil => exact (List.append_nil h).symm
  | cons e es ih => rw [List.foldl_cons, ih, List.append_assoc, List.singleton_append]

end Steps

end Modem2Sip.Mms.Http
