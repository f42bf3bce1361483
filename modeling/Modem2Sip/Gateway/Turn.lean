import Mathlib.Logic.Relation
import Modem2Sip.Gateway.NewCall

/-!
# What the handlers do to a call

Apart from those that take a new call, the handlers are made of three moves: they leave the leg alone,
they hang the mobile side up and empty the slot, or they change what is in the slot beside its media
and its path.  What each of these moves keeps, every handler keeps.
-/

namespace Modem2Sip.Gateway

open Text Net Sip

variable (md5Hex : List UInt8 → Str) (cfg : Config) (env : Env)

/-- One move of a handler.  The call is changed only where `C` allows it. -/
inductive Move (C : Prop) : State → State → Prop where
  | rest {resp : Option Nat → Nat → Prop} {meth : Method → Prop} {g g' : State} :
      Steady (Entry.Allowed resp meth) g g' → Move C g g'
  | finish (g : State) (disposition : Str) : Move C g (g.hangupMobile.finishCall disposition)
  | update (g : State) {f : ActiveCall → ActiveCall} : C → (∀ c, (f c).media = c.media) →
      (∀ c, (f c).mmPath = c.mmPath) → Move C g (g.updateCall f)

/-- What a handler does in one go. -/
def Turn (C : Prop) : State → State → Prop := Relation.ReflTransGen (Move C)

namespace Turn

variable {C : Prop} {g g₁ g₂ g₃ : State}

theorem refl (g : State) : Turn C g g := Relation.ReflTransGen.refl

theorem trans (h₁ : Turn C g₁ g₂) (h₂ : Turn C g₂ g₃) : Turn C g₁ g₃ :=
  Relation.ReflTransGen.trans h₁ h₂

theorem rest {resp : Option Nat → Nat → Prop} {meth : Method → Prop}
    (h : Steady (Entry.Allowed resp meth) g₁ g₂) : Turn C g₁ g₂ := .single (.rest h)

theorem finish (g : State) (disposition : Str) : Turn C g (g.hangupMobile.finishCall disposition) :=
  .single (.finish g disposition)

theorem update (g : State) (h : C) {f : ActiveCall → ActiveCall} (hmedia : ∀ c, (f c).media = c.media)
    (hpath : ∀ c, (f c).mmPath = c.mmPath) : Turn C g (g.updateCall f) :=
  .single (.update g h hmedia hpath)

/-- What a handler does is of a kind that each of its moves is of. -/
theorem lift {R : State → State → Prop} (hrefl : ∀ g, R g g)
    (htrans : ∀ {g₁ g₂ g₃}, R g₁ g₂ → R g₂ g₃ → R g₁ g₃)
    (hmove : ∀ {g g'}, Move C g g' → R g g') (h : Turn C g₁ g₂) : R g₁ g₂ := by
  induction h with
  | refl => exact hrefl _
  | tail _ hlast ih => exact htrans ih (hmove hlast)

theorem emit (g : State) {e : Entry} (he : e.Allowed (fun _ _ ↦ True) fun _ ↦ True) :
    Turn C g (g.emit e) := rest (.emit g he)

/-- The handler says goodbye before the call leaves its slot. -/
theorem finish_of_rest {resp : Option Nat → Nat → Prop} {meth : Method → Prop}
    (h : Steady (Entry.Allowed resp meth) g₁ g₂) (disposition : Str) :
    Turn C g₁ (g₂.hangupMobile.finishCall disposition) := (rest h).trans (finish g₂ disposition)

/-! ### The handlers -/

variable (g)

theorem respond (txn : Option Nat) (req : Request) (resp : Response) (dest : SocketAddr) :
    Turn C g (g.respond env txn req resp dest).1 := emit g (e := .respond txn req resp dest) trivial

theorem teardownCall (reason : Str) (code : Nat) :
    Turn C g (g.teardownCall cfg env reason code) := by
  unfold State.teardownCall
  split
  · exact refl g
  · rename_i c _
    dsimp only
    split
    · have hbye : Steady (Entry.Sends (· = .bye)) g.takeCseq.2 _ :=
        g.takeCseq.2.sendInBackground_steady env (g.buildInDialogRequest cfg env c .bye).1 c.remoteAddr rfl
      exact finish_of_rest ((Steady.takeCseq g).trans hbye) _
    · split
      · exact (respond env g _ _ _ _).trans (finish _ reason)
      · exact finish_of_rest (g.cancelOutgoingInvite_steady env) _

theorem onSipBye (txn : Nat) (req : Request) (src : SocketAddr) :
    Turn C g (g.onSipBye cfg env txn req src).1 := by
  unfold State.onSipBye
  dsimp only
  generalize (if g.inDialog req then 200 else 481) = code
  split
  · exact respond env ..
  · split
    · exact (respond env ..).trans (finish _ _)
    · exact respond env ..

theorem onSipCancel (txn : Nat) (req : Request) (src : SocketAddr) :
    Turn C g (g.onSipCancel cfg env txn req src).1 := by
  unfold State.onSipCancel
  dsimp only
  split
  · exact respond env ..
  · split
    · exact respond env ..
    · split
      · exact (respond env ..).trans ((respond env ..).trans (finish _ _))
      · exact respond env ..

/-- An INVITE that does not start a call. -/
theorem onSipInvite (txn : Nat) (req : Request) (src : SocketAddr)
    (h : g.call = none → g.admits req = false) : Turn C g (g.onSipInvite cfg env txn req src).1 := by
  unfold State.onSipInvite
  cases hc : g.call with
  | some c =>
      dsimp only
      split
      · split
        · split
          · exact rest (g.respondWithMedia_steady cfg env 183)
          · exact rest (g.sendProvisional_steady cfg env 180)
        · exact rest (g.onSipReinvite_steady cfg env txn req src)
      · exact rest (g.reply_steady cfg env txn req src 486)
  | none =>
      obtain ⟨code, -, heq⟩ := g.onNewInvite_refused cfg env txn req src (h hc)
      dsimp only
      rw [heq]
      exact rest (g.reply_steady cfg env txn req src code)

/-- A request that does not start a call. -/
theorem onSipRequest (txn : Nat) (req : Request) (src : SocketAddr)
    (h : req.method = .invite → g.call = none → g.admits req = false) :
    Turn C g (g.onSipRequest cfg env txn req src).1 := by
  unfold State.onSipRequest
  cases hm : req.method with
  | invite => exact onSipInvite cfg env g txn req src (h hm)
  | ack => exact refl g
  | bye => exact onSipBye cfg env g txn req src
  | cancel => exact onSipCancel cfg env g txn req src
  | info => exact rest (g.onSipInfo_steady cfg env txn req src)
  | message => exact rest (g.onSipMessage_steady cfg env txn req src)
  | _ => exact respond env ..

theorem onModemAnswered (h : C) : Turn C g (g.onModemAnswered cfg env) := by
  have hans (g : State) : Turn C g (g.updateCall fun c ↦ { c with answered := true }) :=
    update g h (fun _ ↦ rfl) fun _ ↦ rfl
  have hconfirm (g : State) := State.cdrAnswered_of (P := Turn C g) (hans g)
    (fun id ↦ (hans g).trans (emit _ (e := .cdrAnswered id) trivial))
  unfold State.onModemAnswered
  split
  · exact refl g
  · rename_i c _
    dsimp only
    split
    · have hresp := rest (C := C) (g.respondWithMedia_steady cfg env 200)
      split
      · exact hresp.trans (teardownCall cfg env _ _ _)
      · exact hresp.trans (hconfirm _ c.cdrId)
    · exact hconfirm g c.cdrId

/-- The call is changed when the modem reports it connected. -/
theorem onMmCallState (path : Path) (new : Int) (reason : Nat) (h : new = stateActive → C) :
    Turn C g (g.onMmCallState cfg env path new reason) := by
  unfold State.onMmCallState
  split
  · exact refl g
  · split
    · split
      · split
        · have hearly := rest (C := C) (g.startEarlyMedia_steady cfg env)
          dsimp only
          split
          · exact hearly
          · exact hearly.trans (rest (State.sendProvisional_steady cfg env _ 180))
        · exact rest (g.sendProvisional_steady cfg env 180)
      · exact refl g
    · split
      · rename_i hactive
        split
        · exact refl g
        · exact onModemAnswered cfg env g (h hactive)
      · split
        · exact teardownCall cfg env g _ _
        · exact refl g

theorem onSipAnswered (h : C) (resp : Response) : Turn C g (g.onSipAnswered cfg env resp) := by
  cases hc : g.call with
  | none => simpa [State.onSipAnswered, hc] using refl g
  | some c =>
      have hack := rest (C := C) (g.acked_steady cfg env hc resp)
      rcases g.onSipAnswered_cases cfg env hc resp with heq | ⟨g', hs, heq⟩
      · rw [heq]
        exact hack
      · have hans := hack.trans ((update _ h (f := fun c ↦ { c with answered := true }) (fun _ ↦ rfl)
          fun _ ↦ rfl).trans (rest hs))
        rcases heq with heq | ⟨reason, code, heq⟩ <;> rw [heq]
        · exact hans
        · exact hans.trans (teardownCall cfg env g' reason code)

theorem onSipFailed (h : C) (resp : Response) :
    Turn C g (g.onSipFailed md5Hex cfg env resp) := by
  have hack := rest (C := C) (g.ackFailure_steady env resp)
  unfold State.onSipFailed
  dsimp only
  split
  · rcases (g.ackFailure env resp).retryInviteWithAuth_cases md5Hex cfg env resp with
      ⟨g', hs, heq⟩ | ⟨c, req, txn, deadline, -, -, -, -, -, -, -, heq⟩
    · rw [heq]
      exact hack.trans (finish_of_rest hs _)
    · rw [heq]
      have hsent := (Steady.takeCseq (g.ackFailure env resp)).trans
        (State.sendRequest_steady (P := Entry.Sends fun _ ↦ True) env _ req c.remoteAddr trivial)
      exact hack.trans ((rest hsent).trans (update _ h (fun _ ↦ rfl) fun _ ↦ rfl))
  · exact hack.trans (finish _ _)

/-- The call is changed when a final response is reported. -/
theorem onInternal (ev : Internal) (hanswered : ∀ id r, ev = .sipAnswered id r → C)
    (hfailed : ∀ id r, ev = .sipFailed id r → C) :
    Turn C g (g.onInternal md5Hex cfg env ev) := by
  have hguard {callId : Str} {g' : State} (h : Turn C g g') :
      Turn C g (if g.callIdMatches callId then g' else g) := by
    split
    · exact h
    · exact refl g
  cases ev with
  | sipProgress callId code => exact refl g
  | sipAnswered callId resp => exact hguard (onSipAnswered cfg env g (hanswered _ _ rfl) resp)
  | sipFailed callId resp => exact hguard (onSipFailed md5Hex cfg env g (hfailed _ _ rfl) resp)
  | ringTimeout callId => exact hguard (finish_of_rest (g.cancelOutgoingInvite_steady env) _)
  | earlyMediaAudio callId level => exact hguard (rest (g.upgradeToEarlyMedia_steady cfg env))
  | dtmf callId digit => exact hguard (rest (g.deliverDtmf_steady cfg env _))
  | dtmfFromModem callId digit => exact hguard (rest (g.sendDtmfInfo_steady cfg env _))
  | smsRetry path attempt => exact emit g trivial

theorem checkMedia : Turn C g (g.checkMedia cfg env) := by
  unfold State.checkMedia
  split
  · exact refl g
  · split
    · exact refl g
    · split
      · exact teardownCall cfg env g _ _
      · split
        · exact teardownCall cfg env g _ _
        · exact refl g

end Turn

/-- Audio changes the media of the call, if any arrives there. -/
theorem State.onRtp_cases (g : State) (src : SocketAddr) :
    g.onRtp cfg src = g ∨ ∃ c m, g.call = some c ∧ c.media = some m ∧ g.onRtp cfg src =
      ({ g with call := some { c with media := some (m.receive cfg.symmetric g.now src) } }).emit
        (.rtp src) := by
  unfold State.onRtp
  split
  · exact .inl rfl
  · rename_i c hc
    split
    · exact .inl rfl
    · rename_i m hm
      split
      · exact .inr ⟨c, m, hc, hm, rfl⟩
      · exact .inl rfl

end Modem2Sip.Gateway
