import Modem2Sip.Lib.Run
import Modem2Sip.Gateway.State

/-!
# Where call audio is sent

`receiver_loop` looks at the signalled address twice for one packet: once to decide
whether its source may be heard at all, and once to latch onto that source.  Each
look takes the lock for itself, so `set_remote` can come in between.  Here a packet
is these two steps, and the event loop's view of it, `MediaSession.receive`, is the
two of them with nothing in between.
-/

namespace Modem2Sip.Gateway

open Text Net

/-- Does a datagram have an RTP header? -/
def isRtp : List UInt8 → Bool
  | b :: bytes => decide (11 ≤ bytes.length) && b >>> 6 == 2
  | [] => false

namespace MediaSession

/-- The second look: with symmetric RTP the first packet after a move says where to send to. -/
def latch (symmetric : Bool) (m : MediaSession) (src : SocketAddr) : MediaSession :=
  if symmetric && !m.latched then
    { m with latched := true, remote := if src ≠ m.signalled then src else m.remote }
  else m

/-- A packet that nothing comes in the way of. -/
theorem receive_eq (symmetric : Bool) (m : MediaSession) (now : Nat) (src : SocketAddr) :
    m.receive symmetric now src = (m.stamp now).latch symmetric src := rfl

/-- Call audio goes to the host that was signalled, if one was. -/
def OnSignalledHost (m : MediaSession) : Prop :=
  m.signalled.ip.isUnspecified = false → m.remote.ip = m.signalled.ip

end MediaSession

/-- A media session, and the source of the packet that `receiver_loop` has let in but not acted
on yet. -/
structure Session where
  media : MediaSession
  pending : Option SocketAddr
deriving DecidableEq, Repr

inductive MediaEvent where
  /-- `set_remote`. -/
  | setRemote (addr : SocketAddr)
  /-- A datagram is read, and its source compared with the signalled address. -/
  | packet (now : Nat) (src : SocketAddr) (bytes : List UInt8)
  /-- The packet that was let in latches. -/
  | latch
deriving Repr

namespace Session

/-- A new session has nothing pending. -/
def start (now : Nat) (remote : SocketAddr) : Session where
  media := .start now remote
  pending := none

/-- One critical section.  There is one receiver, so the next datagram waits for the one before. -/
def step (symmetric : Bool) (s : Session) : MediaEvent → Session
  | .setRemote addr => { s with media := s.media.setRemote addr }
  | .packet now src bytes =>
    if s.pending.isNone && s.media.accepts src && isRtp bytes then
      { media := s.media.stamp now, pending := some src }
    else s
  | .latch =>
    match s.pending with
    | some src => { media := s.media.latch symmetric src, pending := none }
    | none => s

/-- A packet that is let in and latches at once is what the event loop sees. -/
theorem step_packet_latch (symmetric : Bool) (s : Session) (now : Nat) (src : SocketAddr)
    (bytes : List UInt8) (hidle : s.pending = none) (haccepts : s.media.accepts src = true)
    (hrtp : isRtp bytes = true) :
    Run.run (step symmetric) s [.packet now src bytes, .latch] =
      { media := s.media.receive symmetric now src, pending := none } := by
  simp [step, hidle, haccepts, hrtp, MediaSession.receive_eq]

/-- What has to hold when a packet latches: its source is still on the signalled host. -/
def latchesOnHost (symmetric : Bool) (s : Session) : MediaEvent → Bool
  | .latch =>
    s.pending.all fun src ↦ !symmetric || s.media.latched ||
      s.media.signalled.ip.isUnspecified || src.ip == s.media.signalled.ip
  | _ => true

/-- Every critical section keeps the audio on the signalled host, but for a latch onto another. -/
theorem step_onSignalledHost_iff (symmetric : Bool) (s : Session) (e : MediaEvent)
    (h : s.media.OnSignalledHost) :
    s.latchesOnHost symmetric e = true ↔ (s.step symmetric e).media.OnSignalledHost := by
  cases e with
  | setRemote addr => exact iff_of_true rfl fun _ ↦ rfl
  | packet now src bytes =>
      refine iff_of_true rfl ?_
      unfold step
      dsimp only
      split
      · exact h
      · exact h
  | latch =>
      cases hp : s.pending with
      | none => simpa [latchesOnHost, step, hp] using h
      | some src =>
          simp only [latchesOnHost, step, hp, Option.all_some, MediaSession.latch]
          cases hsym : symmetric with
          | false => simpa using h
          | true =>
              cases hlatched : s.media.latched with
              | true => simpa using h
              | false =>
                  simp only [Bool.not_true, Bool.false_or, Bool.not_false, Bool.and_self, if_true,
                    Bool.or_eq_true, beq_iff_eq, MediaSession.OnSignalledHost]
                  by_cases hsrc : src = s.media.signalled
                  · -- The source is the signalled address itself.
                    subst hsrc
                    simpa [MediaSession.OnSignalledHost] using h
                  · rw [if_pos hsrc]
                    constructor
                    · rintro (hun | hip) hspec
                      · exact absurd (hun.symm.trans hspec) (by decide)
                      · exact hip
                    · intro hhost
                      cases hun : s.media.signalled.ip.isUnspecified with
                      | true => exact .inl rfl
                      | false => exact .inr (hhost hun)

end Session

/-- In every interleaving of packets and moves, the audio stays on the signalled host in every
state exactly if no packet latches after the signalled host has moved away from it. -/
theorem onSignalledHost_iff (symmetric : Bool) (now : Nat) (remote : SocketAddr)
    (es : List MediaEvent) :
    (∀ pre, pre <+: es →
      (Run.run (Session.step symmetric) (Session.start now remote) pre).media.OnSignalledHost) ↔
      Run.Guarded (Session.step symmetric) (fun s e ↦ s.latchesOnHost symmetric e = true)
        (Session.start now remote) es := by
  have hstart : (Session.start now remote).media.OnSignalledHost := fun _ ↦ rfl
  exact (Run.guarded_iff (fun s e h ↦ Session.step_onSignalledHost_iff symmetric s e h) hstart).symm

/-- A packet of the peer is let in, a re-INVITE moves the media to another host, and the packet
latches the audio back onto the host it came from. -/
theorem latch_after_move :
    let host (a : Nat) : SocketAddr := { ip := .v4 (ofOctets 10 0 0 a), port := 30000 }
    let s := Run.run (Session.step true) (Session.start 0 (host 5))
      [.packet 20 (host 5) (0x80 :: List.replicate 11 0), .setRemote (host 7), .latch]
    ¬ s.media.OnSignalledHost := by
  intro host s h
  exact absurd (h (by decide)) (by decide)

end Modem2Sip.Gateway
