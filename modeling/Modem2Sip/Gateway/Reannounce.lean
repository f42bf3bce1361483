import Modem2Sip.Gateway.Latch

/-!
# The same endpoint again

A session refresh, or a resume, names the RTP endpoint that the peer has named before.  What that does
to the destination depends on whether a packet has latched since the peer named one last.
-/

namespace Modem2Sip.Gateway

open Text Net

namespace Session

/-- A packet latches, and its source is another address than the signalled one. -/
def Diverts (symmetric : Bool) (s : Session) (e : MediaEvent) : Prop :=
  e = .latch ∧ symmetric = true ∧ s.media.latched = false ∧ ∃ src ∈ s.pending, src ≠ s.media.signalled

def IsSetRemote (e : MediaEvent) : Prop := ∃ addr, e = .setRemote addr

/-- Audio goes to the signalled address itself. -/
def Direct (s : Session) : Prop := s.media.remote = s.media.signalled

/-- A move sends to the signalled address; only a packet that latches leads away from it. -/
theorem step_direct_iff (symmetric : Bool) (s : Session) (e : MediaEvent) :
    (s.step symmetric e).Direct ↔ IsSetRemote e ∨ s.Direct ∧ ¬ s.Diverts symmetric e := by
  cases e with
  | setRemote addr => exact iff_of_true rfl (.inl ⟨addr, rfl⟩)
  | packet now src bytes =>
      have hset : ¬ IsSetRemote (.packet now src bytes) := by
        rintro ⟨addr, h⟩
        cases h
      have hdiverts : ¬ s.Diverts symmetric (.packet now src bytes) := fun h ↦ MediaEvent.noConfusion h.1
      rw [or_iff_right hset, and_iff_left hdiverts, step]
      split
      · exact Iff.rfl
      · exact Iff.rfl
  | latch =>
      have hset : ¬ IsSetRemote .latch := by
        rintro ⟨addr, h⟩
        cases h
      rw [or_iff_right hset, step, Diverts]
      cases hpending : s.pending with
      | none =>
          refine (and_iff_left ?_).symm
          rintro ⟨-, -, -, src, hsrc, -⟩
          cases hsrc
      | some src =>
          dsimp only [MediaSession.latch]
          split
          · rename_i hopen
            obtain ⟨hsymmetric, hlatched⟩ := Bool.and_eq_true_iff.mp hopen
            rw [Bool.not_eq_true'] at hlatched
            by_cases hsrc : src = s.media.signalled
            · rw [if_neg (not_not.mpr hsrc)]
              refine (and_iff_left ?_).symm
              rintro ⟨-, -, -, src', hmem, hne⟩
              exact hne ((Option.mem_some_iff.mp hmem).symm.trans hsrc)
            · rw [if_pos hsrc]
              refine iff_of_false hsrc fun h ↦ h.2 ?_
              exact ⟨rfl, hsymmetric, hlatched, src, rfl, hsrc⟩
          · rename_i hopen
            refine (and_iff_left ?_).symm
            rintro ⟨-, hsymmetric, hlatched, -⟩
            exact hopen (by rw [hsymmetric, hlatched]; rfl)

end Session

/-- After any packets and moves, to announce the signalled address once more leaves the destination as
it is exactly if the peer has named its endpoint again since a packet from elsewhere latched. -/
theorem setRemote_signalled_iff (symmetric : Bool) (now : Nat) (remote : SocketAddr) (es : List MediaEvent) :
    let run := Run.run (Session.step symmetric) (Session.start now remote)
    ((run es).media.setRemote (run es).media.signalled).remote = (run es).media.remote ↔
      ∀ before e after, es = before ++ e :: after → (run before).Diverts symmetric e →
        ∃ r ∈ after, Session.IsSetRemote r := by
  intro run
  have hbreaks : ∀ s e, Session.Diverts symmetric s e → ¬ Session.IsSetRemote e := by
    rintro s e ⟨rfl, -⟩ ⟨addr, h⟩
    exact MediaEvent.noConfusion h
  have hdirect := Run.holds_iff_restored (Session.step_direct_iff symmetric) hbreaks
    (rfl : (Session.start now remote).Direct) es
  rw [← hdirect]
  exact eq_comm

/-- The peer is behind a NAT: its first packet comes from another port, and a session refresh sends
the audio back to the port that was signalled. -/
theorem setRemote_drops_latch :
    let addr (port : Nat) : SocketAddr := { ip := .v4 (ofOctets 10 0 0 5), port := port }
    let s := Run.run (Session.step true) (Session.start 0 (addr 30000))
      [.packet 20 (addr 40123) (0x80 :: List.replicate 11 0), .latch]
    s.media.remote = addr 40123 ∧ (s.media.setRemote s.media.signalled).remote ≠ s.media.remote := by
  decide

end Modem2Sip.Gateway
