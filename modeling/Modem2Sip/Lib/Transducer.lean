import Mathlib.Data.List.Basic

/-!
# Processing a sequence in pieces

A transducer takes a piece of its input at a time, and carries a state from one piece to the next.  When
two pieces one after the other give what they give in one, it does not matter how the input is cut.
-/

universe u v w

namespace Transducer

variable {S : Type u} {α : Type v} {β : Type w} {f : S → List α → Option (List β × S)} {Inv : S → Prop}

/-- One piece after the other, with the outputs put together. -/
def feed (f : S → List α → Option (List β × S)) : S → List (List α) → Option (List β × S)
  | s, [] => some ([], s)
  | s, piece :: pieces => do
    let (out, s) ← f s piece
    let (outs, s) ← feed f s pieces
    return (out ++ outs, s)

/-- From every state that satisfies the invariant, the transducer gives a result, and pieces of the input
may be put together. -/
structure Streaming (f : S → List α → Option (List β × S)) (Inv : S → Prop) : Prop where
  nil : ∀ s, Inv s → f s [] = some ([], s)
  total : ∀ s xs, Inv s → ∃ out s', f s xs = some (out, s') ∧ Inv s'
  append : ∀ s xs out s' ys out' s'', Inv s → f s xs = some (out, s') → f s' ys = some (out', s'') →
    f s (xs ++ ys) = some (out ++ out', s'')

/-- However the input is cut into pieces, the result is that of the whole. -/
theorem Streaming.feed_eq (hf : Streaming f Inv) {s : S} (hs : Inv s) (pieces : List (List α)) :
    feed f s pieces = f s pieces.flatten := by
  induction pieces generalizing s with
  | nil => exact (hf.nil s hs).symm
  | cons piece pieces ih =>
    obtain ⟨out, s', hfirst, hs'⟩ := hf.total s piece hs
    obtain ⟨outs, s'', hrest, -⟩ := hf.total s' pieces.flatten hs'
    have hwhole := hf.append s piece out s' pieces.flatten outs s'' hs hfirst hrest
    rw [feed, hfirst, List.flatten_cons, hwhole]
    change ((feed f s' pieces).bind fun r ↦ some (out ++ r.1, r.2)) = _
    rw [ih hs', hrest]
    rfl

end Transducer
