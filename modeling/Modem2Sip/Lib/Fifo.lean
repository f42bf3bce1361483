import Mathlib.Data.List.Basic

/-!
# Queues that lose elements

A queue takes elements in at its end and lets go of those at its front: some are handed over, others are
lost.  Whatever is lost, what was handed over are elements that came in, in their order, each of them
once, and those that are still there come behind.
-/

namespace Fifo

variable {α : Type*} {q q' q'' added added' out out' : List α}

/-- The queue `q` takes in `added`, hands over `out`, and keeps `q'`. -/
def Moves (q added out q' : List α) : Prop := (out ++ q').Sublist (q ++ added)

theorem Moves.push (q added : List α) : Moves q added [] (q ++ added) := List.Sublist.refl _

/-- The first elements are lost. -/
theorem Moves.discard (q : List α) (n : Nat) : Moves q [] [] (q.drop n) := by
  rw [Moves, List.append_nil]
  exact List.drop_sublist n q

/-- The first elements are handed over. -/
theorem Moves.pop (q : List α) (n : Nat) : Moves q [] (q.take n) (q.drop n) := by
  rw [Moves, List.append_nil, List.take_append_drop]

theorem Moves.trans (h : Moves q added out q') (h' : Moves q' added' out' q'') :
    Moves q (added ++ added') (out ++ out') q'' := by
  have hfirst : (out ++ q' ++ added').Sublist (q ++ added ++ added') := List.Sublist.append_right h added'
  have hsecond : (out ++ (out' ++ q'')).Sublist (out ++ (q' ++ added')) := List.Sublist.append_left h' out
  rw [Moves, List.append_assoc, ← List.append_assoc q]
  rw [List.append_assoc] at hfirst
  exact hsecond.trans hfirst

/-- What an empty queue has handed over came in, in this order. -/
theorem Moves.sublist (h : Moves [] added out q') : out.Sublist added :=
  (List.sublist_append_left out q').trans h

end Fifo
