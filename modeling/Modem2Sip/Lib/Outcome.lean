import Modem2Sip.Lib.Cursor

/-!
# Functions that return an error, or trap

A function that works on positions in a buffer comes to one of three ends: a value, an
error that it returns, or a trap where the program would have stopped.  `Ends x Q` says
that `x` does not trap and that its value, if it has one, satisfies `Q`; it composes
along the sequence of the calls.
-/

abbrev Outcome (ε α : Type) := ExceptT ε (Except Trap) α

namespace Outcome

variable {ε α β : Type}

/-- A value or an error, without a trap. -/
def result (r : Except ε α) : Outcome ε α := .ok r

def bail (e : ε) : Outcome ε α := result (.error e)

/-- The value or the error of a call, for a caller that does not pass the error on. -/
def attempt (x : Outcome ε α) : Outcome ε (Except ε α) := ExceptT.lift x.run

/-- The sum of two positions, in an integer type of `w` bits. -/
def plus (w a b : Nat) : Outcome ε Nat :=
  if a + b < 2 ^ w then pure (a + b) else (.error .overflow : Except Trap (Except ε Nat))

/-- `get` at an index, with the error for what is not there. -/
def get (xs : List α) (i : Nat) (e : ε) : Outcome ε α :=
  result (match xs[i]? with
    | some x => .ok x
    | none => .error e)

/-- `get` of a range. -/
def getRange (xs : List α) (a b : Nat) (e : ε) : Outcome ε (List α) :=
  result (if a ≤ b ∧ b ≤ xs.length then .ok ((xs.take b).drop a) else .error e)

/-! ## Ends -/

def Ends (x : Outcome ε α) (Q : α → Prop) : Prop := ∃ r, x = .ok r ∧ ∀ a, r = .ok a → Q a

variable {Q : α → Prop}

theorem Ends.mono {Q' : α → Prop} {x : Outcome ε α} (h : Ends x Q) (hQ : ∀ a, Q a → Q' a) :
    Ends x Q' := by
  obtain ⟨r, hr, ha⟩ := h
  exact ⟨r, hr, fun a hok ↦ hQ a (ha a hok)⟩

theorem ends_pure {a : α} (h : Q a) : Ends (pure a : Outcome ε α) Q := by
  refine ⟨.ok a, rfl, ?_⟩
  rintro b ⟨⟩
  exact h

theorem ends_bail (e : ε) : Ends (bail e : Outcome ε α) Q := by
  refine ⟨.error e, rfl, ?_⟩
  rintro a ⟨⟩

theorem Ends.attempt {P : Except ε α → Prop} {x : Outcome ε α} (h : Ends x Q)
    (hok : ∀ a, Q a → P (.ok a)) (herror : ∀ e, P (.error e)) : Ends (attempt x) P := by
  obtain ⟨r, rfl, ha⟩ := h
  cases r with
  | error e => exact ends_pure (herror e)
  | ok a => exact ends_pure (hok a (ha a rfl))

theorem Ends.bind {P : β → Prop} {x : Outcome ε α} {f : α → Outcome ε β} (h : Ends x Q)
    (hf : ∀ a, Q a → Ends (f a) P) : Ends (x >>= f) P := by
  obtain ⟨r, rfl, ha⟩ := h
  cases r with
  | error e => exact ends_bail e
  | ok a => exact hf a (ha a rfl)

theorem ends_plus {w a b : Nat} {Q : Nat → Prop} (h : a + b < 2 ^ w) (hQ : Q (a + b)) :
    Ends (plus w a b : Outcome ε Nat) Q := by
  rw [plus, if_pos h]
  exact ends_pure hQ

theorem ends_get {xs : List α} {i : Nat} (e : ε) (h : ∀ x, xs[i]? = some x → Q x) :
    Ends (get xs i e) Q := by
  unfold get
  cases hx : xs[i]? with
  | none => exact ends_bail e
  | some x => exact ends_pure (h x hx)

theorem ends_getRange {xs : List α} {a b : Nat} {Q : List α → Prop} (e : ε)
    (h : a ≤ b → b ≤ xs.length → Q ((xs.take b).drop a)) : Ends (getRange xs a b e) Q := by
  unfold getRange
  by_cases hab : a ≤ b ∧ b ≤ xs.length
  · rw [if_pos hab]
    exact ends_pure (h hab.1 hab.2)
  · rw [if_neg hab]
    exact ends_bail e

/-! ## What a value satisfies -/

/-- If there is a value, it satisfies `Q`. -/
def Yields (x : Outcome ε α) (Q : α → Prop) : Prop := ∀ a, x = .ok (.ok a) → Q a

theorem yields_any (x : Outcome ε α) : Yields x fun _ ↦ True := fun _ _ ↦ trivial

theorem yields_pure {a : α} (h : Q a) : Yields (pure a : Outcome ε α) Q := by
  rintro b ⟨⟩
  exact h

theorem Yields.bind {P : β → Prop} {x : Outcome ε α} {f : α → Outcome ε β} (h : Yields x Q)
    (hf : ∀ a, Q a → Yields (f a) P) : Yields (x >>= f) P := by
  intro b hb
  rcases x with t | e | a
  · cases hb
  · cases hb
  · exact hf a (h a rfl) b hb

/-! ## Values -/

theorem plus_eq {w a b : Nat} (h : a + b < 2 ^ w) : (plus w a b : Outcome ε Nat) = pure (a + b) :=
  if_pos h

theorem get_eq {xs : List α} {i : Nat} {x : α} (h : xs[i]? = some x) (e : ε) :
    get xs i e = pure x := by
  rw [get, h]
  rfl

/-- The range in which the second of three pieces is. -/
theorem getRange_eq {xs x t : List α} {a b : Nat} (h : xs.drop a = x ++ t) (ha : a ≤ xs.length)
    (hb : b = a + x.length) (e : ε) : getRange xs a b e = pure x := by
  subst hb
  have hlen := congrArg List.length h
  rw [List.length_drop, List.length_append] at hlen
  rw [getRange, if_pos ⟨Nat.le_add_right _ _, by omega⟩, List.drop_take, h,
    Nat.add_sub_cancel_left, List.take_left]
  rfl

end Outcome
