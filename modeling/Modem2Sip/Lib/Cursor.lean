import Mathlib.Algebra.Group.Nat.Defs
import Mathlib.Data.List.Basic
import Mathlib.Order.Nat

/-!
# Cursors over a buffer

A decoder walks over a buffer with a position into it.  `Scan α β` is such a walk:
it takes the cursor along and ends with a value, or with a `Trap` where the program
would have stopped: an index or a slice outside the buffer, a position that leaves
the range of its integer type, a loop that has run longer than there is input for.

Two judgements are built on it.  `Wp op c Q` says that `op` comes to an end at the
cursor `c` without a trap and leaves `Q`; its rules are those of weakest
preconditions.  `Reads w op x t v` says that `op` reads the bytes `x`, when `t` is
what comes after them, as the value `v`; it composes along concatenation, which is
what a round trip needs.
-/

structure Cursor (α : Type) where
  data : List α
  pos : Nat
deriving DecidableEq, Repr

/-- Why a walk over a buffer cannot go on. -/
inductive Trap where
  /-- An index or a slice that is not inside the buffer. -/
  | bounds
  /-- A position that its integer type cannot hold. -/
  | overflow
  /-- A loop with more iterations than there were elements left. -/
  | stalled
deriving DecidableEq, Repr

/-- What an iteration of a loop asks for: another one, or the end. -/
inductive LoopStep (σ β : Type) where
  | cont (s : σ)
  | done (b : β)
deriving DecidableEq, Repr

abbrev Scan (α β : Type) := StateT (Cursor α) (Except Trap) β

namespace Cursor

variable {α β γ σ : Type}

/-! ## Operations -/

def remaining (c : Cursor α) : Nat := c.data.length - c.pos

/-- The elements that are still to be read. -/
def rest (c : Cursor α) : List α := c.data.drop c.pos

def skip (c : Cursor α) (n : Nat) : Cursor α := { c with pos := c.pos + n }

def trap (t : Trap) : Scan α β := fun _ ↦ .error t

def atEnd : Scan α Bool := fun c ↦ .ok (c.data.length ≤ c.pos, c)

def left : Scan α Nat := fun c ↦ .ok (c.remaining, c)

/-- The element at the position, if there is one. -/
def peek : Scan α (Option α) := fun c ↦ .ok (c.data[c.pos]?, c)

/-- Moves the position by `n`, in an integer type of `w` bits. -/
def advance (w n : Nat) : Scan α Unit := fun c ↦
  if c.pos + n < 2 ^ w then .ok ((), c.skip n) else .error .overflow

def stepBack : Scan α Unit := fun c ↦
  if c.pos = 0 then .error .overflow else .ok ((), { c with pos := c.pos - 1 })

/-- Moves the position to `n`. -/
def seek (n : Nat) : Scan α Unit := fun c ↦ .ok ((), { c with pos := n })

/-- The elements of `xs` from `a` up to `b`. -/
def sub (xs : List α) (a b : Nat) : Scan α (List α) := fun c ↦
  if a ≤ b ∧ b ≤ xs.length then .ok ((xs.take b).drop a, c) else .error .bounds

/-- The elements from the position up to `n` further on. -/
def sliceHere (w n : Nat) : Scan α (List α) := fun c ↦
  if c.pos + n < 2 ^ w then sub c.data c.pos (c.pos + n) c else .error .overflow

/-- A walk over a buffer of its own, after which this one goes on where it was. -/
def nested (xs : List α) (op : Scan α β) : Scan α β := fun c ↦
  match op ⟨xs, 0⟩ with
  | .ok (b, _) => .ok (b, c)
  | .error t => .error t

/-- At most `n` iterations of a loop. -/
def loop (body : σ → Scan α (LoopStep σ β)) : Nat → σ → Scan α β
  | 0, _ => trap .stalled
  | n + 1, s => do
    match ← body s with
    | .cont s => loop body n s
    | .done b => pure b

/-- A loop that may take one iteration for each element left, and one more to see the end. -/
def loopHere (body : σ → Scan α (LoopStep σ β)) (s : σ) : Scan α β := fun c ↦
  loop body (c.remaining + 1) s c

/-! ## Cursors inside their buffer -/

/-- The position is inside the buffer, and the buffer is one that positions of `w` bits reach. -/
structure Valid (w : Nat) (c : Cursor α) : Prop where
  pos_le : c.pos ≤ c.data.length
  fits : c.data.length < 2 ^ w

theorem valid_start {w : Nat} {xs : List α} (h : xs.length < 2 ^ w) : Valid w ⟨xs, 0⟩ :=
  ⟨Nat.zero_le _, h⟩

/-- The second cursor is in the same buffer, no less far on and still inside. -/
structure Ahead (c c' : Cursor α) : Prop where
  data_eq : c'.data = c.data
  le : c.pos ≤ c'.pos
  pos_le : c'.pos ≤ c'.data.length

variable {w : Nat} {c c' c'' : Cursor α}

theorem Valid.ahead (h : Valid w c) : Ahead c c := ⟨rfl, le_rfl, h.pos_le⟩

theorem Ahead.valid (h : Ahead c c') (hc : Valid w c) : Valid w c' := ⟨h.pos_le, h.data_eq ▸ hc.fits⟩

theorem Ahead.trans (h : Ahead c c') (h' : Ahead c' c'') : Ahead c c'' :=
  ⟨h'.data_eq.trans h.data_eq, h.le.trans h'.le, h'.pos_le⟩

theorem Ahead.remaining_lt (h : Ahead c c') (hlt : c.pos < c'.pos) : c'.remaining < c.remaining := by
  have := h.pos_le
  rw [h.data_eq] at this
  rw [remaining, remaining, h.data_eq]
  omega

theorem ahead_skip {n : Nat} (h : c.pos + n ≤ c.data.length) : Ahead c (c.skip n) :=
  ⟨rfl, Nat.le_add_right _ _, h⟩

/-! ## Weakest preconditions -/

/-- At `c` the operation ends without a trap, in a value and a cursor that satisfy `Q`. -/
def Wp (op : Scan α β) (c : Cursor α) (Q : β → Cursor α → Prop) : Prop :=
  ∃ b c', op c = .ok (b, c') ∧ Q b c'

theorem Wp.mono {op : Scan α β} {Q Q' : β → Cursor α → Prop} (h : Wp op c Q)
    (hQ : ∀ b c', Q b c' → Q' b c') : Wp op c Q' := by
  obtain ⟨b, c', hop, hb⟩ := h
  exact ⟨b, c', hop, hQ b c' hb⟩

/-- What holds of the one end is all that holds of it. -/
theorem Wp.and {op : Scan α β} {Q Q' : β → Cursor α → Prop} (h : Wp op c Q) (h' : Wp op c Q') :
    Wp op c fun b c' ↦ Q b c' ∧ Q' b c' := by
  obtain ⟨b, c', hop, hb⟩ := h
  obtain ⟨b', c'', hop', hb'⟩ := h'
  rw [hop] at hop'
  cases hop'
  exact ⟨b, c', hop, hb, hb'⟩

@[simp] theorem wp_pure {b : β} {Q : β → Cursor α → Prop} : Wp (pure b) c Q ↔ Q b c := by
  constructor
  · rintro ⟨b', c', hop, hb⟩
    cases hop
    exact hb
  · intro hb
    exact ⟨b, c, rfl, hb⟩

/-- Two operations in a row: the second starts where the first ends. -/
theorem bind_ok {op : Scan α β} {f : β → Scan α γ} {b : β} (h : op c = .ok (b, c')) :
    (op >>= f) c = f b c' := by
  change (Except.bind (op c) fun p ↦ f p.1 p.2) = _
  rw [h]
  rfl

theorem get_bind (f : Cursor α → Scan α β) (c : Cursor α) : (get >>= f) c = f c c := rfl

theorem Wp.bind {op : Scan α β} {f : β → Scan α γ} {Q : γ → Cursor α → Prop}
    (h : Wp op c fun b c' ↦ Wp (f b) c' Q) : Wp (op >>= f) c Q := by
  obtain ⟨b, c', hop, d, c'', hf, hd⟩ := h
  exact ⟨d, c'', (bind_ok hop).trans hf, hd⟩

/-- A specification of the first operation, used for what comes after it. -/
theorem Wp.bind_of {op : Scan α β} {f : β → Scan α γ} {P : β → Cursor α → Prop}
    {Q : γ → Cursor α → Prop} (h : Wp op c P) (hf : ∀ b c', P b c' → Wp (f b) c' Q) :
    Wp (op >>= f) c Q := (h.mono hf).bind

theorem wp_atEnd {Q : Bool → Cursor α → Prop} (h : Q (decide (c.data.length ≤ c.pos)) c) :
    Wp atEnd c Q := ⟨_, _, rfl, h⟩

theorem wp_left {Q : Nat → Cursor α → Prop} (h : Q c.remaining c) : Wp left c Q := ⟨_, _, rfl, h⟩

theorem wp_peek {Q : Option α → Cursor α → Prop} (h : Q c.data[c.pos]? c) : Wp peek c Q :=
  ⟨_, _, rfl, h⟩

theorem wp_advance {n : Nat} {Q : Unit → Cursor α → Prop} (hn : c.pos + n < 2 ^ w)
    (h : Q () (c.skip n)) : Wp (advance w n) c Q := ⟨_, _, if_pos hn, h⟩

theorem wp_stepBack {Q : Unit → Cursor α → Prop} (h₀ : c.pos ≠ 0)
    (h : Q () { c with pos := c.pos - 1 }) : Wp stepBack c Q := ⟨_, _, if_neg h₀, h⟩

theorem wp_get {Q : Cursor α → Cursor α → Prop} (h : Q c c) : Wp get c Q := ⟨_, _, rfl, h⟩

theorem wp_seek {n : Nat} {Q : Unit → Cursor α → Prop} (h : Q () { c with pos := n }) :
    Wp (seek n) c Q := ⟨_, _, rfl, h⟩

theorem wp_sub {xs : List α} {a b : Nat} {Q : List α → Cursor α → Prop} (hab : a ≤ b)
    (hb : b ≤ xs.length) (h : Q ((xs.take b).drop a) c) : Wp (sub xs a b) c Q :=
  ⟨_, _, if_pos ⟨hab, hb⟩, h⟩

theorem Valid.pos_add_le {n : Nat} (hc : Valid w c) (hn : n ≤ c.remaining) :
    c.pos + n ≤ c.data.length := by
  have := hc.pos_le
  unfold remaining at hn
  omega

theorem take_rest (c : Cursor α) (n : Nat) : (c.data.take (c.pos + n)).drop c.pos = c.rest.take n := by
  rw [rest, List.drop_take]
  congr 1
  omega

theorem length_take_rest_le (c : Cursor α) (n : Nat) : (c.rest.take n).length ≤ c.data.length :=
  calc
    (c.rest.take n).length ≤ c.rest.length := List.length_take_le' _ _
    _ ≤ c.data.length := by rw [rest, List.length_drop]; exact Nat.sub_le _ _

theorem wp_sliceHere {n : Nat} {Q : List α → Cursor α → Prop} (hc : Valid w c)
    (hn : n ≤ c.remaining) (h : Q (c.rest.take n) c) : Wp (sliceHere w n) c Q := by
  have hlen := hc.pos_add_le hn
  refine ⟨c.rest.take n, c, ?_, h⟩
  rw [sliceHere, if_pos (hlen.trans_lt hc.fits), sub, if_pos ⟨Nat.le_add_right _ _, hlen⟩, take_rest]

theorem Wp.nested {xs : List α} {op : Scan α β} {Q : β → Cursor α → Prop}
    (h : Wp op ⟨xs, 0⟩ fun b _ ↦ Q b c) : Wp (nested xs op) c Q := by
  obtain ⟨b, c', hop, hb⟩ := h
  refine ⟨b, c, ?_, hb⟩
  rw [Cursor.nested, hop]

/-- The rule for loops: the invariant is kept, and every iteration that asks for another one
leaves less to read. -/
theorem Wp.loop {body : σ → Scan α (LoopStep σ β)} (Inv : σ → Cursor α → Prop)
    {Q : β → Cursor α → Prop}
    (hbody : ∀ s c, Inv s c → Wp (body s) c fun x c' ↦
      match x with
      | .cont s' => Inv s' c' ∧ c'.remaining < c.remaining
      | .done b => Q b c')
    {n : Nat} {s : σ} (hs : Inv s c) (hn : c.remaining < n) : Wp (loop body n s) c Q := by
  induction n generalizing s c with
  | zero => exact absurd hn (Nat.not_lt_zero _)
  | succ n ih =>
    refine Wp.bind_of (hbody s c hs) fun x c' hx ↦ ?_
    cases x with
    | cont s' => exact ih hx.1 (by have := hx.2; omega)
    | done b => exact wp_pure.mpr hx

theorem Wp.loopHere {body : σ → Scan α (LoopStep σ β)} (Inv : σ → Cursor α → Prop)
    {Q : β → Cursor α → Prop}
    (hbody : ∀ s c, Inv s c → Wp (body s) c fun x c' ↦
      match x with
      | .cont s' => Inv s' c' ∧ c'.remaining < c.remaining
      | .done b => Q b c')
    {s : σ} (hs : Inv s c) : Wp (loopHere body s) c Q := Wp.loop Inv hbody hs (Nat.lt_succ_self _)

/-! ## Operations that stay inside -/

/-- From wherever inside its buffer the operation starts, it ends, and inside it. -/
def Safe (w : Nat) (op : Scan α β) : Prop := ∀ c, Valid w c → Wp op c fun _ c' ↦ Ahead c c'

/-- And ends in a value that satisfies `Q` there. -/
def SafeTo (w : Nat) (Q : β → Cursor α → Prop) (op : Scan α β) : Prop :=
  ∀ c, Valid w c → Wp op c fun b c' ↦ Ahead c c' ∧ Q b c'

/-- Safe from a start with something left to read. -/
def SafeInside (w : Nat) (op : Scan α β) : Prop :=
  ∀ c, Valid w c → c.pos < c.data.length → Wp op c fun _ c' ↦ Ahead c c'

/-- With something left to read, the operation reads some of it. -/
def Consumes (w : Nat) (op : Scan α β) : Prop :=
  ∀ c, Valid w c → c.pos < c.data.length → Wp op c fun _ c' ↦ Ahead c c' ∧ c.pos < c'.pos

/-- An iteration of a loop reads something; with nothing left, it ends the loop. -/
def Progresses (w : Nat) (body : Scan α (LoopStep σ β)) : Prop :=
  ∀ c, Valid w c → Wp body c fun x c' ↦
    Ahead c c' ∧ (c.pos < c.data.length → c.pos < c'.pos) ∧ (c.data.length ≤ c.pos → ∃ b, x = .done b)

theorem Safe.inside {op : Scan α β} (h : Safe w op) : SafeInside w op := fun c hc _ ↦ h c hc

theorem Consumes.inside {op : Scan α β} (h : Consumes w op) : SafeInside w op :=
  fun c hc hlt ↦ (h c hc hlt).mono fun _ _ h ↦ h.1

theorem Safe.pure (b : β) : Safe w (pure b : Scan α β) := fun _ hc ↦ wp_pure.mpr hc.ahead

theorem Safe.bind {op : Scan α β} {f : β → Scan α γ} (h : Safe w op) (hf : ∀ b, Safe w (f b)) :
    Safe w (op >>= f) := fun c hc ↦
  Wp.bind_of (h c hc) fun b c' hb ↦ (hf b c' (hb.valid hc)).mono fun _ _ h' ↦ hb.trans h'

section SafeTo

variable {Q : β → Cursor α → Prop} {Q' : γ → Cursor α → Prop}

theorem SafeTo.safe {op : Scan α β} (h : SafeTo w Q op) : Safe w op :=
  fun c hc ↦ (h c hc).mono fun _ _ h ↦ h.1

theorem SafeTo.pure {b : β} (h : ∀ c, Q b c) : SafeTo w Q (pure b : Scan α β) :=
  fun c hc ↦ wp_pure.mpr ⟨hc.ahead, h c⟩

theorem Safe.bindTo {op : Scan α β} {f : β → Scan α γ} (h : Safe w op)
    (hf : ∀ b, SafeTo w Q' (f b)) : SafeTo w Q' (op >>= f) := fun c hc ↦
  Wp.bind_of (h c hc) fun b c' hb ↦
    (hf b c' (hb.valid hc)).mono fun _ _ h' ↦ ⟨hb.trans h'.1, h'.2⟩

theorem SafeTo.ite {p : Prop} [Decidable p] {op op' : Scan α β} (h : SafeTo w Q op)
    (h' : SafeTo w Q op') : SafeTo w Q (if p then op else op') := by
  split
  · exact h
  · exact h'

end SafeTo

theorem Safe.ite {p : Prop} [Decidable p] {op op' : Scan α β} (h : Safe w op) (h' : Safe w op') :
    Safe w (if p then op else op') := by
  split
  · exact h
  · exact h'

theorem Consumes.bind {op : Scan α β} {f : β → Scan α γ} (h : Consumes w op)
    (hf : ∀ b, Safe w (f b)) : Consumes w (op >>= f) := fun c hc hlt ↦
  Wp.bind_of (h c hc hlt) fun b c' hb ↦
    (hf b c' (hb.1.valid hc)).mono fun _ _ h' ↦ ⟨hb.1.trans h', hb.2.trans_le h'.le⟩

theorem Consumes.ite {p : Prop} [Decidable p] {op op' : Scan α β} (h : Consumes w op)
    (h' : Consumes w op') : Consumes w (if p then op else op') := by
  split
  · exact h
  · exact h'

theorem safe_atEnd : Safe w (atEnd : Scan α _) := fun _ hc ↦ wp_atEnd hc.ahead

theorem consumes_advance : Consumes w (advance w 1 : Scan α _) := fun _ hc hlt ↦
  wp_advance (Nat.lt_of_le_of_lt hlt hc.fits) ⟨ahead_skip hlt, Nat.lt_succ_self _⟩

/-- A decision on the next element: where there is one, the branch has something to read. -/
theorem Safe.peek_bind {f : Option α → Scan α β} (hnone : Safe w (f none))
    (hsome : ∀ a, SafeInside w (f (some a))) : Safe w (peek >>= f) := by
  intro c hc
  refine (wp_peek ?_).bind
  cases h : c.data[c.pos]? with
  | none => exact hnone c hc
  | some a => exact hsome a c hc (List.getElem?_eq_some_iff.mp h).1

theorem SafeInside.peek_bind {f : Option α → Scan α β} (hsome : ∀ a, SafeInside w (f (some a))) :
    SafeInside w (peek >>= f) := by
  intro c hc hlt
  refine (wp_peek ?_).bind
  rw [List.getElem?_eq_getElem hlt]
  exact hsome _ c hc hlt

theorem Consumes.peek_bind {f : Option α → Scan α β} (hsome : ∀ a, Consumes w (f (some a))) :
    Consumes w (peek >>= f) := by
  intro c hc hlt
  refine (wp_peek ?_).bind
  rw [List.getElem?_eq_getElem hlt]
  exact hsome _ c hc hlt

theorem Safe.nested {xs : List α} {op : Scan α β} (h : Safe w op) (hxs : xs.length < 2 ^ w) :
    Safe w (nested xs op) := fun _ hc ↦ ((h _ (valid_start hxs)).mono fun _ _ _ ↦ hc.ahead).nested

/-- A loop that looks for the end of the buffer first. -/
theorem Consumes.progresses {op : Scan α (LoopStep σ β)} (h : Consumes w op) (b : β) :
    Progresses w (atEnd >>= fun e ↦ if e then Pure.pure (.done b) else op) := by
  intro c hc
  refine (wp_atEnd ?_).bind
  by_cases hlt : c.pos < c.data.length
  · rw [decide_eq_false (Nat.not_le_of_lt hlt)]
    exact (h c hc hlt).mono fun _ _ hx ↦
      ⟨hx.1, fun _ ↦ hx.2, fun hle ↦ absurd hlt (Nat.not_lt_of_le hle)⟩
  · rw [decide_eq_true (Nat.le_of_not_lt hlt)]
    exact wp_pure.mpr ⟨hc.ahead, fun h ↦ absurd h hlt, fun _ ↦ ⟨b, rfl⟩⟩

/-- A loop with progress in every iteration comes to its end. -/
theorem Safe.loopHere {body : σ → Scan α (LoopStep σ β)} (h : ∀ s, Progresses w (body s)) (s : σ) :
    Safe w (loopHere body s) := by
  intro c hc
  refine Wp.loopHere (fun _ c' ↦ Ahead c c') (fun s c' hc' ↦ ?_) hc.ahead
  refine (h s c' (hc'.valid hc)).mono fun x c'' hx ↦ ?_
  cases x with
  | done b => exact hc'.trans hx.1
  | cont s' =>
    refine ⟨hc'.trans hx.1, hx.1.remaining_lt (hx.2.1 (Nat.lt_of_not_le fun hle ↦ ?_))⟩
    obtain ⟨b, hb⟩ := hx.2.2 hle
    cases hb

/-! ## Reading back what was written -/

/-- At position `p`, with `x` before `t` ahead, the operation reads `x` and ends in `v`. -/
def ReadsAt (w p : Nat) (op : Scan α β) (x t : List α) (v : β) : Prop :=
  ∀ c : Cursor α, Valid w c → c.pos = p → c.rest = x ++ t → op c = .ok (v, c.skip x.length)

/-- The same wherever the operation starts. -/
def Reads (w : Nat) (op : Scan α β) (x t : List α) (v : β) : Prop := ∀ p, ReadsAt w p op x t v

section Reads

variable {p : Nat} {x y t : List α}

theorem rest_skip (n : Nat) : (c.skip n).rest = c.rest.drop n := by
  rw [rest, rest, skip, List.drop_drop]

theorem length_rest : c.rest.length = c.remaining := List.length_drop

theorem pos_add_length_le (hc : Valid w c) (h : c.rest = x ++ t) :
    c.pos + x.length ≤ c.data.length := by
  refine hc.pos_add_le ?_
  rw [← length_rest, h, List.length_append]
  exact Nat.le_add_right _ _

theorem Valid.skip (hc : Valid w c) (h : c.rest = x ++ t) : Valid w (c.skip x.length) :=
  ⟨pos_add_length_le hc h, hc.fits⟩

theorem rest_skip_append (h : c.rest = x ++ t) : (c.skip x.length).rest = t := by
  rw [rest_skip, h, List.drop_left]

theorem getElem?_pos {a : α} (h : c.rest = a :: t) : c.data[c.pos]? = some a := by
  rw [← List.head?_drop]
  exact congrArg List.head? h

theorem ReadsAt.bind {op : Scan α β} {f : β → Scan α γ} {b : β} {v : γ}
    (h : ReadsAt w p op x (y ++ t) b) (hf : ReadsAt w (p + x.length) (f b) y t v) :
    ReadsAt w p (op >>= f) (x ++ y) t v := by
  intro c hc hp hrest
  rw [List.append_assoc] at hrest
  have hpos : (c.skip x.length).pos = p + x.length := congrArg (· + x.length) hp
  rw [bind_ok (h c hc hp hrest), hf _ (hc.skip hrest) hpos (rest_skip_append hrest), skip, skip,
    List.length_append, Nat.add_assoc]
  rfl

theorem Reads.pure (b : β) (t : List α) : Reads w (pure b : Scan α β) [] t b :=
  fun _ _ _ _ _ ↦ rfl

theorem Reads.bind {op : Scan α β} {f : β → Scan α γ} {b : β} {v : γ}
    (h : Reads w op x (y ++ t) b) (hf : Reads w (f b) y t v) : Reads w (op >>= f) (x ++ y) t v :=
  fun p ↦ (h p).bind (hf _)

/-- The first operation reads everything. -/
theorem Reads.bind_left {op : Scan α β} {f : β → Scan α γ} {b : β} {v : γ}
    (h : Reads w op x t b) (hf : Reads w (f b) [] t v) : Reads w (op >>= f) x t v := by
  have := Reads.bind (y := []) h hf
  rwa [List.append_nil] at this

/-- The first operation only looks. -/
theorem Reads.bind_right {op : Scan α β} {f : β → Scan α γ} {b : β} {v : γ}
    (h : Reads w op [] (x ++ t) b) (hf : Reads w (f b) x t v) : Reads w (op >>= f) x t v :=
  Reads.bind h hf

/-- A decision on the next element. -/
theorem ReadsAt.peek_bind {a : α} {f : Option α → Scan α β} {v : β}
    (h : ReadsAt w p (f (some a)) (a :: x) t v) : ReadsAt w p (peek >>= f) (a :: x) t v := by
  refine ReadsAt.bind (x := []) (b := some a) (fun c _ _ hrest ↦ ?_) h
  rw [peek, getElem?_pos hrest]
  rfl

theorem Reads.peek_bind {a : α} {f : Option α → Scan α β} {v : β}
    (h : Reads w (f (some a)) (a :: x) t v) : Reads w (peek >>= f) (a :: x) t v :=
  fun p ↦ (h p).peek_bind

/-- A loop body that looks for the end of the buffer first, before the end. -/
theorem ReadsAt.atEnd_bind {op k : Scan α β} {v : β} (hx : x ≠ []) (h : ReadsAt w p op x t v) :
    ReadsAt w p (atEnd >>= fun e ↦ if e then k else op) x t v := by
  refine ReadsAt.bind (x := []) (b := false) (fun c _ _ hrest ↦ ?_) h
  have hlen := congrArg List.length hrest
  have hpos := List.length_pos_of_ne_nil hx
  rw [length_rest, remaining, List.nil_append, List.length_append] at hlen
  rw [atEnd, decide_eq_false (by omega)]
  rfl

theorem Reads.atEnd_bind {op k : Scan α β} {v : β} (hx : x ≠ []) (h : Reads w op x t v) :
    Reads w (atEnd >>= fun e ↦ if e then k else op) x t v := fun p ↦ (h p).atEnd_bind hx

/-- And at the end. -/
theorem Reads.atEnd_bind_end {op k : Scan α β} {v : β} (h : Reads w k [] [] v) :
    Reads w (atEnd >>= fun e ↦ if e then k else op) [] [] v := by
  refine Reads.bind_right (b := true) (fun p c _ _ hrest ↦ ?_) h
  have hlen := congrArg List.length hrest
  rw [length_rest, remaining, List.length_append] at hlen
  rw [atEnd, decide_eq_true (by simp at hlen; omega)]
  rfl

theorem reads_left (t : List α) : Reads w left [] t t.length := by
  intro p c _ _ hrest
  rw [left, ← length_rest, hrest]
  rfl

theorem reads_advance (x t : List α) : Reads w (advance w x.length) x t () :=
  fun _ _ hc _ hrest ↦ if_pos ((pos_add_length_le hc hrest).trans_lt hc.fits)

theorem reads_sliceHere (x t : List α) : Reads w (sliceHere w x.length) [] (x ++ t) x := by
  intro p c hc _ hrest
  have hlen : x.length ≤ c.remaining := by
    rw [← length_rest, hrest]
    simp
  obtain ⟨_, _, hop, rfl, rfl⟩ :=
    wp_sliceHere (Q := fun b c' ↦ b = x ∧ c' = c) hc hlen ⟨by rw [hrest]; simp, rfl⟩
  exact hop

/-- In a buffer of its own, what an operation reads is read from the start to its end. -/
theorem Reads.start {op : Scan α β} {v : β} (h : Reads w op x [] v) (hx : x.length < 2 ^ w) :
    op ⟨x, 0⟩ = .ok (v, ⟨x, x.length⟩) := by
  have hop := h 0 ⟨x, 0⟩ (valid_start hx) rfl (by simp [rest])
  rwa [skip, Nat.zero_add] at hop

/-- What is read has one value. -/
theorem Reads.unique {op : Scan α β} {v v' : β} (h : Reads w op x [] v) (h' : Reads w op x [] v')
    (hx : x.length < 2 ^ w) : v = v' := by
  have hop := (h.start hx).symm.trans (h'.start hx)
  exact (Prod.mk.inj (Except.ok.inj hop)).1

/-- With the buffer `x` to itself, the operation ends in `v`, wherever it stops. -/
def Gives (op : Scan α β) (x : List α) (v : β) : Prop := ∃ c, op ⟨x, 0⟩ = .ok (v, c)

theorem Reads.gives {op : Scan α β} {v : β} (h : Reads w op x [] v) (hx : x.length < 2 ^ w) :
    Gives op x v := ⟨_, h.start hx⟩

theorem Safe.gives {op : Scan α β} (h : Safe w op) (hx : x.length < 2 ^ w) : ∃ v, Gives op x v := by
  obtain ⟨v, c, hop, -⟩ := h _ (valid_start hx)
  exact ⟨v, c, hop⟩

/-- From the start of its buffer, the operation ends where what it reads ends. -/
theorem Reads.start_append {op : Scan α β} {b : β} (h : Reads w op x y b)
    (hx : (x ++ y).length < 2 ^ w) :
    op ⟨x ++ y, 0⟩ = .ok (b, Cursor.skip ⟨x ++ y, 0⟩ x.length) ∧
      Valid w (Cursor.skip ⟨x ++ y, 0⟩ x.length) :=
  ⟨h 0 _ (valid_start hx) rfl rfl, (valid_start hx).skip (t := y) rfl⟩

theorem Gives.nested {op : Scan α β} {v : β} (h : Gives op x v) : Reads w (nested x op) [] t v := by
  intro p c _ _ _
  obtain ⟨c', hop⟩ := h
  rw [Cursor.nested, hop]
  rfl

/-! ### Buffers that were cut off -/

/-- A beginning of two lists in a row ends in the first or has all of it. -/
theorem prefix_append_cases {p a b : List α} (h : p <+: a ++ b) :
    p <+: a ∧ p ≠ a ∨ ∃ q, p = a ++ q ∧ q <+: b := by
  rcases List.prefix_or_prefix_of_prefix h (List.prefix_append a b) with hp | ⟨q, rfl⟩
  · by_cases heq : p = a
    · exact .inr ⟨[], by rw [heq, List.append_nil], List.nil_prefix⟩
    · exact .inl ⟨hp, heq⟩
  · exact .inr ⟨q, rfl, (List.prefix_append_right_inj a).mp h⟩

/-- Where the buffer ends before all of `x`, the operation ends in `v`. -/
def Lacks (w : Nat) (op : Scan α β) (x : List α) (v : β) : Prop :=
  ∀ c, Valid w c → c.rest <+: x → c.rest ≠ x → Wp op c fun b _ ↦ b = v

theorem Lacks.pure (x : List α) (v : β) : Lacks w (pure v : Scan α β) x v :=
  fun _ _ _ _ ↦ wp_pure.mpr rfl

theorem Lacks.bind_left {op : Scan α β} {f : β → Scan α γ} {a : β} {v : γ}
    (hlacks : Lacks w op x a) (ha : ∀ c, Wp (f a) c fun d _ ↦ d = v) : Lacks w (op >>= f) x v := by
  intro c hc hp hne
  refine Wp.bind_of (hlacks c hc hp hne) ?_
  rintro d c' rfl
  exact ha c'

/-- The buffer ends in what the first operation reads, or in what comes after it. -/
theorem Lacks.bind {op : Scan α β} {f : β → Scan α γ} {a b : β} {v : γ}
    (hlacks : Lacks w op x a) (ha : ∀ c, Wp (f a) c fun d _ ↦ d = v)
    (hreads : ∀ t, Reads w op x t b) (hf : Lacks w (f b) y v) : Lacks w (op >>= f) (x ++ y) v := by
  intro c hc hp hne
  rcases prefix_append_cases hp with ⟨hx, hcut⟩ | ⟨q, hq, hy⟩
  · exact hlacks.bind_left ha c hc hx hcut
  · have hrest : (c.skip x.length).rest = q := rest_skip_append hq
    obtain ⟨d, c', hop, rfl⟩ := hf _ (hc.skip hq) (hrest ▸ hy) fun h ↦ hne (by rw [hq, ← hrest, h])
    exact ⟨d, c', (bind_ok (hreads q c.pos c hc rfl hq)).trans hop, rfl⟩

/-! ### Loops -/

/-- The loop reads `x`, with as many iterations as `x` can need. -/
def ReadsLoop (w p : Nat) (body : σ → Scan α (LoopStep σ β)) (s : σ) (x t : List α) (v : β) : Prop :=
  ∀ n, x.length < n → ReadsAt w p (loop body n s) x t v

variable {body : σ → Scan α (LoopStep σ β)} {s s' : σ} {v : β}

theorem ReadsLoop.done (h : ReadsAt w p (body s) x t (.done v)) : ReadsLoop w p body s x t v := by
  intro n hn
  obtain ⟨n, rfl⟩ := Nat.exists_eq_succ_of_ne_zero (Nat.ne_zero_of_lt hn)
  have := ReadsAt.bind (y := []) (f := fun f : LoopStep σ β ↦ match f with
    | .cont s => loop body n s
    | .done b => Pure.pure b) (v := v) (by rwa [List.nil_append]) (Reads.pure v t _)
  rwa [List.append_nil] at this

theorem ReadsLoop.cont (hx : x ≠ []) (h : ReadsAt w p (body s) x (y ++ t) (.cont s'))
    (hloop : ReadsLoop w (p + x.length) body s' y t v) : ReadsLoop w p body s (x ++ y) t v := by
  intro n hn
  have hpos := List.length_pos_of_ne_nil hx
  rw [List.length_append] at hn
  obtain ⟨n, rfl⟩ := Nat.exists_eq_succ_of_ne_zero (Nat.ne_zero_of_lt hn)
  exact ReadsAt.bind h (hloop n (by omega))

/-- Any number of iterations, each of which reads one item. -/
theorem ReadsLoop.items {ι : Type} {enc : ι → List α} {g : σ → ι → σ} {items : List ι}
    (hne : ∀ i ∈ items, enc i ≠ [])
    (hbody : ∀ i ∈ items, ∀ s t, Reads w (body s) (enc i) t (.cont (g s i)))
    (hloop : ∀ p, ReadsLoop w p body (items.foldl g s) y t v) :
    ReadsLoop w p body s (items.flatMap enc ++ y) t v := by
  induction items generalizing s p with
  | nil => exact hloop p
  | cons i items ih =>
    rw [List.flatMap_cons, List.append_assoc]
    refine ReadsLoop.cont (hne i List.mem_cons_self) (hbody i List.mem_cons_self s _ p) ?_
    exact ih (fun j hj ↦ hne j (List.mem_cons_of_mem _ hj))
      (fun j hj ↦ hbody j (List.mem_cons_of_mem _ hj)) hloop

theorem ReadsLoop.here (h : ReadsLoop w p body s x t v) : ReadsAt w p (loopHere body s) x t v := by
  intro c hc hp hrest
  refine h (c.remaining + 1) ?_ c hc hp hrest
  rw [← length_rest, hrest, List.length_append]
  omega

end Reads

end Cursor
