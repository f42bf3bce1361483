import Mathlib.Algebra.GroupWithZero.Nat
import Modem2Sip.Mms.Dns

/-!
# Walks over the names of a datagram

A compression pointer may lead anywhere, also backwards and to itself, so the position
of the walk is no measure for it.  Between two pointers it is, and there are no more
than 16 of these: the number of pointers that are left and the distance to the end
bound the walk together.  What is read is a `Walk`: passes over the message, one more
than there are pointers, each of which goes only forward.
-/

namespace Modem2Sip.Mms.Dns

open Outcome Text Media

/-- A slice of bytes on a machine with addresses of `w` bits. -/
structure IsSlice (w : Nat) (msg : List UInt8) : Prop where
  width : 32 ≤ w
  length_lt : msg.length < 2 ^ (w - 1)

variable {w : Nat} {msg : List UInt8}

/-- A position that is not further behind the end than a record is long does not overflow. -/
theorem IsSlice.lt (h : IsSlice w msg) {n : Nat} (hn : n ≤ msg.length + 2 ^ 16) : n < 2 ^ w := by
  obtain ⟨k, rfl⟩ := Nat.exists_eq_add_of_le h.width
  have hlen := h.length_lt
  rw [show 32 + k - 1 = 31 + k by omega, Nat.pow_add] at hlen
  rw [show 32 + k = 1 + (31 + k) by omega, Nat.pow_add, Nat.pow_add]
  have hpos : 0 < 2 ^ k := Nat.two_pow_pos k
  omega

/-- The passes of a walk from `pos`, each with its labels. -/
inductive Walk (msg : List UInt8) : Nat → List (List (List UInt8)) → Prop
  | stop {pos : Nat} (h : msg[pos]? = some 0) : Walk msg pos [[]]
  | jump {pos : Nat} {len lo : UInt8} {passes : List (List (List UInt8))}
      (hlen : msg[pos]? = some len) (hne : len ≠ 0) (hptr : IsPointer len)
      (hlo : msg[pos + 1]? = some lo) (h : Walk msg (target len lo) passes) :
      Walk msg pos ([] :: passes)
  | label {pos : Nat} {len : UInt8} {labels : List (List UInt8)} {passes : List (List (List UInt8))}
      (hlen : msg[pos]? = some len) (hne : len ≠ 0) (hptr : ¬ IsPointer len)
      (hle : pos + 1 + len.toNat ≤ msg.length)
      (h : Walk msg (pos + 1 + len.toNat) (labels :: passes)) :
      Walk msg pos ((((msg.take (pos + 1 + len.toNat)).drop (pos + 1)) :: labels) :: passes)

/-- The labels of the first pass are one after the other, from the start of the walk on. -/
theorem Walk.first_le {pos : Nat} {passes : List (List (List UInt8))} (h : Walk msg pos passes) :
    ∀ labels ∈ passes.head?, pos + (labels.map fun l ↦ 1 + l.length).sum ≤ msg.length := by
  have hlt {pos : Nat} {len : UInt8} (hlen : msg[pos]? = some len) : pos < msg.length :=
    (List.getElem?_eq_some_iff.mp hlen).1
  induction h with
  | stop h =>
    rintro labels ⟨⟩
    exact Nat.le_of_lt (hlt h)
  | jump hlen _ _ _ _ _ =>
    rintro labels ⟨⟩
    exact Nat.le_of_lt (hlt hlen)
  | label hlen _ _ hle _ ih =>
    rintro labels ⟨⟩
    have := ih _ rfl
    rw [List.map_cons, List.sum_cons, List.length_drop, List.length_take]
    omega

/-- A pass reads no byte twice. -/
theorem Walk.pass_le {pos : Nat} {passes : List (List (List UInt8))} (h : Walk msg pos passes) :
    ∀ labels ∈ passes, (labels.map fun l ↦ 1 + l.length).sum ≤ msg.length := by
  have hhead {pos : Nat} {labels : List (List UInt8)} {passes : List (List (List UInt8))}
      (h : Walk msg pos (labels :: passes)) :
      (labels.map fun l ↦ 1 + l.length).sum ≤ msg.length :=
    (Nat.le_add_left _ _).trans (h.first_le labels rfl)
  induction h with
  | stop h =>
    intro labels hmem
    obtain rfl := List.mem_singleton.mp hmem
    exact Nat.zero_le _
  | jump _ _ _ _ _ ih =>
    intro labels hmem
    rcases List.mem_cons.mp hmem with rfl | hmem
    · exact Nat.zero_le _
    · exact ih labels hmem
  | label hlen hne hptr hle h ih =>
    intro labels hmem
    rcases List.mem_cons.mp hmem with rfl | hmem
    · exact hhead (.label hlen hne hptr hle h)
    · exact ih labels (List.mem_cons_of_mem _ hmem)

/-! ## One name -/

theorem ends_skipLabels (h : IsSlice w msg) (n pos : Nat) :
    Ends (skipLabels w msg n pos) fun after ↦ after ≤ msg.length + 1 := by
  induction n generalizing pos with
  | zero => exact ends_bail _
  | succ n ih =>
    refine (ends_get (Q := fun _ ↦ pos < msg.length) _ fun len hlen ↦ ?_).bind fun len hpos ↦ ?_
    · exact (List.getElem?_eq_some_iff.mp hlen).1
    · have hlen : len.toNat < 2 ^ 8 := len.toNat_lt
      split
      · exact ends_plus (h.lt (by omega)) (by omega)
      · split
        · exact ends_plus (h.lt (by omega)) (by omega)
        · exact (ends_plus (Q := fun _ ↦ True) (h.lt (by omega)) trivial).bind fun pos' _ ↦ ih pos'

/-- What an iteration of `read_name` does. -/
inductive Move (msg : List UInt8) (s : Walker) : LoopStep Walker Str → Prop
  | stop (h : msg[s.pos]? = some 0) : Move msg s (.done s.out)
  | jump {len lo : UInt8} (hlen : msg[s.pos]? = some len) (hne : len ≠ 0) (hptr : IsPointer len)
      (hlo : msg[s.pos + 1]? = some lo) (hhops : s.hops < 16) :
      Move msg s (.cont { s with pos := target len lo, hops := s.hops + 1 })
  | label {len : UInt8} (hlen : msg[s.pos]? = some len) (hne : len ≠ 0) (hptr : ¬ IsPointer len)
      (hle : s.pos + 1 + len.toNat ≤ msg.length) :
      Move msg s (.cont { s with
        pos := s.pos + 1 + len.toNat
        out := pushLabel s.out ((msg.take (s.pos + 1 + len.toNat)).drop (s.pos + 1)) })

theorem ends_readStep (h : IsSlice w msg) (s : Walker) : Ends (readStep w msg s) (Move msg s) := by
  refine (ends_get _ fun len hlen ↦ hlen).bind fun len hlen ↦ ?_
  have hpos : s.pos < msg.length := (List.getElem?_eq_some_iff.mp hlen).1
  have hbyte : len.toNat < 2 ^ 8 := len.toNat_lt
  by_cases hzero : len = 0
  · rw [if_pos hzero]
    subst hzero
    exact ends_pure (.stop hlen)
  rw [if_neg hzero]
  by_cases hptr : IsPointer len
  · rw [if_pos hptr]
    refine (ends_plus (Q := (· = s.pos + 1)) (h.lt (by omega)) rfl).bind ?_
    rintro _ rfl
    refine (ends_get _ fun lo hlo ↦ hlo).bind fun lo hlo ↦ ?_
    by_cases hhops : 16 < s.hops + 1
    · rw [if_pos hhops]
      exact ends_bail _
    · rw [if_neg hhops]
      exact ends_pure (.jump hlen hzero hptr hlo (by omega))
  · rw [if_neg hptr]
    refine (ends_plus (Q := (· = s.pos + 1)) (h.lt (by omega)) rfl).bind ?_
    rintro _ rfl
    refine (ends_plus (Q := (· = s.pos + 1 + len.toNat)) (h.lt (by omega)) rfl).bind ?_
    rintro _ rfl
    refine (ends_getRange (Q := fun label ↦ s.pos + 1 + len.toNat ≤ msg.length ∧
      label = (msg.take (s.pos + 1 + len.toNat)).drop (s.pos + 1)) _ fun _ hle ↦ ⟨hle, rfl⟩).bind ?_
    rintro _ ⟨hle, rfl⟩
    exact ends_pure (.label hlen hzero hptr hle)

/-- The measure of a walk: the pointers that are left, and the distance to the end. -/
def Walker.left (msg : List UInt8) (s : Walker) : Nat :=
  (16 - s.hops) * (msg.length + 1) + (msg.length - s.pos)

section Measure

variable {n pos pos' hops : Nat} {out out' : Str}

theorem Walker.left_start (msg : List UInt8) (pos : Nat) :
    Walker.left msg ⟨pos, [], 0⟩ < 17 * (msg.length + 1) := by
  unfold left
  dsimp only
  omega

theorem Walker.left_jump (hhops : hops < 16) (hn : left msg ⟨pos, out, hops⟩ < n + 1) :
    left msg ⟨pos', out', hops + 1⟩ < n := by
  unfold left at hn ⊢
  dsimp only at hn ⊢
  rw [show 16 - hops = 16 - (hops + 1) + 1 by omega, Nat.add_mul] at hn
  omega

theorem Walker.left_label {len : Nat} (hpos : pos < msg.length)
    (hn : left msg ⟨pos, out, hops⟩ < n + 1) : left msg ⟨pos + 1 + len, out', hops⟩ < n := by
  unfold left at hn ⊢
  dsimp only at hn ⊢
  omega

end Measure

theorem ends_readLabels (h : IsSlice w msg) {n : Nat} {s : Walker} (hn : s.left msg < n)
    (hhops : s.hops ≤ 16) :
    Ends (readLabels w msg n s) fun name ↦ ∃ passes, Walk msg s.pos passes ∧
      passes.length + s.hops ≤ 17 ∧ name = passes.flatten.foldl pushLabel s.out := by
  induction n generalizing s with
  | zero => exact absurd hn (Nat.not_lt_zero _)
  | succ n ih =>
    refine (ends_readStep h s).bind fun r hr ↦ ?_
    cases hr with
    | stop hstop =>
      exact ends_pure ⟨[[]], .stop hstop, by rw [List.length_singleton]; omega, rfl⟩
    | jump hlen hne hptr hlo hlt =>
      refine (ih (Walker.left_jump hlt hn) (Nat.succ_le_of_lt hlt)).mono ?_
      rintro name ⟨passes, hwalk, hpasses, rfl⟩
      refine ⟨[] :: passes, .jump hlen hne hptr hlo hwalk, ?_, rfl⟩
      rw [List.length_cons]
      dsimp only at hpasses
      omega
    | label hlen hne hptr hle =>
      refine (ih (Walker.left_label (List.getElem?_eq_some_iff.mp hlen).1 hn) hhops).mono ?_
      rintro name ⟨passes, hwalk, hpasses, rfl⟩
      cases passes with
      | nil => cases hwalk
      | cons labels passes =>
        exact ⟨_, .label hlen hne hptr hle hwalk, hpasses, rfl⟩

theorem ends_readName (h : IsSlice w msg) (pos : Nat) :
    Ends (readName w msg pos) fun name ↦ ∃ passes, Walk msg pos passes ∧
      passes.length ≤ 17 ∧ name = passes.flatten.foldl pushLabel [] :=
  ends_readLabels h (Walker.left_start msg pos) (Nat.zero_le _)

/-! ## The datagram -/

theorem word_of_lt {i : Nat} (h : i + 1 < msg.length) :
    word msg i = .ok (fromBe16 msg[i] msg[i + 1]) := by
  rw [word, byteAt_of_lt (by omega), byteAt_of_lt h]
  rfl

theorem fromBe16_lt (a b : UInt8) : fromBe16 a b < 2 ^ 16 := by
  have ha : a.toNat < 2 ^ 8 := a.toNat_lt
  have hb : b.toNat < 2 ^ 8 := b.toNat_lt
  rw [fromBe16]
  omega

theorem ends_word {i : Nat} (h : i + 1 < msg.length) :
    Ends (liftM (word msg i) : Result Nat) (· < 2 ^ 16) := by
  rw [word_of_lt h]
  exact ends_pure (fromBe16_lt _ _)

theorem echoes_total (h : IsSlice w msg) (host : Str) (qtype : Nat) :
    ∃ b, echoes w msg host qtype = .ok b := by
  obtain ⟨name, hname, -⟩ := ends_readName h 12
  obtain ⟨after, hafter, hle⟩ := ends_skipLabels h 128 12
  unfold echoes
  rw [show (readName w msg 12).run = .ok name from hname,
    show (skipName w msg 12).run = .ok after from hafter]
  cases name with
  | error e => exact ⟨_, rfl⟩
  | ok name =>
    cases after with
    | error e => exact ⟨_, rfl⟩
    | ok after =>
      have hle := hle after rfl
      change ∃ b, (if after + 4 < 2 ^ w then _ else _) = _
      rw [if_pos (h.lt (by omega))]
      split
      · rename_i hin
        have hlen : ((msg.take (after + 4)).drop after).length = 4 := by
          rw [List.length_drop, List.length_take]
          omega
        dsimp only
        rw [word_of_lt (by omega), word_of_lt (by omega)]
        exact ⟨_, rfl⟩
      · exact ⟨_, rfl⟩

theorem classify_total (h : IsSlice w msg) (wantId : Nat) (host : Str) (qtype : Nat) :
    ∃ r, classify w msg wantId host qtype = .ok r := by
  unfold classify
  split
  · exact ⟨_, rfl⟩
  · rename_i hlen
    obtain ⟨echoed, hechoed⟩ := echoes_total h host qtype
    rw [word_of_lt (by omega), word_of_lt (by omega), word_of_lt (by omega), hechoed]
    dsimp only [bind, Except.bind, pure, Except.pure]
    split
    · exact ⟨_, rfl⟩
    · split
      · exact ⟨_, rfl⟩
      · split <;> split <;> exact ⟨_, rfl⟩

theorem ends_skipQuestions (h : IsSlice w msg) (n : Nat) {pos : Nat} :
    Ends (skipQuestions w msg n pos) fun _ ↦ True := by
  induction n generalizing pos with
  | zero => exact ends_pure trivial
  | succ n ih =>
    refine (ends_skipLabels h 128 pos).bind fun after hle ↦ ?_
    exact (ends_plus (Q := fun _ ↦ True) (h.lt (by omega)) trivial).bind fun _ _ ↦ ih

theorem ends_addRecord (h : IsSlice w msg) (qtype rtype pos : Nat) (rdata : List UInt8)
    (answer : Answer) : Ends (addRecord w msg qtype rtype pos rdata answer) fun _ ↦ True := by
  unfold addRecord
  split
  · rename_i ha
    dsimp only
    rw [byteAt_of_lt (by omega), byteAt_of_lt (by omega), byteAt_of_lt (by omega),
      byteAt_of_lt (by omega)]
    exact ends_pure trivial
  · split
    · exact ends_pure trivial
    · split
      · refine Ends.bind (Q := fun _ ↦ True) ?_ fun name _ ↦ ?_
        · exact (ends_readName h pos).attempt (fun _ _ ↦ trivial) fun _ ↦ trivial
        · cases name <;> exact ends_pure trivial
      · exact ends_pure trivial

theorem ends_readRecords (h : IsSlice w msg) (qtype n : Nat) {pos : Nat} {answer : Answer} :
    Ends (readRecords w msg qtype n pos answer) fun _ ↦ True := by
  induction n generalizing pos answer with
  | zero => exact ends_pure trivial
  | succ n ih =>
    refine (ends_skipLabels h 128 pos).bind fun after hle ↦ ?_
    refine (ends_plus (Q := (· = after + 10)) (h.lt (by omega)) rfl).bind ?_
    rintro _ rfl
    refine (ends_getRange (Q := fun header ↦ header.length = 10 ∧ after + 10 ≤ msg.length) _
      fun _ hle ↦ ⟨?_, hle⟩).bind fun header hheader ↦ ?_
    · rw [List.length_drop, List.length_take]
      omega
    refine (ends_word (by omega)).bind fun rtype _ ↦ ?_
    refine (ends_word (by omega)).bind fun rdlen hrdlen ↦ ?_
    refine (ends_plus (Q := fun _ ↦ True) (h.lt (by omega)) trivial).bind fun last _ ↦ ?_
    refine (ends_getRange (Q := fun _ ↦ True) _ fun _ _ ↦ trivial).bind fun rdata _ ↦ ?_
    exact (ends_addRecord h qtype rtype _ rdata answer).bind fun _ _ ↦ ih

theorem ends_parseAnswer (h : IsSlice w msg) (wantId qtype : Nat) :
    Ends (parseAnswer w msg wantId qtype) fun _ ↦ True := by
  unfold parseAnswer
  split
  · exact ends_bail _
  · refine (ends_word (by omega)).bind fun id _ ↦ ?_
    refine (ends_word (by omega)).bind fun flags _ ↦ ?_
    refine Ends.bind (Q := fun _ ↦ True) ⟨_, rfl, fun _ _ ↦ trivial⟩ fun _ _ ↦ ?_
    refine (ends_word (by omega)).bind fun qdcount _ ↦ ?_
    refine (ends_word (by omega)).bind fun ancount _ ↦ ?_
    exact (ends_skipQuestions h qdcount).bind fun pos _ ↦ ends_readRecords h qtype ancount

/-- Whatever the datagram, none of the functions traps or goes on for ever, and a name that is read
is the labels of at most 17 passes over the message, each of which reads no byte twice. -/
theorem dns_total (h : IsSlice w msg) :
    (∀ wantId host qtype, ∃ r, classify w msg wantId host qtype = .ok r) ∧
    (∀ pos, ∃ r, skipName w msg pos = .ok r) ∧
    (∀ pos, ∃ r, readName w msg pos = .ok r ∧ ∀ name, r = .ok name → ∃ passes,
      Walk msg pos passes ∧ passes.length ≤ 17 ∧
      (∀ labels ∈ passes, (labels.map fun l ↦ 1 + l.length).sum ≤ msg.length) ∧
      name = passes.flatten.foldl pushLabel []) ∧
    ∀ wantId qtype, ∃ r, parseAnswer w msg wantId qtype = .ok r := by
  refine ⟨classify_total h, fun pos ↦ ?_, fun pos ↦ ?_, fun wantId qtype ↦ ?_⟩
  · obtain ⟨r, hr, -⟩ := ends_skipLabels h 128 pos
    exact ⟨r, hr⟩
  · obtain ⟨r, hr, hname⟩ := ends_readName h pos
    refine ⟨r, hr, fun name hok ↦ ?_⟩
    obtain ⟨passes, hwalk, hlen, heq⟩ := hname name hok
    exact ⟨passes, hwalk, hlen, hwalk.pass_le, heq⟩
  · obtain ⟨r, hr, -⟩ := ends_parseAnswer h wantId qtype
    exact ⟨r, hr⟩

/-- A datagram with a pointer to itself. -/
theorem dns_total_cycle : ∃ r, readName 64 [0xC0, 0x00] 0 = .ok r ∧ ∀ name, r = .ok name → ∃ passes,
    Walk [0xC0, 0x00] 0 passes ∧ passes.length ≤ 17 ∧
    (∀ labels ∈ passes, (labels.map fun l ↦ 1 + l.length).sum ≤ [(0xC0 : UInt8), 0x00].length) ∧
    name = passes.flatten.foldl pushLabel [] :=
  (dns_total ⟨by decide, by decide⟩).2.2.1 0

end Modem2Sip.Mms.Dns
