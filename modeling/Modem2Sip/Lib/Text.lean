import Mathlib.Algebra.Group.Nat.Defs
import Mathlib.Data.List.DropRight
import Mathlib.Data.List.Infix
import Mathlib.Data.Option.Basic

/-!
# Text as a list of characters

The operations that the standard library of the modelled language offers on
strings, over `List Char`: trimming, splitting at a separator, reading a number.
Everything is structurally recursive, so a definition built from these can be
run inside the kernel, and each operation carries the few facts that callers
reason with instead of unfolding it.
-/

namespace Text

/-- A string.  All comparisons are character by character, which for UTF-8 is
the same as byte by byte. -/
abbrev Str := List Char

instance : Coe String Str := ⟨String.toList⟩

/-- A statement about the characters of a text is decided one by one, not for all there are. -/
instance (priority := high) decidableForallMem (s : Str) (p : Char → Prop) [DecidablePred p] :
    Decidable (∀ c ∈ s, p c) := List.decidableBAll p s

/-- The white space of Unicode, which is what `trim` and `split_whitespace` go by. -/
def isWhitespace (c : Char) : Bool :=
  let n := c.toNat
  (9 ≤ n && n ≤ 13) || n == 0x20 || n == 0x85 || n == 0xA0 || n == 0x1680 ||
    (0x2000 ≤ n && n ≤ 0x200A) || n == 0x2028 || n == 0x2029 || n == 0x202F ||
    n == 0x205F || n == 0x3000

/-- The white space of `is_ascii_whitespace`: the vertical tab is not part of it. -/
def isAsciiWhitespace (c : Char) : Bool :=
  c == ' ' || c == '\t' || c == '\n' || c == '\x0C' || c == '\r'

/-- `is_control`: the category Cc of Unicode. -/
def isControl (c : Char) : Bool := c.toNat < 0x20 || (0x7F ≤ c.toNat && c.toNat ≤ 0x9F)

/-! ## Trimming -/

def trimStart (s : Str) : Str := s.dropWhile isWhitespace

def trimEnd (s : Str) : Str := s.rdropWhile isWhitespace

def trim (s : Str) : Str := trimEnd (trimStart s)

/-- `trim_end_matches` for one character. -/
def trimEndMatches (c : Char) (s : Str) : Str := s.rdropWhile (· == c)

/-- `trim_start_matches` for one character. -/
def trimStartMatches (c : Char) (s : Str) : Str := s.dropWhile (· == c)

def trimMatches (p : Char → Bool) (s : Str) : Str := (s.dropWhile p).rdropWhile p

/-- Remove a prefix if it is there. -/
def stripPrefix (p s : Str) : Option Str :=
  if p.isPrefixOf s then some (s.drop p.length) else none

/-- Remove a suffix if it is there. -/
def stripSuffix (p s : Str) : Option Str :=
  if p.isSuffixOf s then some (s.take (s.length - p.length)) else none

/-- `contains` for a text. -/
def contains (p : Str) : Str → Bool
  | [] => p == []
  | c :: s => p.isPrefixOf (c :: s) || contains p s

/-! ## Letter case -/

/-- `to_ascii_lowercase`. -/
def lower (s : Str) : Str := s.map Char.toLower

/-- `to_ascii_uppercase`. -/
def upper (s : Str) : Str := s.map Char.toUpper

/-- `eq_ignore_ascii_case`. -/
def eqIgnoreCase (s t : Str) : Bool := lower s == lower t

/-- Each ASCII character is one of 128. -/
theorem forall_ascii {p : Char → Prop} (h : ∀ n < 128, p (Char.ofNat n)) {c : Char}
    (hc : c.toNat < 128) : p c := by
  have := h c.toNat hc
  rwa [Char.ofNat_toNat] at this

theorem toLower_of_le {c : Char} (h : 128 ≤ c.toNat) : c.toLower = c := by
  have hle : ¬ (c.val ≥ 'A'.val ∧ c.val ≤ 'Z'.val) := by
    rintro ⟨-, hz⟩
    have : c.toNat ≤ 90 := hz
    omega
  exact dif_neg hle

theorem isWhitespace_toLower (c : Char) : isWhitespace c.toLower = isWhitespace c := by
  by_cases hc : c.toNat < 128
  · exact forall_ascii (p := fun c ↦ isWhitespace c.toLower = isWhitespace c) (by decide) hc
  · rw [toLower_of_le (by omega)]

theorem toLower_toLower (c : Char) : c.toLower.toLower = c.toLower := by
  by_cases hc : c.toNat < 128
  · exact forall_ascii (p := fun c ↦ c.toLower.toLower = c.toLower) (by decide) hc
  · have hsame : c.toLower = c := toLower_of_le (by omega)
    rw [hsame, hsame]

/-- Only letters are changed, and into letters. -/
theorem toLower_eq_iff {c d : Char} (hd : d.isAlpha = false) : c.toLower = d ↔ c = d := by
  by_cases hc : c.toNat < 128
  · have hall : ∀ n < 128, (Char.ofNat n).toLower = Char.ofNat n ∨
        (Char.ofNat n).toLower.isAlpha = true ∧ (Char.ofNat n).isAlpha = true := by decide
    obtain h | ⟨h, h'⟩ := forall_ascii
      (p := fun c ↦ c.toLower = c ∨ c.toLower.isAlpha = true ∧ c.isAlpha = true) hall hc
    · rw [h]
    · constructor
      · rintro rfl
        rw [h] at hd
        cases hd
      · rintro rfl
        rw [h'] at hd
        cases hd
  · rw [toLower_of_le (by omega)]

@[simp] theorem lower_lower (s : Str) : lower (lower s) = lower s := by
  rw [lower, lower, List.map_map]
  exact List.map_congr_left fun c _ ↦ toLower_toLower c

theorem mem_lower_iff {d : Char} (hd : d.isAlpha = false) {s : Str} : d ∈ lower s ↔ d ∈ s := by
  rw [lower, List.mem_map]
  constructor
  · rintro ⟨c, hc, heq⟩
    rwa [← (toLower_eq_iff hd).mp heq]
  · intro h
    exact ⟨d, h, (toLower_eq_iff hd).mpr rfl⟩

theorem trimStart_lower (s : Str) : trimStart (lower s) = lower (trimStart s) := by
  rw [trimStart, lower, List.dropWhile_map]
  rw [show isWhitespace ∘ Char.toLower = isWhitespace from funext isWhitespace_toLower]
  rfl

theorem trim_lower (s : Str) : trim (lower s) = lower (trim s) := by
  have hrev (s : Str) : lower s.reverse = (lower s).reverse := List.map_reverse
  rw [trim, trimStart_lower, trimEnd, List.rdropWhile, ← hrev]
  rw [show (lower (trimStart s).reverse).dropWhile isWhitespace =
    lower ((trimStart s).reverse.dropWhile isWhitespace) from trimStart_lower _, ← hrev]
  rfl

/-! ## Splitting -/

/-- `split_once`: the text before and after the first character satisfying `p`. -/
def splitOnce (p : Char → Bool) (s : Str) : Option (Str × Str) :=
  match s.dropWhile (fun c ↦ !p c) with
  | [] => none
  | _ :: rest => some (s.takeWhile (fun c ↦ !p c), rest)

/-- `split_once` for one character. -/
def splitAt (c : Char) (s : Str) : Option (Str × Str) := splitOnce (· == c) s

/-- `rsplit_once`: the text before and after the last `c`. -/
def rsplitAt (c : Char) (s : Str) : Option (Str × Str) :=
  (splitAt c s.reverse).map fun (b, a) ↦ (a.reverse, b.reverse)

/-- The text before the first `c`, all of it when there is none. -/
def before (c : Char) (s : Str) : Str := s.takeWhile (· != c)

/-- `split_whitespace`: the non-empty pieces between white space. -/
def words (s : Str) : List Str := (s.splitOnP isWhitespace).filter (· != [])

/-- `lines`: the pieces between line feeds, each without a carriage return at its end; a line
feed at the very end of the text starts no further line. -/
def lines (s : Str) : List Str :=
  match (s.splitOn '\n').reverse with
  | [] => []
  | last :: init =>
    (init.reverse.map fun l ↦ (stripSuffix ['\r'] l).getD l) ++ (if last = [] then [] else [last])

/-! ## What trimming does -/

theorem trimStart_append_cons (a b : Str) {c : Char} (hc : isWhitespace c = false) :
    trimStart (a ++ c :: b) = trimStart a ++ c :: b := by
  unfold trimStart
  induction a with
  | nil => simp [hc]
  | cons x a ih =>
      rw [List.cons_append, List.dropWhile_cons, List.dropWhile_cons]
      split
      · exact ih
      · rfl

theorem trimEnd_append_cons (a b : Str) {c : Char} (hc : isWhitespace c = false) :
    trimEnd (a ++ c :: b) = a ++ c :: trimEnd b := by
  have hrev := trimStart_append_cons b.reverse a.reverse hc
  unfold trimEnd List.rdropWhile
  unfold trimStart at hrev
  rw [List.reverse_append, List.reverse_cons, List.append_assoc, List.singleton_append, hrev]
  simp

/-- What is around a character that stays is trimmed on its outer side. -/
theorem trim_append_cons (a b : Str) {c : Char} (hc : isWhitespace c = false) :
    trim (a ++ c :: b) = trimStart a ++ c :: trimEnd b := by
  rw [trim, trimStart_append_cons a b hc, trimEnd_append_cons _ b hc]

theorem trimStart_of_forall {s : Str} (h : ∀ c ∈ s, isWhitespace c = false) : trimStart s = s := by
  cases s with
  | nil => rfl
  | cons c s => simp [trimStart, h c List.mem_cons_self]

theorem trimEnd_of_forall {s : Str} (h : ∀ c ∈ s, isWhitespace c = false) : trimEnd s = s := by
  rw [trimEnd, List.rdropWhile_eq_self_iff]
  intro hne
  simp [h _ (List.getLast_mem hne)]

/-- Text with no white space at either end is left alone. -/
theorem trim_eq_self {s : Str} (h : ∀ c ∈ s, isWhitespace c = false) : trim s = s := by
  rw [trim, trimStart_of_forall h, trimEnd_of_forall h]

/-- White space after it is all that is trimmed. -/
theorem trim_append_blank {s b : Str} (hs : ∀ c ∈ s, isWhitespace c = false)
    (hb : ∀ c ∈ b, isWhitespace c = true) : trim (s ++ b) = s := by
  cases s with
  | nil =>
      rw [List.nil_append, trim, trimStart, List.dropWhile_eq_nil_iff.mpr hb]
      rfl
  | cons c s =>
      have hend : trimEnd (c :: s ++ b) = trimEnd (c :: s) := by
        rw [trimEnd, List.rdropWhile, List.reverse_append,
          List.dropWhile_append_of_pos (by simpa using hb)]
        rfl
      have hstart : trimStart (c :: s ++ b) = c :: s ++ b :=
        List.dropWhile_cons_of_neg (by rw [hs c List.mem_cons_self]; decide)
      rw [trim, hstart, hend, trimEnd_of_forall hs]

/-- It is enough to look at the ends. -/
theorem trim_of_ends {s : Str} (hhead : ∀ c ∈ s.head?, isWhitespace c = false)
    (hlast : ∀ c ∈ s.getLast?, isWhitespace c = false) : trim s = s := by
  have hstart : trimStart s = s := by
    cases s with
    | nil => rfl
    | cons c s => exact List.dropWhile_cons_of_neg (by rw [hhead c rfl]; decide)
  rw [trim, hstart, trimEnd, List.rdropWhile_eq_self_iff]
  intro hne
  rw [hlast _ (List.getLast?_eq_some_getLast hne)]
  decide

/-- Trimmed text is empty, or begins and ends with characters that stay. -/
theorem trim_cases (s : Str) : trim s = [] ∨
    (∃ c t, isWhitespace c = false ∧ trim s = c :: t) ∧
      ∃ t c, isWhitespace c = false ∧ trim s = t ++ [c] := by
  rcases List.eq_nil_or_concat (trim s) with hnil | ⟨t, c, hlast⟩
  · exact .inl hnil
  · rw [List.concat_eq_append] at hlast
    have hne : trim s ≠ [] := by simp [hlast]
    have hend : isWhitespace c = false := by
      have h := List.rdropWhile_last_not isWhitespace (trimStart s) hne
      simpa [show (trimStart s).rdropWhile isWhitespace = t ++ [c] from hlast] using h
    refine .inr ⟨?_, t, c, hend, hlast⟩
    cases hstart : trimStart s with
    | nil =>
        rw [trim, hstart] at hne
        exact absurd rfl hne
    | cons x u =>
        have hx : isWhitespace x = false := by
          have h := List.dropWhile_get_zero_not isWhitespace s
            (List.length_pos_iff.mpr (by rw [show s.dropWhile isWhitespace = x :: u from hstart]; simp))
          simpa [show s.dropWhile isWhitespace = x :: u from hstart] using h
        exact ⟨x, trimEnd u, hx, by rw [trim, hstart]; exact trimEnd_append_cons [] u hx⟩

/-- Text that ends in something trimmed is trimmed at its end. -/
theorem trimEnd_append (a : Str) {b : Str} (hne : b ≠ []) (hb : trimEnd b = b) :
    trimEnd (a ++ b) = a ++ b := by
  unfold trimEnd at hb ⊢
  rw [List.rdropWhile_eq_self_iff] at hb ⊢
  intro h
  rw [List.getLast_append_of_ne_nil h hne]
  exact hb hne

theorem isWhitespace_of_isAsciiWhitespace {c : Char} (h : isAsciiWhitespace c = true) :
    isWhitespace c = true := by
  simp only [isAsciiWhitespace, Bool.or_eq_true, beq_iff_eq] at h
  rcases h with (((rfl | rfl) | rfl) | rfl) | rfl <;> decide

theorem isAsciiWhitespace_eq_false {c : Char} (h : isWhitespace c = false) :
    isAsciiWhitespace c = false := by
  by_contra hc
  rw [isWhitespace_of_isAsciiWhitespace (by simpa using hc)] at h
  cases h

theorem trimStart_cons {c : Char} (hc : isWhitespace c = false) (s : Str) :
    trimStart (c :: s) = c :: s := trimStart_append_cons [] s hc

theorem trimEnd_concat (s : Str) {c : Char} (hc : isWhitespace c = false) :
    trimEnd (s ++ [c]) = s ++ [c] := trimEnd_append_cons s [] hc

@[simp] theorem trimStart_trimStart (s : Str) : trimStart (trimStart s) = trimStart s :=
  List.dropWhile_idempotent _ s

@[simp] theorem trimStart_trim (s : Str) : trimStart (trim s) = trim s := by
  rcases trim_cases s with hnil | ⟨⟨c, t, hc, heq⟩, -⟩
  · rw [hnil]
    rfl
  · rw [heq]
    exact trimStart_cons hc t

@[simp] theorem trimEnd_trim (s : Str) : trimEnd (trim s) = trim s := by
  rcases trim_cases s with hnil | ⟨-, t, c, hc, heq⟩
  · rw [hnil]
    rfl
  · rw [heq]
    exact trimEnd_concat t hc

@[simp] theorem trim_trim (s : Str) : trim (trim s) = trim s := by
  rw [trim, trimStart_trim, trimEnd_trim]

theorem trim_trimEnd (s : Str) : trim (trimEnd s) = trim s := by
  have hidem (t : Str) : trimEnd (trimEnd t) = trimEnd t := List.rdropWhile_idempotent _ t
  by_cases hblank : ∀ c ∈ s, isWhitespace c = true
  · have hend : trimEnd s = [] := List.rdropWhile_eq_nil_iff.mpr hblank
    have hstart : trimStart s = [] := List.dropWhile_eq_nil_iff.mpr hblank
    rw [hend, trim, trim, hstart]
    rfl
  · obtain ⟨c, hmem, hc⟩ : ∃ c ∈ s, isWhitespace c = false := by simpa using hblank
    obtain ⟨a, b, rfl⟩ := List.append_of_mem hmem
    rw [trimEnd_append_cons a b hc, trim_append_cons _ _ hc, hidem, trim_append_cons _ _ hc]

theorem mem_of_mem_trim {c : Char} {s : Str} (h : c ∈ trim s) : c ∈ s :=
  (List.dropWhile_sublist _).subset ((List.rdropWhile_prefix _ _).sublist.subset h)

/-! ## What splitting does -/

theorem splitOnce_append {p : Char → Bool} {a : Str} {c : Char} {b : Str}
    (ha : ∀ x ∈ a, p x = false) (hc : p c = true) :
    splitOnce p (a ++ c :: b) = some (a, b) := by
  have hd : (a ++ c :: b).dropWhile (fun x ↦ !p x) = c :: b := by
    rw [List.dropWhile_append_of_pos (by simpa using ha)]
    simp [hc]
  have ht : (a ++ c :: b).takeWhile (fun x ↦ !p x) = a := by
    rw [List.takeWhile_append_of_pos (by simpa using ha)]
    simp [hc]
  simp [splitOnce, hd, ht]

/-- What `split_once` returns is the whole text, cut at a separator, with none before it. -/
theorem eq_of_splitOnce {p : Char → Bool} {s a b : Str} (h : splitOnce p s = some (a, b)) :
    ∃ c, p c = true ∧ s = a ++ c :: b ∧ ∀ x ∈ a, p x = false := by
  unfold splitOnce at h
  split at h
  · cases h
  · rename_i c rest hd
    simp only [Option.some.injEq, Prod.mk.injEq] at h
    obtain ⟨rfl, rfl⟩ := h
    refine ⟨c, ?_, ?_, ?_⟩
    · have hne : s.dropWhile (fun x ↦ !p x) ≠ [] := by simp [hd]
      have hc := List.dropWhile_get_zero_not (fun x ↦ !p x) s (List.length_pos_iff.mpr hne)
      simpa [hd] using hc
    · rw [← hd, List.takeWhile_append_dropWhile]
    · intro x hx
      simpa using List.mem_takeWhile_imp hx

theorem splitOnce_eq_none {p : Char → Bool} {s : Str} (h : ∀ c ∈ s, p c = false) :
    splitOnce p s = none := by
  unfold splitOnce
  rw [List.dropWhile_eq_nil_iff.mpr fun c hc ↦ by simp [h c hc]]

theorem splitAt_append_cons {c : Char} {a : Str} (h : c ∉ a) (b : Str) :
    splitAt c (a ++ c :: b) = some (a, b) := by
  refine splitOnce_append (fun x hx ↦ ?_) (beq_self_eq_true c)
  exact beq_false_of_ne fun heq ↦ h (heq ▸ hx)

theorem splitAt_eq_none {c : Char} {s : Str} (h : c ∉ s) : splitAt c s = none :=
  splitOnce_eq_none fun _ hx ↦ beq_false_of_ne fun heq ↦ h (heq ▸ hx)

theorem not_mem_of_splitAt {c : Char} {s : Str} (h : splitAt c s = none) : c ∉ s := by
  intro hmem
  obtain ⟨a, b, rfl, ha⟩ := List.eq_append_cons_of_mem hmem
  rw [splitAt_append_cons ha] at h
  cases h

theorem eq_of_splitAt {c : Char} {s a b : Str} (h : splitAt c s = some (a, b)) :
    s = a ++ c :: b ∧ c ∉ a := by
  obtain ⟨x, hx, heq, ha⟩ := eq_of_splitOnce h
  obtain rfl := beq_iff_eq.mp hx
  exact ⟨heq, fun hmem ↦ by simpa using ha x hmem⟩

theorem rsplitAt_append_cons {c : Char} (a : Str) {b : Str} (h : c ∉ b) :
    rsplitAt c (a ++ c :: b) = some (a, b) := by
  unfold rsplitAt
  rw [List.reverse_append, List.reverse_cons, List.append_assoc, List.singleton_append,
    splitAt_append_cons (by simpa using h)]
  simp

theorem rsplitAt_eq_none {c : Char} {s : Str} (h : c ∉ s) : rsplitAt c s = none := by
  unfold rsplitAt
  rw [splitAt_eq_none (by simpa using h)]
  rfl

theorem eq_of_rsplitAt {c : Char} {s a b : Str} (h : rsplitAt c s = some (a, b)) :
    s = a ++ c :: b ∧ c ∉ b := by
  unfold rsplitAt at h
  obtain ⟨⟨b', a'⟩, hsplit, heq⟩ := Option.map_eq_some_iff.mp h
  obtain ⟨hrev, hb⟩ := eq_of_splitAt hsplit
  obtain ⟨rfl, rfl⟩ := Prod.mk.inj heq
  refine ⟨?_, by simpa using hb⟩
  rw [← List.reverse_reverse s, hrev]
  simp

/-- The part before the first separator does not contain it. -/
theorem not_mem_before (c : Char) (s : Str) : c ∉ before c s := by
  intro h
  simpa using List.mem_takeWhile_imp h

theorem before_of_not_mem {c : Char} {s : Str} (h : c ∉ s) : before c s = s := by
  rw [before, List.takeWhile_eq_self_iff]
  intro x hx
  exact bne_iff_ne.mpr fun heq ↦ h (heq ▸ hx)

/-- Text without the separator is all of it before the first separator. -/
theorem before_append_cons {c : Char} {s : Str} (t : Str) (h : c ∉ s) :
    before c (s ++ c :: t) = s := by
  unfold before
  rw [List.takeWhile_append_of_pos]
  · simp
  · rintro x hx
    simp only [bne_iff_ne, ne_eq]
    rintro rfl
    exact h hx

theorem before_append_sep (c : Char) (s t : Str) : before c (s ++ c :: t) = before c s := by
  unfold before
  induction s with
  | nil => simp
  | cons x s ih =>
      by_cases hx : x = c
      · simp [hx]
      · simp [hx, ih]

/-- A text has no separator in it, or it is cut at the first one. -/
@[elab_as_elim]
theorem cut_induction (c : Char) {motive : Str → Prop} (last : ∀ s, c ∉ s → motive s)
    (cut : ∀ a b, c ∉ a → motive b → motive (a ++ c :: b)) (s : Str) : motive s := by
  induction hn : s.length using Nat.strong_induction_on generalizing s with
  | h n ih =>
      by_cases hmem : c ∈ s
      · obtain ⟨a, b, rfl, ha⟩ := List.eq_append_cons_of_mem hmem
        refine cut a b ha (ih b.length ?_ b rfl)
        rw [← hn, List.length_append, List.length_cons]
        omega
      · exact last s hmem

/-- The pieces between separators are parts of the text without a separator in them. -/
theorem not_mem_of_mem_splitOn {c : Char} {s piece : Str} (h : piece ∈ s.splitOn c) :
    c ∉ piece ∧ piece ⊆ s := by
  induction s generalizing piece with
  | nil =>
      rw [List.splitOn_nil, List.mem_singleton] at h
      rw [h]
      simp
  | cons x s ih =>
      rw [List.splitOn_cons_eq_if_modifyHead] at h
      split at h
      · rcases List.mem_cons.mp h with rfl | h
        · simp
        · obtain ⟨hc, hsub⟩ := ih h
          exact ⟨hc, fun y hy ↦ List.mem_cons_of_mem x (hsub hy)⟩
      · rename_i hx
        cases hs : s.splitOn c with
        | nil => exact absurd hs (List.splitOn_ne_nil c s)
        | cons p ps =>
            rw [hs, List.modifyHead_cons] at h
            rcases List.mem_cons.mp h with rfl | h
            · obtain ⟨hc, hsub⟩ := ih (hs ▸ List.mem_cons_self)
              refine ⟨?_, List.cons_subset_cons x hsub⟩
              rw [List.mem_cons]
              rintro (rfl | hmem)
              · simp at hx
              · exact hc hmem
            · obtain ⟨hc, hsub⟩ := ih (hs ▸ List.mem_cons_of_mem p h)
              exact ⟨hc, fun y hy ↦ List.mem_cons_of_mem x (hsub hy)⟩

theorem trimEndMatches_cons {c x : Char} (h : x ≠ c) (s : Str) :
    trimEndMatches c (x :: s) = x :: trimEndMatches c s := by
  rw [trimEndMatches, trimEndMatches, List.rdropWhile, List.rdropWhile, List.reverse_cons, List.dropWhile_append]
  split
  · rename_i hnil
    rw [List.isEmpty_iff.mp hnil, List.dropWhile_cons_of_neg (by simpa using h)]
    rfl
  · rw [List.reverse_append]
    rfl

theorem stripPrefix_append (p s : Str) : stripPrefix p (p ++ s) = some s := by
  rw [stripPrefix, if_pos (List.isPrefixOf_iff_prefix.mpr (List.prefix_append p s)), List.drop_left]

/-- A line and its line feed come off the front. -/
theorem lines_append_cons {a : Str} (h : '\n' ∉ a) (b : Str) :
    lines (a ++ '\n' :: b) = (stripSuffix ['\r'] a).getD a :: lines b := by
  rw [lines, List.splitOn_append_cons_self_of_not_mem h, List.reverse_cons, lines]
  cases hlast : (b.splitOn '\n').reverse with
  | nil => exact absurd (List.reverse_eq_nil_iff.mp hlast) (List.splitOn_ne_nil _ b)
  | cons last init =>
      rw [List.cons_append]
      dsimp only
      rw [List.reverse_append, List.reverse_singleton, List.singleton_append, List.map_cons, List.cons_append]

theorem lines_of_not_mem {a : Str} (h : '\n' ∉ a) (hne : a ≠ []) : lines a = [a] := by
  rw [lines, List.splitOn_eq_singleton h, List.reverse_singleton]
  dsimp only
  rw [if_neg hne]
  rfl

/-- Lines that were ended with a carriage return and a line feed are read back, whatever follows. -/
theorem lines_crlf_append {ls : List Str} (h : ∀ l ∈ ls, '\n' ∉ l) (s : Str) :
    lines ((ls.flatMap fun l ↦ l ++ ['\r', '\n']) ++ s) = ls ++ lines s := by
  induction ls with
  | nil => rfl
  | cons l ls ih =>
      obtain ⟨hl, hls⟩ := List.forall_mem_cons.mp h
      have hcr : '\n' ∉ l ++ ['\r'] := by simpa using hl
      have hstrip : (stripSuffix ['\r'] (l ++ ['\r'])).getD (l ++ ['\r']) = l := by
        simp [stripSuffix]
      have hsplit : ((l :: ls).flatMap fun l ↦ l ++ ['\r', '\n']) ++ s =
          (l ++ ['\r']) ++ '\n' :: ((ls.flatMap fun l ↦ l ++ ['\r', '\n']) ++ s) := by
        rw [List.flatMap_cons]
        simp only [List.append_assoc, List.cons_append, List.nil_append]
      rw [hsplit, lines_append_cons hcr, hstrip, ih hls, List.cons_append]
theorem lines_crlf {ls : List Str} (h : ∀ l ∈ ls, '\n' ∉ l) :
    lines (ls.flatMap fun l ↦ l ++ ['\r', '\n']) = ls := by
  have hnil : lines [] = [] := rfl
  have happend := lines_crlf_append h []
  rwa [List.append_nil, hnil, List.append_nil] at happend

/-- A word up to the first white space. -/
theorem words_append_cons {w : Str} (hne : w ≠ []) (hw : ∀ c ∈ w, isWhitespace c = false) {c : Char}
    (hc : isWhitespace c = true) (s : Str) : words (w ++ c :: s) = w :: words s := by
  unfold words
  rw [List.splitOnP_append_cons_of_forall_mem hw c hc, List.filter_cons_of_pos (by simpa using hne)]

theorem words_singleton {w : Str} (hne : w ≠ []) (hw : ∀ c ∈ w, isWhitespace c = false) :
    words w = [w] := by
  unfold words
  rw [List.splitOnP_eq_singleton hw, List.filter_cons_of_pos (by simpa using hne)]
  rfl

/-- Words that were joined with blanks are read back. -/
theorem words_intercalate {ws : List Str}
    (h : ∀ w ∈ ws, w ≠ [] ∧ ∀ c ∈ w, isWhitespace c = false) :
    words ([' '].intercalate ws) = ws := by
  induction ws with
  | nil => rfl
  | cons w ws ih =>
      obtain ⟨hne, hw⟩ := h w List.mem_cons_self
      have ih := ih fun w' hw' ↦ h w' (List.mem_cons_of_mem w hw')
      cases ws with
      | nil => simpa [List.intercalate] using words_singleton hne hw
      | cons w' ws =>
          rw [List.intercalate_cons_cons, List.append_assoc, List.singleton_append,
            words_append_cons hne hw (by decide), ih]

/-! ## Numbers -/

/-- `to_digit` for a radix up to 16. -/
def toDigit (radix : Nat) (c : Char) : Option Nat :=
  let n := c.toNat
  let d :=
    if 48 ≤ n && n ≤ 57 then some (n - 48)
    else if 97 ≤ n && n ≤ 102 then some (n - 87)
    else if 65 ≤ n && n ≤ 70 then some (n - 55)
    else none
  d.filter (· < radix)

/-- The value of a run of digits, most significant first. -/
def digitsValue (radix : Nat) : Nat → Str → Option Nat
  | acc, [] => some acc
  | acc, c :: s => (toDigit radix c).bind fun d ↦ digitsValue radix (acc * radix + d) s

/-- `from_str_radix` of an unsigned integer type with `size` values: at least one digit, an
optional plus sign, no overflow. -/
def parseUnsigned (radix size : Nat) (s : Str) : Option Nat :=
  let ds := match s with
    | '+' :: rest => rest
    | _ => s
  if ds = [] then none else (digitsValue radix 0 ds).filter (· < size)

def parseU8 : Str → Option Nat := parseUnsigned 10 (2 ^ 8)
def parseU16 : Str → Option Nat := parseUnsigned 10 (2 ^ 16)
def parseU32 : Str → Option Nat := parseUnsigned 10 (2 ^ 32)
def parseU64 : Str → Option Nat := parseUnsigned 10 (2 ^ 64)

/-- `parse::<i64>`: as for unsigned types, with a minus sign allowed. -/
def parseI64 (s : Str) : Option Int :=
  match s with
  | '-' :: rest =>
    if rest = [] then none
    else ((digitsValue 10 0 rest).filter (· ≤ 2 ^ 63)).map fun n ↦ -(n : Int)
  | _ => (parseUnsigned 10 (2 ^ 63) s).map fun n ↦ (n : Int)

/-- The decimal text of a number. -/
def dec (n : Nat) : Str := Nat.toDigits 10 n

/-- The decimal text of a signed number. -/
def decInt (n : Int) : Str :=
  match n with
  | .ofNat n => dec n
  | .negSucc n => '-' :: dec (n + 1)

/-- Lower-case hexadecimal, padded with zeros on the left to `width` digits. -/
def hexPad (width n : Nat) : Str :=
  let ds := Nat.toDigits 16 n
  List.replicate (width - ds.length) '0' ++ ds

theorem dec_ne_nil (n : Nat) : dec n ≠ [] := Nat.toDigits_ne_nil

theorem isDigit_of_mem_dec {n : Nat} {c : Char} (h : c ∈ dec n) : c.isDigit :=
  Nat.isDigit_of_mem_toDigits (by decide) (by decide) h

theorem not_mem_dec {c : Char} (hc : c.isDigit = false) (n : Nat) : c ∉ dec n := by
  intro h
  rw [isDigit_of_mem_dec h] at hc
  cases hc

theorem length_dec_le {n k : Nat} (hk : 0 < k) (h : n < 10 ^ k) : (dec n).length ≤ k :=
  (Nat.length_toDigits_le_iff (by decide) hk).mpr h

theorem isWhitespace_of_mem_dec (n : Nat) : ∀ c ∈ dec n, isWhitespace c = false := by
  intro c hc
  obtain ⟨hlo, hhi⟩ : 48 ≤ c.toNat ∧ c.toNat ≤ 57 :=
    Char.isDigit_iff_toNat.mp (isDigit_of_mem_dec hc)
  simp only [isWhitespace, Bool.or_eq_false_iff, Bool.and_eq_false_iff, decide_eq_false_iff_not,
    beq_eq_false_iff_ne]
  omega

theorem dec_injective : Function.Injective dec := by
  intro m n h
  have := congrArg (fun s ↦ Nat.ofDigitChars 10 s 0) h
  simpa [dec, Nat.ofDigitChars_ten_toDigits] using this

@[simp] theorem dec_inj {m n : Nat} : dec m = dec n ↔ m = n := dec_injective.eq_iff

theorem toDigit_digitChar {radix d : Nat} (hradix : radix ≤ 16) (h : d < radix) :
    toDigit radix (Nat.digitChar d) = some d := by
  have hall : ∀ radix ≤ 16, ∀ d < radix, toDigit radix (Nat.digitChar d) = some d := by
    decide +kernel
  exact hall radix hradix d h

theorem digitsValue_append (radix acc : Nat) (s t : Str) :
    digitsValue radix acc (s ++ t) =
      (digitsValue radix acc s).bind fun acc ↦ digitsValue radix acc t := by
  induction s generalizing acc with
  | nil => rfl
  | cons c s ih =>
    rw [List.cons_append, digitsValue, digitsValue, Option.bind_assoc]
    exact congrArg _ (funext fun d ↦ ih _)

/-- The digits of a number have its value. -/
theorem digitsValue_toDigits {radix : Nat} (hradix : 1 < radix) (hle : radix ≤ 16) (n : Nat) :
    digitsValue radix 0 (Nat.toDigits radix n) = some n := by
  induction n using Nat.strongRecOn with
  | ind n ih =>
    have hchar := toDigit_digitChar hle (Nat.mod_lt n (Nat.zero_lt_of_lt hradix))
    rw [Nat.toDigits_eq_if hradix]
    split
    · rename_i hlt
      rw [Nat.mod_eq_of_lt hlt] at hchar
      simp [digitsValue, hchar]
    · rename_i hge
      have hdiv : n / radix < n := Nat.div_lt_self (by omega) hradix
      rw [digitsValue_append, ih _ hdiv, Option.bind_some, digitsValue, hchar]
      exact congrArg some (Nat.div_add_mod' n radix)

/-- Every character of a run of digits is one. -/
theorem isSome_toDigit_of_mem {radix acc n : Nat} {s : Str} (h : digitsValue radix acc s = some n) :
    ∀ c ∈ s, (toDigit radix c).isSome = true := by
  induction s generalizing acc with
  | nil =>
      intro c hc
      cases hc
  | cons x s ih =>
      obtain ⟨d, hd, hs⟩ := Option.bind_eq_some_iff.mp h
      intro c hc
      rcases List.mem_cons.mp hc with rfl | hc
      · rw [hd]
        rfl
      · exact ih hs c hc

/-- A run of digits is read as its value if that fits. -/
theorem parseUnsigned_of_digitsValue {radix n : Nat} {s : Str} (hne : s ≠ [])
    (h : digitsValue radix 0 s = some n) (size : Nat) :
    parseUnsigned radix size s = (some n).filter (· < size) := by
  unfold parseUnsigned
  split
  · exact absurd (isSome_toDigit_of_mem h '+' List.mem_cons_self) (by simp [toDigit])
  · simp only [hne, if_false, h]

/-- The decimal text of a number is read back if the number fits. -/
theorem parseUnsigned_dec_eq (n size : Nat) :
    parseUnsigned 10 size (dec n) = (some n).filter (· < size) :=
  parseUnsigned_of_digitsValue (dec_ne_nil n) (digitsValue_toDigits (by decide) (by decide) n) size

theorem parseUnsigned_dec {n size : Nat} (h : n < size) :
    parseUnsigned 10 size (dec n) = some n := by
  rw [parseUnsigned_dec_eq, Option.filter_some, if_pos (by simpa using h)]

theorem lt_of_parseUnsigned {radix size n : Nat} {s : Str} (h : parseUnsigned radix size s = some n) :
    n < size := by
  unfold parseUnsigned at h
  extract_lets ds at h
  split at h
  · cases h
  · exact of_decide_eq_true (Option.filter_eq_some_iff.mp h).2

/-! ## Plain text -/

/-- A printable ASCII character. -/
def isPlain (c : Char) : Bool := 0x20 ≤ c.toNat && c.toNat < 0x7F

/-- Printable ASCII text, which is one line and one byte a character. -/
def Plain (s : Str) : Prop := ∀ c ∈ s, isPlain c = true

instance (s : Str) : Decidable (Plain s) := inferInstanceAs (Decidable (∀ c ∈ s, _))

@[simp] theorem plain_nil : Plain [] := by simp [Plain]

@[simp] theorem plain_cons {c : Char} {s : Str} :
    Plain (c :: s) ↔ isPlain c = true ∧ Plain s := by simp [Plain]

@[simp] theorem plain_append {s t : Str} : Plain (s ++ t) ↔ Plain s ∧ Plain t := by
  simp [Plain, or_imp, forall_and]

/-- What holds of the symbols of the separator and of the pieces holds of them all. -/
theorem forall_mem_intercalate {α : Type*} {p : α → Prop} {sep : List α} (hsep : ∀ c ∈ sep, p c)
    {ss : List (List α)} (h : ∀ s ∈ ss, ∀ c ∈ s, p c) : ∀ c ∈ sep.intercalate ss, p c := by
  induction ss with
  | nil => simp
  | cons s ss ih =>
      have hs := h s List.mem_cons_self
      have ih := ih fun t ht ↦ h t (List.mem_cons_of_mem s ht)
      cases ss with
      | nil => simpa [List.intercalate] using hs
      | cons t ss =>
          rw [List.intercalate_cons_cons, List.forall_mem_append, List.forall_mem_append]
          exact ⟨⟨hs, hsep⟩, ih⟩

/-- Pieces that are trimmed at their ends stay so when they are joined. -/
theorem trimEnd_intercalate {sep : Str} {ss : List Str} (h : ∀ s ∈ ss, s ≠ [] ∧ trimEnd s = s) :
    trimEnd (sep.intercalate ss) = sep.intercalate ss := by
  rcases List.eq_nil_or_concat ss with rfl | ⟨init, last, rfl⟩
  · rfl
  · obtain ⟨hne, hlast⟩ := h last (by simp)
    cases init with
    | nil => simpa [List.intercalate] using hlast
    | cons s init =>
        have hsplit : sep.intercalate ((s :: init).concat last) =
            (sep.intercalate (s :: init) ++ sep) ++ last := by
          rw [List.concat_eq_append]
          clear hlast hne h
          induction init generalizing s with
          | nil => simp [List.intercalate]
          | cons t init ih =>
              rw [List.cons_append, List.cons_append, List.intercalate_cons_cons,
                List.intercalate_cons_cons, ← List.cons_append, ih]
              simp
        rw [hsplit]
        exact trimEnd_append _ hne hlast

theorem plain_intercalate {sep : Str} (hsep : Plain sep) {ss : List Str} (h : ∀ s ∈ ss, Plain s) :
    Plain (sep.intercalate ss) := forall_mem_intercalate hsep h

/-- The digits up to fifteen, and the star that stands for no digit. -/
theorem forall_digitChar {p : Char → Prop} (hdigit : ∀ n < 16, p (Nat.digitChar n)) (hstar : p '*')
    (n : Nat) : p (Nat.digitChar n) := by
  by_cases hn : n < 16
  · exact hdigit n hn
  · have heq : Nat.digitChar n = '*' := by
      unfold Nat.digitChar
      repeat rw [if_neg (by omega)]
    rwa [heq]

theorem isPlain_digitChar (n : Nat) : isPlain (Nat.digitChar n) = true :=
  forall_digitChar (p := fun c ↦ isPlain c = true) (by decide) (by decide) n

/-- What holds of every digit holds of the characters of a number. -/
theorem forall_mem_toDigits {p : Char → Prop} (hp : ∀ n, p (Nat.digitChar n)) (base n : Nat) :
    ∀ c ∈ Nat.toDigits base n, p c := by
  have hcore (fuel n : Nat) (ds : Str) (hds : ∀ c ∈ ds, p c) :
      ∀ c ∈ Nat.toDigitsCore base fuel n ds, p c := by
    induction fuel generalizing n ds with
    | zero => exact hds
    | succ fuel ih =>
        have hcons : ∀ c ∈ Nat.digitChar (n % base) :: ds, p c :=
          List.forall_mem_cons.mpr ⟨hp _, hds⟩
        rw [Nat.toDigitsCore]
        split
        · exact hcons
        · exact ih _ _ hcons
  exact hcore _ _ _ (by simp)

theorem plain_toDigits (base n : Nat) : Plain (Nat.toDigits base n) :=
  forall_mem_toDigits isPlain_digitChar base n

theorem plain_dec (n : Nat) : Plain (dec n) := plain_toDigits 10 n

theorem Plain.not_mem {s : Str} (h : Plain s) {c : Char} (hc : isPlain c = false) : c ∉ s :=
  fun hmem ↦ absurd (h c hmem) (by simp [hc])

theorem Plain.trimEndMatches {s : Str} (h : Plain s) {c : Char} (hc : isPlain c = false) :
    trimEndMatches c s = s := by
  rw [Text.trimEndMatches, List.rdropWhile_eq_self_iff]
  intro hne
  have := h _ (List.getLast_mem hne)
  rintro heq
  rw [beq_iff_eq.mp heq] at this
  exact absurd this (by simp [hc])

/-! ## UTF-8 -/

/-- The bytes of a text. -/
def utf8 (s : Str) : List UInt8 := s.flatMap String.utf8EncodeChar

@[simp] theorem utf8_nil : utf8 [] = [] := rfl

@[simp] theorem utf8_append (s t : Str) : utf8 (s ++ t) = utf8 s ++ utf8 t := by
  simp [utf8]

/-- Different texts have different bytes. -/
theorem utf8_injective : Function.Injective utf8 := by
  intro s t h
  have he : s.utf8Encode = t.utf8Encode := by
    simpa [List.utf8Encode, utf8] using congrArg List.toByteArray h
  have hd := congrArg ByteArray.utf8Decode? he
  simpa using hd

@[simp] theorem utf8_inj {s t : Str} : utf8 s = utf8 t ↔ s = t := utf8_injective.eq_iff

/-- Is `b` a continuation byte in `lo..=hi`? -/
def within (lo hi b : UInt8) : Bool := lo ≤ b && b ≤ hi

/-- The range that the second byte of a character may lie in, by its first byte; `none` where
the first byte starts no character of more than one byte. -/
def secondByte (b : UInt8) : Option (UInt8 × UInt8) :=
  if within 0xC2 0xDF b then some (0x80, 0xBF)
  else if b == 0xE0 then some (0xA0, 0xBF)
  else if b == 0xED then some (0x80, 0x9F)
  else if within 0xE1 0xEF b then some (0x80, 0xBF)
  else if b == 0xF0 then some (0x90, 0xBF)
  else if within 0xF1 0xF3 b then some (0x80, 0xBF)
  else if b == 0xF4 then some (0x80, 0x8F)
  else none

/-- The six low bits of a continuation byte. -/
def contBits (b : UInt8) : Nat := b.toNat % 64

/-- U+FFFD, which stands for whatever could not be decoded. -/
def replacement : Char := Char.ofNat 0xFFFD

/-- `from_utf8_lossy`: every maximal piece of an ill-formed sequence becomes one replacement
character. -/
def fromUtf8Lossy : List UInt8 → Str
  | [] => []
  | b₀ :: rest =>
    if b₀ < 0x80 then Char.ofNat b₀.toNat :: fromUtf8Lossy rest
    else
      match secondByte b₀ with
      | none => replacement :: fromUtf8Lossy rest
      | some (lo, hi) =>
        match rest with
        | [] => [replacement]
        | b₁ :: rest₁ =>
          if !within lo hi b₁ then replacement :: fromUtf8Lossy (b₁ :: rest₁)
          else if b₀ < 0xE0 then
            Char.ofNat (b₀.toNat % 32 * 64 + contBits b₁) :: fromUtf8Lossy rest₁
          else
            match rest₁ with
            | [] => [replacement]
            | b₂ :: rest₂ =>
              if !within 0x80 0xBF b₂ then replacement :: fromUtf8Lossy (b₂ :: rest₂)
              else if b₀ < 0xF0 then
                Char.ofNat (b₀.toNat % 16 * 4096 + contBits b₁ * 64 + contBits b₂) ::
                  fromUtf8Lossy rest₂
              else
                match rest₂ with
                | [] => [replacement]
                | b₃ :: rest₃ =>
                  if !within 0x80 0xBF b₃ then replacement :: fromUtf8Lossy (b₃ :: rest₃)
                  else
                    Char.ofNat (b₀.toNat % 8 * 262144 + contBits b₁ * 4096 + contBits b₂ * 64 +
                      contBits b₃) :: fromUtf8Lossy rest₃

/-- There are no more characters than bytes. -/
theorem length_fromUtf8Lossy_le (bs : List UInt8) : (fromUtf8Lossy bs).length ≤ bs.length := by
  fun_induction fromUtf8Lossy bs <;> simp_all only [List.length_cons, List.length_nil] <;> omega

/-- An ASCII character is one byte. -/
theorem utf8EncodeChar_of_ascii {c : Char} (h : c.toNat < 128) :
    String.utf8EncodeChar c = [UInt8.ofNat c.toNat] := by
  have hv : ¬ 127 < c.toNat := by omega
  simp [String.utf8EncodeChar, hv]

/-- The bytes of any other character are all above 0x7F. -/
theorem le_of_mem_utf8EncodeChar {c : Char} (h : 128 ≤ c.toNat) {b : UInt8}
    (hb : b ∈ String.utf8EncodeChar c) : 128 ≤ b.toNat := by
  have hv : ¬ c.val.toNat ≤ 0x7F := by
    rw [show c.val.toNat = c.toNat from rfl]
    omega
  simp only [String.utf8EncodeChar, if_neg hv] at hb
  split at hb
  · rcases (by simpa using hb : _ ∨ _) with rfl | rfl <;> simp <;> omega
  · split at hb
    · rcases (by simpa using hb : _ ∨ _ ∨ _) with rfl | rfl | rfl <;> simp <;> omega
    · rcases (by simpa using hb : _ ∨ _ ∨ _ ∨ _) with rfl | rfl | rfl | rfl <;> simp <;> omega

/-- An ASCII character is in a text just when its byte is among the bytes of the text. -/
theorem mem_utf8_of_ascii {c : Char} (h : c.toNat < 128) {s : Str} :
    UInt8.ofNat c.toNat ∈ utf8 s ↔ c ∈ s := by
  rw [utf8, List.mem_flatMap]
  constructor
  · rintro ⟨d, hd, hmem⟩
    by_cases hascii : d.toNat < 128
    · rw [utf8EncodeChar_of_ascii hascii, List.mem_singleton, ← UInt8.toNat_inj] at hmem
      have hmod : c.toNat % 256 = d.toNat % 256 := by simpa using hmem
      have hcd : c.toNat = d.toNat := by omega
      rwa [Char.toNat_inj.mp hcd]
    · have hge := le_of_mem_utf8EncodeChar (by omega) hmem
      simp at hge
      omega
  · intro hmem
    exact ⟨c, hmem, by rw [utf8EncodeChar_of_ascii h]; exact List.mem_singleton_self _⟩

/-- Where an ASCII character first stands among the bytes, it stands in the text. -/
theorem exists_of_utf8_eq_append {c : Char} (hc : c.toNat < 128) {s : Str} {a b : List UInt8}
    (h : utf8 s = a ++ UInt8.ofNat c.toNat :: b) (ha : UInt8.ofNat c.toNat ∉ a) :
    ∃ x y, s = x ++ c :: y ∧ utf8 x = a ∧ utf8 y = b := by
  have hmem : c ∈ s := (mem_utf8_of_ascii hc).mp (h ▸ by simp)
  obtain ⟨x, y, rfl, hx⟩ := List.eq_append_cons_of_mem hmem
  have hc' : utf8 (c :: y) = UInt8.ofNat c.toNat :: utf8 y := by
    rw [utf8, List.flatMap_cons, utf8EncodeChar_of_ascii hc]
    rfl
  rw [utf8_append, hc'] at h
  -- The byte is first in both places, so what is before it is the same.
  have hbefore {l t : List UInt8} (hl : UInt8.ofNat c.toNat ∉ l) :
      (l ++ UInt8.ofNat c.toNat :: t).takeWhile (· != UInt8.ofNat c.toNat) = l := by
    rw [List.takeWhile_append_of_pos]
    · simp
    · rintro z hz
      exact bne_iff_ne.mpr fun heq ↦ hl (heq ▸ hz)
  have hxa := congrArg (List.takeWhile (· != UInt8.ofNat c.toNat)) h
  rw [hbefore (mt (mem_utf8_of_ascii hc).mp hx), hbefore ha] at hxa
  rw [hxa] at h
  exact ⟨x, y, rfl, hxa, List.cons_injective (List.append_cancel_left h)⟩

theorem utf8_intercalate (sep : Str) (ss : List Str) :
    utf8 (sep.intercalate ss) = (utf8 sep).intercalate (ss.map utf8) := by
  induction ss with
  | nil => rfl
  | cons s ss ih =>
      cases ss with
      | nil => simp only [List.intercalate_singleton, List.map_cons, List.map_nil]
      | cons t ss =>
          rw [List.intercalate_cons_cons, utf8_append, utf8_append, ih]
          simp only [List.map_cons, List.intercalate_cons_cons]

/-! ### Decoding what was encoded -/

theorem within_ofNat {lo hi : UInt8} {n : Nat} (h : n < 256) :
    within lo hi (UInt8.ofNat n) = (decide (lo.toNat ≤ n) && decide (n ≤ hi.toNat)) := by
  have hn : (UInt8.ofNat n).toNat = n := by simp; omega
  simp only [within, UInt8.le_iff_toNat_le, hn]

theorem ofNat_beq {n : Nat} (h : n < 256) (b : UInt8) :
    (UInt8.ofNat n == b) = decide (n = b.toNat) := by
  have hn : (UInt8.ofNat n).toNat = n := by simp; omega
  rw [Bool.eq_iff_iff, beq_iff_eq, decide_eq_true_iff, ← UInt8.toNat_inj, hn]

theorem contBits_ofNat {n : Nat} (h : n < 64) : contBits (UInt8.ofNat (n + 0x80)) = n := by
  simp [contBits]
  omega

theorem secondByte_ofNat {n : Nat} (h : n < 256) :
    secondByte (UInt8.ofNat n) =
      if 0xC2 ≤ n ∧ n ≤ 0xDF then some (0x80, 0xBF)
      else if n = 0xE0 then some (0xA0, 0xBF)
      else if n = 0xED then some (0x80, 0x9F)
      else if 0xE1 ≤ n ∧ n ≤ 0xEF then some (0x80, 0xBF)
      else if n = 0xF0 then some (0x90, 0xBF)
      else if 0xF1 ≤ n ∧ n ≤ 0xF3 then some (0x80, 0xBF)
      else if n = 0xF4 then some (0x80, 0x8F)
      else none := by
  simp only [secondByte, within_ofNat h, ofNat_beq h, Bool.and_eq_true, decide_eq_true_eq]
  rfl

section Shapes

variable {b₀ b₁ b₂ b₃ lo hi : UInt8} (bs : List UInt8)

/-- A character of two bytes. -/
theorem fromUtf8Lossy_two (h₀ : ¬ b₀ < 0x80) (hsecond : secondByte b₀ = some (lo, hi))
    (h₁ : within lo hi b₁ = true) (hlen : b₀ < 0xE0) :
    fromUtf8Lossy (b₀ :: b₁ :: bs) =
      Char.ofNat (b₀.toNat % 32 * 64 + contBits b₁) :: fromUtf8Lossy bs := by
  conv_lhs => unfold fromUtf8Lossy
  simp only [h₀, if_false, hsecond, h₁, Bool.not_true, Bool.false_eq_true, hlen, if_true]

/-- A character of three bytes. -/
theorem fromUtf8Lossy_three (h₀ : ¬ b₀ < 0x80) (hsecond : secondByte b₀ = some (lo, hi))
    (h₁ : within lo hi b₁ = true) (hlen : ¬ b₀ < 0xE0) (h₂ : within 0x80 0xBF b₂ = true)
    (hlen' : b₀ < 0xF0) :
    fromUtf8Lossy (b₀ :: b₁ :: b₂ :: bs) =
      Char.ofNat (b₀.toNat % 16 * 4096 + contBits b₁ * 64 + contBits b₂) :: fromUtf8Lossy bs := by
  conv_lhs => unfold fromUtf8Lossy
  simp only [h₀, if_false, hsecond, h₁, Bool.not_true, Bool.false_eq_true, hlen, h₂, hlen', if_true]

/-- A character of four bytes. -/
theorem fromUtf8Lossy_four (h₀ : ¬ b₀ < 0x80) (hsecond : secondByte b₀ = some (lo, hi))
    (h₁ : within lo hi b₁ = true) (hlen : ¬ b₀ < 0xE0) (h₂ : within 0x80 0xBF b₂ = true)
    (hlen' : ¬ b₀ < 0xF0) (h₃ : within 0x80 0xBF b₃ = true) :
    fromUtf8Lossy (b₀ :: b₁ :: b₂ :: b₃ :: bs) =
      Char.ofNat (b₀.toNat % 8 * 262144 + contBits b₁ * 4096 + contBits b₂ * 64 + contBits b₃) ::
        fromUtf8Lossy bs := by
  conv_lhs => unfold fromUtf8Lossy
  simp only [h₀, if_false, hsecond, h₁, Bool.not_true, Bool.false_eq_true, hlen, h₂, hlen', h₃]

end Shapes

/-- A character is read back from its bytes, whatever follows. -/
theorem fromUtf8Lossy_utf8EncodeChar (c : Char) (bs : List UInt8) :
    fromUtf8Lossy (String.utf8EncodeChar c ++ bs) = c :: fromUtf8Lossy bs := by
  have hvalid : c.toNat < 0xD800 ∨ 0xDFFF < c.toNat ∧ c.toNat < 0x110000 := c.valid
  have hn (n : Nat) (h : n < 256) : (UInt8.ofNat n).toNat = n := by simp; omega
  have hlt (n m : Nat) (h : n < 256) (h' : m < 256) : UInt8.ofNat n < UInt8.ofNat m ↔ n < m := by
    rw [UInt8.lt_iff_toNat_lt, hn n h, hn m h']
  have hchar (n : Nat) (h : n = c.toNat) : Char.ofNat n = c := by rw [h, Char.ofNat_toNat]
  have hwithin (lo hi : UInt8) (n : Nat) (h : n < 256) (h₁ : lo.toNat ≤ n) (h₂ : n ≤ hi.toNat) :
      within lo hi (UInt8.ofNat n) = true := by
    simp [within_ofNat h, h₁, h₂]
  by_cases h1 : c.toNat ≤ 0x7F
  · rw [utf8EncodeChar_of_ascii (by omega), List.singleton_append]
    have hlow : UInt8.ofNat c.toNat < 0x80 := (hlt _ 0x80 (by omega) (by decide)).mpr (by omega)
    conv_lhs => unfold fromUtf8Lossy
    rw [if_pos hlow, hn _ (by omega), Char.ofNat_toNat]
  · by_cases h2 : c.toNat ≤ 0x7FF
    · have henc : String.utf8EncodeChar c =
          [UInt8.ofNat (c.toNat / 64 % 0x20 + 0xC0), UInt8.ofNat (c.toNat % 0x40 + 0x80)] := by
        simp only [String.utf8EncodeChar, show c.val.toNat = c.toNat from rfl, if_neg h1, if_pos h2]
      rw [henc]
      have hsecond : secondByte (UInt8.ofNat (c.toNat / 64 % 0x20 + 0xC0)) = some (0x80, 0xBF) := by
        rw [secondByte_ofNat (by omega), if_pos (by omega)]
      refine (fromUtf8Lossy_two bs ?_ hsecond ?_ ?_).trans ?_
      · exact mt (hlt _ 0x80 (by omega) (by decide)).mp (by omega)
      · exact hwithin _ _ _ (by omega) (by simp) (by simp; omega)
      · exact (hlt _ 0xE0 (by omega) (by decide)).mpr (by omega)
      · rw [hn _ (by omega), contBits_ofNat (by omega), hchar _ (by omega)]
    · by_cases h3 : c.toNat ≤ 0xFFFF
      · have henc : String.utf8EncodeChar c =
            [UInt8.ofNat (c.toNat / 4096 % 0x10 + 0xE0), UInt8.ofNat (c.toNat / 64 % 0x40 + 0x80),
              UInt8.ofNat (c.toNat % 0x40 + 0x80)] := by
          simp only [String.utf8EncodeChar, show c.val.toNat = c.toNat from rfl, if_neg h1, if_neg h2,
            if_pos h3]
        obtain ⟨lo, hi, hsecond, hbyte⟩ : ∃ lo hi,
            secondByte (UInt8.ofNat (c.toNat / 4096 % 0x10 + 0xE0)) = some (lo, hi) ∧
              within lo hi (UInt8.ofNat (c.toNat / 64 % 0x40 + 0x80)) = true := by
          rw [secondByte_ofNat (by omega), if_neg (by omega)]
          by_cases hE0 : c.toNat / 4096 % 0x10 + 0xE0 = 0xE0
          · exact ⟨_, _, if_pos hE0, hwithin _ _ _ (by omega) (by simp; omega) (by simp; omega)⟩
          · by_cases hED : c.toNat / 4096 % 0x10 + 0xE0 = 0xED
            · exact ⟨_, _, by rw [if_neg hE0, if_pos hED],
                hwithin _ _ _ (by omega) (by simp) (by simp; omega)⟩
            · exact ⟨_, _, by rw [if_neg hE0, if_neg hED, if_pos (by omega)],
                hwithin _ _ _ (by omega) (by simp) (by simp; omega)⟩
        rw [henc]
        refine (fromUtf8Lossy_three bs ?_ hsecond hbyte ?_ ?_ ?_).trans ?_
        · exact mt (hlt _ 0x80 (by omega) (by decide)).mp (by omega)
        · exact mt (hlt _ 0xE0 (by omega) (by decide)).mp (by omega)
        · exact hwithin _ _ _ (by omega) (by simp) (by simp; omega)
        · exact (hlt _ 0xF0 (by omega) (by decide)).mpr (by omega)
        · rw [hn _ (by omega), contBits_ofNat (by omega), contBits_ofNat (by omega),
            hchar _ (by omega)]
      · have henc : String.utf8EncodeChar c =
            [UInt8.ofNat (c.toNat / 262144 % 0x08 + 0xF0),
              UInt8.ofNat (c.toNat / 4096 % 0x40 + 0x80), UInt8.ofNat (c.toNat / 64 % 0x40 + 0x80),
              UInt8.ofNat (c.toNat % 0x40 + 0x80)] := by
          simp only [String.utf8EncodeChar, show c.val.toNat = c.toNat from rfl, if_neg h1, if_neg h2,
            if_neg h3]
        obtain ⟨lo, hi, hsecond, hbyte⟩ : ∃ lo hi,
            secondByte (UInt8.ofNat (c.toNat / 262144 % 0x08 + 0xF0)) = some (lo, hi) ∧
              within lo hi (UInt8.ofNat (c.toNat / 4096 % 0x40 + 0x80)) = true := by
          rw [secondByte_ofNat (by omega), if_neg (by omega), if_neg (by omega), if_neg (by omega),
            if_neg (by omega)]
          by_cases hF0 : c.toNat / 262144 % 0x08 + 0xF0 = 0xF0
          · exact ⟨_, _, if_pos hF0, hwithin _ _ _ (by omega) (by simp; omega) (by simp; omega)⟩
          · by_cases hF3 : c.toNat / 262144 % 0x08 + 0xF0 ≤ 0xF3
            · exact ⟨_, _, by rw [if_neg hF0, if_pos (by omega)],
                hwithin _ _ _ (by omega) (by simp) (by simp; omega)⟩
            · exact ⟨_, _, by rw [if_neg hF0, if_neg (by omega), if_pos (by omega)],
                hwithin _ _ _ (by omega) (by simp) (by simp; omega)⟩
        rw [henc]
        refine (fromUtf8Lossy_four bs ?_ hsecond hbyte ?_ ?_ ?_ ?_).trans ?_
        · exact mt (hlt _ 0x80 (by omega) (by decide)).mp (by omega)
        · exact mt (hlt _ 0xE0 (by omega) (by decide)).mp (by omega)
        · exact hwithin _ _ _ (by omega) (by simp) (by simp; omega)
        · exact mt (hlt _ 0xF0 (by omega) (by decide)).mp (by omega)
        · exact hwithin _ _ _ (by omega) (by simp) (by simp; omega)
        · rw [hn _ (by omega), contBits_ofNat (by omega), contBits_ofNat (by omega),
            contBits_ofNat (by omega), hchar _ (by omega)]

/-- Text is read back from its bytes, whatever bytes come after them. -/
theorem fromUtf8Lossy_utf8_append (s : Str) (bs : List UInt8) :
    fromUtf8Lossy (utf8 s ++ bs) = s ++ fromUtf8Lossy bs := by
  induction s with
  | nil => rfl
  | cons c s ih =>
      rw [utf8, List.flatMap_cons, List.append_assoc, ← utf8]
      exact (fromUtf8Lossy_utf8EncodeChar c _).trans (congrArg (c :: ·) ih)

theorem fromUtf8Lossy_utf8 (s : Str) : fromUtf8Lossy (utf8 s) = s := by
  have h := fromUtf8Lossy_utf8_append s []
  rwa [List.append_nil, fromUtf8Lossy, List.append_nil] at h

/-- `from_utf8`: the text that has these bytes, if there is one. -/
def fromUtf8 (bs : List UInt8) : Option Str :=
  if utf8 (fromUtf8Lossy bs) = bs then some (fromUtf8Lossy bs) else none

theorem fromUtf8_eq_some {bs : List UInt8} {s : Str} : fromUtf8 bs = some s ↔ utf8 s = bs := by
  unfold fromUtf8
  constructor
  · intro h
    split at h
    · rename_i hbs
      rw [Option.some.injEq] at h
      exact h ▸ hbs
    · cases h
  · rintro rfl
    rw [fromUtf8Lossy_utf8, if_pos rfl]

/-- The bytes of a text start with those of another one only if the texts do. -/
theorem exists_of_utf8_eq_utf8_append {s t : Str} {b : List UInt8} (h : utf8 s = utf8 t ++ b) :
    ∃ u, s = t ++ u ∧ utf8 u = b := by
  have hs : s = t ++ fromUtf8Lossy b := by
    rw [← fromUtf8Lossy_utf8_append, ← h, fromUtf8Lossy_utf8]
  refine ⟨fromUtf8Lossy b, hs, ?_⟩
  rw [hs, utf8_append] at h
  exact List.append_cancel_left h

/-- Where an ASCII character separates the pieces of a text, they are texts as well. -/
theorem exists_map_utf8_of_intercalate {c : Char} (hc : c.toNat < 128) (sep : Str)
    {ls : List (List UInt8)} (hls : ∀ l ∈ ls, UInt8.ofNat c.toNat ∉ l) {s : Str}
    (h : utf8 s = (utf8 (c :: sep)).intercalate ls) : ∃ ss : List Str, ls = ss.map utf8 := by
  induction ls generalizing s with
  | nil => exact ⟨[], rfl⟩
  | cons l ls ih =>
      cases ls with
      | nil => exact ⟨[s], by rw [List.map_singleton, h, List.intercalate_singleton]⟩
      | cons l' ls =>
          have hsep : utf8 (c :: sep) = UInt8.ofNat c.toNat :: utf8 sep := by
            rw [utf8, List.flatMap_cons, utf8EncodeChar_of_ascii hc]
            rfl
          rw [List.intercalate_cons_cons, List.append_assoc, hsep, List.cons_append] at h
          obtain ⟨x, y, -, hx, hy⟩ := exists_of_utf8_eq_append hc h (hls l List.mem_cons_self)
          obtain ⟨z, -, hz⟩ := exists_of_utf8_eq_utf8_append hy
          obtain ⟨ss, hss⟩ := ih (fun l'' h'' ↦ hls l'' (List.mem_cons_of_mem l h''))
            (hsep ▸ hz)
          exact ⟨x :: ss, by rw [List.map_cons, hx, hss]⟩

example : fromUtf8Lossy (utf8 "가a") = ("가a" : Str) := by decide

example : fromUtf8Lossy [0xE0, 0x80, 0x41] = [replacement, replacement, 'A'] := by decide

end Text
