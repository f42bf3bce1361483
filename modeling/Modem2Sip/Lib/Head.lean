import Mathlib.Data.List.Chain
import Modem2Sip.Lib.Lines
import Modem2Sip.Lib.Text

/-!
# Heads of text lines

A message of a text protocol is a *head*, lines that each end with a carriage return and a line feed,
then an empty line, then the body as it is.  Where the head ends is found again in the bytes as long
as no line is empty or has an end of its own inside, and then so is every line of it.
-/

namespace Head

open Text

def crlf : Str := ['\r', '\n']

/-- The lines, the empty line and the body. -/
def bytes (ls : List Str) (body : List UInt8) : List UInt8 :=
  utf8 (ls.flatMap (· ++ crlf) ++ crlf) ++ body

/-- A line that ends nowhere before its end. -/
structure Line (l : Str) : Prop where
  ne_nil : l ≠ []
  cr : '\r' ∉ l
  lf : '\n' ∉ l

theorem Line.append {a b : Str} (ha : Line a) (hcr : '\r' ∉ b) (hlf : '\n' ∉ b) : Line (a ++ b) where
  ne_nil := List.append_ne_nil_of_left_ne_nil ha.ne_nil b
  cr := List.not_mem_append ha.cr hcr
  lf := List.not_mem_append ha.lf hlf

/-! ## Fields -/

/-- The fields of a head are its lines with a colon; what surrounds the name and the value is dropped. -/
def fields (ls : List Str) : List (Str × Str) :=
  (ls.filterMap (splitAt ':')).map fun kv ↦ (trim kv.1, trim kv.2)

/-- A name and a value. -/
def field (name value : Str) : Str × Str := (name, value)

/-- A field as a line. -/
def line (field : Str × Str) : Str := field.1 ++ ':' :: ' ' :: field.2

theorem trim_blank_cons (s : Str) : trim (' ' :: s) = trim s := rfl

/-- Written fields are read back, but for the blanks around their values. -/
theorem fields_map_line {fs : List (Str × Str)} (h : ∀ f ∈ fs, ':' ∉ f.1 ∧ trim f.1 = f.1) :
    fields (fs.map line) = fs.map fun f ↦ (f.1, trim f.2) := by
  induction fs with
  | nil => rfl
  | cons f fs ih =>
      obtain ⟨hcolon, htrim⟩ := h f List.mem_cons_self
      have ih := ih fun f' hf' ↦ h f' (List.mem_cons_of_mem f hf')
      have hsplit : splitAt ':' (line f) = some (f.1, ' ' :: f.2) := splitAt_append_cons hcolon _
      rw [fields] at ih ⊢
      rw [List.map_cons, List.filterMap_cons_some hsplit, List.map_cons, ih, List.map_cons,
        trim_blank_cons, htrim]

/-- The line of a field, given a name that is in order. -/
theorem line_line {f : Str × Str} (hname : Line f.1) (hcr : '\r' ∉ f.2) (hlf : '\n' ∉ f.2) :
    Line (line f) := by
  refine hname.append ?_ ?_
  · simpa using hcr
  · simpa using hlf

theorem length_flatMap_line_le {fs : List (Str × Str)} {a b : Nat}
    (h : ∀ f ∈ fs, f.1.length ≤ a ∧ f.2.length ≤ b) :
    ((fs.map line).flatMap (· ++ crlf)).length ≤ fs.length * (a + b + 4) := by
  induction fs with
  | nil => exact Nat.zero_le _
  | cons f fs ih =>
      obtain ⟨hname, hvalue⟩ := h f List.mem_cons_self
      have ih := ih fun f' hf' ↦ h f' (List.mem_cons_of_mem f hf')
      have hcrlf : crlf.length = 2 := rfl
      rw [List.map_cons, List.flatMap_cons, List.length_append, List.length_append, line,
        List.length_append, List.length_cons, List.length_cons, List.length_cons, hcrlf,
        Nat.add_mul, Nat.one_mul]
      omega

/-! ## Line feeds -/

/-- Two symbols that are not both line feeds. -/
def Apart (x y : UInt8) : Prop := ¬ (x = 10 ∧ y = 10)

theorem isChain_line {l rest : List UInt8} (h : (10 : UInt8) ∉ l)
    (hrest : (13 :: 10 :: rest).IsChain Apart) : (l ++ 13 :: 10 :: rest).IsChain Apart := by
  induction l with
  | nil => exact hrest
  | cons x l ih =>
      obtain ⟨hx, hl⟩ := Lines.ne_of_not_mem_cons h
      exact (ih hl).cons fun _ _ hboth ↦ hx hboth.1

/-- No two line feeds stand next to each other up to the end of the empty line. -/
theorem isChain_bytes {ls : List Str} (h : ∀ l ∈ ls, Line l) : (bytes ls []).IsChain Apart := by
  have hcr : utf8 crlf = [13, 10] := by decide
  have hapart {x : UInt8} (hx : x ≠ 10) : Apart 10 x := fun hboth ↦ hx hboth.2
  have hline : Apart 13 10 := fun hboth ↦ absurd hboth.1 (by decide)
  rw [bytes, List.append_nil, utf8_append, hcr]
  induction ls with
  | nil => exact List.isChain_cons_cons.mpr ⟨hline, List.isChain_singleton _⟩
  | cons l ls ih =>
      have ih := ih fun l' hl' ↦ h l' (List.mem_cons_of_mem l hl')
      have hl : (10 : UInt8) ∉ utf8 l :=
        mt (mem_utf8_of_ascii (c := '\n') (by decide)).mp (h l List.mem_cons_self).lf
      rw [List.flatMap_cons, utf8_append, utf8_append, hcr, List.append_assoc, List.append_assoc]
      refine isChain_line hl (List.isChain_cons_cons.mpr ⟨hline, ih.cons fun y hy ↦ hapart ?_⟩)
      -- What the next line starts with is no line feed.
      rintro rfl
      cases ls with
      | nil => exact absurd (Option.some.inj hy) (by decide)
      | cons l' ls =>
          have hl' := h l' (List.mem_cons_of_mem l List.mem_cons_self)
          have hne : utf8 l' ≠ [] := fun hnil ↦ hl'.ne_nil (utf8_injective hnil)
          rw [List.flatMap_cons, utf8_append, utf8_append, List.append_assoc, List.append_assoc,
            List.head?_append_of_ne_nil _ hne] at hy
          exact hl'.lf ((mem_utf8_of_ascii (c := '\n') (by decide)).mp (List.mem_of_mem_head? hy))

/-- An empty line made of line feeds alone is behind the head, if there is one. -/
theorem le_of_findSub_lf {ls : List Str} (h : ∀ l ∈ ls, Line l) {body : List UInt8} {n : Nat}
    (hn : Lines.findSub [10, 10] (bytes ls body) = some n) : (bytes ls []).length ≤ n + 1 := by
  by_contra hlt
  obtain ⟨t, ht⟩ := ((Lines.findSub_eq_some_iff (by simp)).mp hn).1
  have hbytes : bytes ls body = bytes ls [] ++ body := by simp [bytes]
  have hsplit : bytes ls [] = (bytes ls []).take n ++ (bytes ls []).drop n :=
    (List.take_append_drop n _).symm
  have hdrop : (bytes ls []).drop n ++ body = 10 :: 10 :: t := by
    rw [← List.drop_append_of_le_length (by omega), ← hbytes, ← ht]
    rfl
  have hchain := isChain_bytes h
  obtain ⟨x, y, s, hxy⟩ : ∃ x y s, (bytes ls []).drop n = x :: y :: s := by
    have hlen : 2 ≤ ((bytes ls []).drop n).length := by
      rw [List.length_drop]
      omega
    cases hd : (bytes ls []).drop n with
    | nil => simp [hd] at hlen
    | cons x s =>
        cases s with
        | nil => simp [hd] at hlen
        | cons y s => exact ⟨x, y, s, rfl⟩
  rw [hxy] at hdrop hsplit
  rw [hsplit] at hchain
  obtain ⟨rfl, hrest⟩ := List.cons.inj hdrop
  obtain ⟨rfl, -⟩ := List.cons.inj hrest
  exact (List.isChain_append_cons_cons.mp hchain).2.1 ⟨rfl, rfl⟩

/-! ## Reading a head back -/

section ReadBack

variable {ls : List Str} (hne : ls ≠ []) (h : ∀ l ∈ ls, Line l) (body : List UInt8)

include hne in
/-- The head and what follows it. -/
theorem bytes_eq :
    bytes ls body = utf8 (crlf.intercalate ls) ++ [13, 10, 13, 10] ++ body := by
  have hcr : utf8 crlf = [13, 10] := by decide
  rw [bytes, Lines.flatMap_append_eq hne, utf8_append, utf8_append, hcr]
  simp

include h in
theorem bytes_lines : ∀ l ∈ ls.map utf8, l ≠ [] ∧ (13 : UInt8) ∉ l := by
  intro l hl
  obtain ⟨s, hs, rfl⟩ := List.mem_map.mp hl
  refine ⟨fun hnil ↦ (h s hs).ne_nil (utf8_injective hnil), ?_⟩
  exact mt (mem_utf8_of_ascii (c := '\r') (by decide)).mp (h s hs).cr

include hne h in
/-- The first empty line is the one behind the head. -/
theorem findSub_bytes :
    Lines.findSub [13, 10, 13, 10] (bytes ls body) = some (utf8 (crlf.intercalate ls)).length := by
  have hcr : utf8 crlf = [13, 10] := by decide
  have hfind := Lines.findSub_intercalate (a := (13 : UInt8)) (b := 10) (by decide)
    (by simpa using hne) (bytes_lines h) body
  rw [bytes_eq hne, utf8_intercalate, hcr, List.append_assoc]
  exact hfind

include hne in
theorem take_bytes :
    (bytes ls body).take (utf8 (crlf.intercalate ls)).length = utf8 (crlf.intercalate ls) := by
  rw [bytes_eq hne, List.append_assoc, List.take_left]

include hne in
theorem drop_bytes : (bytes ls body).drop ((utf8 (crlf.intercalate ls)).length + 4) = body := by
  rw [bytes_eq hne]
  exact List.drop_left' (by rw [List.length_append]; rfl)

include hne h in
/-- The lines of the head. -/
theorem splitPair_lines : Lines.splitPair '\r' '\n' (crlf.intercalate ls) = ls :=
  Lines.splitPair_intercalate hne fun l hl ↦ (h l hl).cr

include hne h in
/-- The same lines, if it is the line feeds that the text is cut at. -/
theorem trimmed_lines :
    ((crlf.intercalate ls).splitOn '\n').map (trimEndMatches '\r') = ls := by
  induction ls with
  | nil => exact absurd rfl hne
  | cons l ls ih =>
      have hl := h l List.mem_cons_self
      have hkeep : trimEndMatches '\r' l = l := by
        refine List.rdropWhile_eq_self_iff.mpr fun hnil hlast ↦ hl.cr ?_
        rw [← beq_iff_eq.mp hlast]
        exact List.getLast_mem hnil
      have hcut : trimEndMatches '\r' (l ++ ['\r']) = l := by
        rw [trimEndMatches, List.rdropWhile_concat_pos _ _ _ (by decide)]
        exact hkeep
      cases ls with
      | nil =>
          rw [List.intercalate_singleton, List.splitOn_eq_singleton hl.lf, List.map_singleton, hkeep]
      | cons l' ls =>
          have ih := ih (List.cons_ne_nil _ _) fun l'' h'' ↦ h l'' (List.mem_cons_of_mem l h'')
          have hlf : '\n' ∉ l ++ ['\r'] := List.not_mem_append hl.lf (by decide)
          have htext : crlf.intercalate (l :: l' :: ls) =
              (l ++ ['\r']) ++ '\n' :: crlf.intercalate (l' :: ls) := by
            rw [List.intercalate_cons_cons]
            simp [crlf]
          rw [htext, List.splitOn_append_cons_self_of_not_mem hlf, List.map_cons, hcut, ih]

end ReadBack

end Head
