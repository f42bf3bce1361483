import Modem2Sip.Lib.Text

/-!
# Text between tags

A page is a sequence of tags and of text in which the three symbols that mean something to a reader of
markup are written as references.  A reader that goes through the page symbol by symbol finds the tags
that were written and no others, and the text as it was before.
-/

namespace Markup

open Text

inductive Piece where
  /-- What stands between the angle brackets. -/
  | tag (s : Str)
  | text (s : Str)
deriving DecidableEq, Repr

/-! ## Writing -/

/-- Every occurrence of a symbol, replaced. -/
def replace (c : Char) (r s : Str) : Str := s.flatMap fun d ↦ if d = c then r else [d]

/-- The reference to a symbol, or the symbol. -/
def entity (c : Char) : Str :=
  if c = '&' then "&amp;" else if c = '<' then "&lt;" else if c = '>' then "&gt;" else [c]

def escape (s : Str) : Str := s.flatMap entity

def Piece.write : Piece → Str
  | .tag s => '<' :: (s ++ ['>'])
  | .text s => escape s

def write (ps : List Piece) : Str := ps.flatMap Piece.write

/-! ## Reading -/

/-- Where a reader is: in text, in a reference behind some text, or in a tag, inside of quotation
marks or not. -/
inductive Mode where
  | text (s : Str)
  | reference (s name : Str)
  | tag (s : Str) (quoted : Bool)
deriving DecidableEq, Repr

/-- What has been read, and what is being read. -/
structure Scan where
  pieces : List Piece
  mode : Mode
deriving DecidableEq, Repr

/-- The text that has come together, if there is any. -/
def flush (s : Str) : List Piece := if s = [] then [] else [.text s]

def named (name : Str) : Option Char :=
  if name = "amp" then some '&' else if name = "lt" then some '<' else if name = "gt" then some '>'
  else none

def step (sc : Scan) (c : Char) : Option Scan :=
  match sc.mode with
  | .text s =>
    if c = '<' then some ⟨sc.pieces ++ flush s, .tag [] false⟩
    else if c = '&' then some ⟨sc.pieces, .reference s []⟩
    else some ⟨sc.pieces, .text (s ++ [c])⟩
  | .reference s name =>
    if c = ';' then (named name).map fun d ↦ ⟨sc.pieces, .text (s ++ [d])⟩
    else some ⟨sc.pieces, .reference s (name ++ [c])⟩
  | .tag s quoted =>
    if c = '>' ∧ quoted = false then some ⟨sc.pieces ++ [.tag s], .text []⟩
    else some ⟨sc.pieces, .tag (s ++ [c]) (if c = '"' then !quoted else quoted)⟩

def run (sc : Scan) (s : Str) : Option Scan := s.foldlM step sc

/-- A page does not end inside of a reference or a tag. -/
def Scan.finish (sc : Scan) : Option (List Piece) :=
  match sc.mode with
  | .text s => some (sc.pieces ++ flush s)
  | _ => none

/-- The pieces of a page. -/
def scan (s : Str) : Option (List Piece) := (run ⟨[], .text []⟩ s).bind Scan.finish

/-! ## What is read back -/

/-- The pieces with neighbouring texts put together, behind some text. -/
def merge : Str → List Piece → List Piece
  | s, [] => flush s
  | s, .text t :: ps => merge (s ++ t) ps
  | s, .tag t :: ps => flush s ++ .tag t :: merge [] ps

/-- A tag ends where it is closed, and not inside of it. -/
def closed : Bool → Str → Bool
  | quoted, [] => !quoted
  | quoted, c :: s =>
    !(c == '>' && !quoted) && closed (if c = '"' then !quoted else quoted) s

theorem run_append (sc : Scan) (s t : Str) : run sc (s ++ t) = (run sc s).bind fun sc' ↦ run sc' t :=
  List.foldlM_append

theorem run_cons (sc : Scan) (c : Char) (s : Str) :
    run sc (c :: s) = (step sc c).bind fun sc' ↦ run sc' s := List.foldlM_cons

theorem replace_append (c : Char) (w s t : Str) : replace c w (s ++ t) = replace c w s ++ replace c w t :=
  List.flatMap_append

/-- The three passes of replacements are one. -/
theorem replace_eq_escape (s : Str) :
    replace '>' "&gt;" (replace '<' "&lt;" (replace '&' "&amp;" s)) = escape s := by
  induction s with
  | nil => rfl
  | cons c s ih =>
      have hone : replace '>' "&gt;" (replace '<' "&lt;" (replace '&' "&amp;" [c])) = entity c := by
        by_cases hamp : c = '&'
        · rw [hamp]
          decide
        by_cases hlt : c = '<'
        · rw [hlt]
          decide
        by_cases hgt : c = '>'
        · rw [hgt]
          decide
        have hkeep (d : Char) (w : Str) (h : ¬ c = d) : replace d w [c] = [c] :=
          (List.flatMap_singleton ..).trans (if_neg h)
        unfold entity
        rw [hkeep '&' _ hamp, hkeep '<' _ hlt, hkeep '>' _ hgt, if_neg hamp, if_neg hlt, if_neg hgt]
      have hsplit : replace '>' "&gt;" (replace '<' "&lt;" (replace '&' "&amp;" (c :: s))) =
          replace '>' "&gt;" (replace '<' "&lt;" (replace '&' "&amp;" [c])) ++
            replace '>' "&gt;" (replace '<' "&lt;" (replace '&' "&amp;" s)) := by
        rw [show c :: s = [c] ++ s from rfl, replace_append, replace_append, replace_append]
      rw [hsplit, hone, ih]
      rfl

/-- A symbol that has been written as text is read as text. -/
theorem run_entity (ps : List Piece) (s : Str) (c : Char) :
    run ⟨ps, .text s⟩ (entity c) = some ⟨ps, .text (s ++ [c])⟩ := by
  by_cases hamp : c = '&'
  · rw [hamp]
    rfl
  by_cases hlt : c = '<'
  · rw [hlt]
    rfl
  by_cases hgt : c = '>'
  · rw [hgt]
    rfl
  have hstep : step ⟨ps, .text s⟩ c = some ⟨ps, .text (s ++ [c])⟩ :=
    (if_neg hlt).trans (if_neg hamp)
  have hentity : entity c = [c] := (if_neg hamp).trans ((if_neg hlt).trans (if_neg hgt))
  rw [hentity, run_cons, hstep]
  rfl

theorem run_escape (ps : List Piece) (s t : Str) :
    run ⟨ps, .text s⟩ (escape t) = some ⟨ps, .text (s ++ t)⟩ := by
  induction t generalizing s with
  | nil =>
      rw [List.append_nil]
      rfl
  | cons c t ih =>
      rw [escape, List.flatMap_cons, run_append, run_entity, Option.bind_some]
      have h := ih (s ++ [c])
      rwa [List.append_assoc, List.singleton_append] at h

/-- The inside of a tag, up to where it is closed. -/
theorem run_closed (ps : List Piece) {quoted : Bool} {t : Str} (h : closed quoted t = true) (s : Str) :
    run ⟨ps, .tag s quoted⟩ (t ++ ['>']) = some ⟨ps ++ [.tag (s ++ t)], .text []⟩ := by
  induction t generalizing quoted s with
  | nil =>
      have hquoted : quoted = false := by simpa [closed] using h
      have hstep : step ⟨ps, .tag s quoted⟩ '>' = some ⟨ps ++ [.tag s], .text []⟩ :=
        if_pos ⟨rfl, hquoted⟩
      rw [List.nil_append, run_cons, hstep, List.append_nil]
      rfl
  | cons c t ih =>
      rw [closed, Bool.and_eq_true] at h
      have hopen : ¬ (c = '>' ∧ quoted = false) := by
        rintro ⟨rfl, rfl⟩
        exact Bool.noConfusion h.1
      have hstep : step ⟨ps, .tag s quoted⟩ c =
          some ⟨ps, .tag (s ++ [c]) (if c = '"' then !quoted else quoted)⟩ := if_neg hopen
      rw [List.cons_append, run_cons, hstep, Option.bind_some, ih h.2, List.append_assoc]
      rfl

theorem run_tag (ps : List Piece) (s : Str) {t : Str} (h : closed false t = true) :
    run ⟨ps, .text s⟩ (Piece.tag t).write = some ⟨ps ++ flush s ++ [.tag t], .text []⟩ := by
  have hstep : step ⟨ps, .text s⟩ '<' = some ⟨ps ++ flush s, .tag [] false⟩ := rfl
  rw [Piece.write, run_cons, hstep, Option.bind_some, run_closed _ h, List.nil_append]

theorem run_write {ps : List Piece} (h : ∀ t, .tag t ∈ ps → closed false t = true)
    (before : List Piece) (s : Str) :
    (run ⟨before, .text s⟩ (write ps)).bind Scan.finish = some (before ++ merge s ps) := by
  induction ps generalizing before s with
  | nil => rfl
  | cons p ps ih =>
      have hrest : ∀ t, .tag t ∈ ps → closed false t = true :=
        fun t ht ↦ h t (List.mem_cons_of_mem p ht)
      rw [write, List.flatMap_cons, run_append]
      cases p with
      | text t =>
          rw [Piece.write, run_escape, Option.bind_some]
          exact ih hrest before (s ++ t)
      | tag t =>
          rw [run_tag before s (h t List.mem_cons_self), Option.bind_some]
          have hall : before ++ merge s (.tag t :: ps) =
              before ++ flush s ++ [.tag t] ++ merge [] ps := by simp [merge]
          rw [hall]
          exact ih hrest (before ++ flush s ++ [.tag t]) []

/-- The pieces that were written are read back, whatever the texts are. -/
theorem scan_write {ps : List Piece} (h : ∀ t, .tag t ∈ ps → closed false t = true) :
    scan (write ps) = some (merge [] ps) := run_write h [] []

theorem mem_flush {s : Str} {p : Piece} (h : p ∈ flush s) : p = .text s := by
  unfold flush at h
  split at h
  · cases h
  · exact List.mem_singleton.mp h

/-- No tag is made up, and none is lost. -/
theorem tag_mem_merge {s t : Str} {ps : List Piece} : .tag t ∈ merge s ps ↔ .tag t ∈ ps := by
  induction ps generalizing s with
  | nil =>
      refine iff_of_false (fun h ↦ ?_) List.not_mem_nil
      cases mem_flush h
  | cons p ps ih =>
      cases p with
      | text u => simp [merge, ih]
      | tag u =>
          have hflush : Piece.tag t ∉ flush s := fun h ↦ by cases mem_flush h
          simp [merge, ih, hflush]

end Markup
