import Modem2Sip.Mms.Http

/-!
# Chunked bodies

A chunked body is a list of chunks, each behind a line that gives its size.  One
iteration of `dechunk` depends on nothing but the bytes that are ahead of it
(`chunkAt`), so the whole loop is a function on byte strings, `unchunk`, and never
stops for an index outside the data or a position that overflows.  What that function
makes of an encoded body, and of a body that was cut off anywhere, is then a matter of
lists.
-/

namespace Modem2Sip.Mms.Http

open Cursor Text

variable {w : Nat}

/-! ## The loop as a function on byte strings -/

/-- The size that a line gives. -/
def lineSize (w : Nat) (line : List UInt8) : Option Nat :=
  parseUnsigned 16 (2 ^ w) (trim (before ';' (fromUtf8Lossy line)))

/-- What is ahead: a chunk and what comes behind it, or the last bytes to put out. -/
def chunkAt (w : Nat) (rest : List UInt8) : LoopStep (List UInt8 × List UInt8) (List UInt8) :=
  match find rest [13, 10] with
  | none => .done []
  | some eol =>
    match lineSize w (rest.take eol) with
    | none => .done []
    | some size =>
      if size = 0 then .done []
      else if size ≤ (rest.drop (eol + 2)).length then
        .cont ((rest.drop (eol + 2)).take size, (rest.drop (eol + 2)).drop (size + 2))
      else .done (rest.drop (eol + 2))

theorem chunkAt_nil : chunkAt w [] = .done [] := rfl

/-- A chunk and what comes behind it are ahead, behind a line that is not empty. -/
theorem length_add_lt_of_chunkAt {rest data t : List UInt8} (h : chunkAt w rest = .cont (data, t)) :
    data.length + t.length < rest.length := by
  unfold chunkAt at h
  split at h
  · cases h
  rename_i eol hfind
  have hle := Lines.le_length_of_findSub (by simp) hfind
  split at h
  · cases h
  split at h
  · cases h
  split at h
  · rename_i hsize
    cases h
    simp only [List.length_take, List.length_drop, List.length_cons, List.length_nil] at hle hsize ⊢
    omega
  · cases h

theorem length_lt_of_chunkAt {rest data t : List UInt8} (h : chunkAt w rest = .cont (data, t)) :
    t.length < rest.length :=
  Nat.lt_of_le_of_lt (Nat.le_add_left _ _) (length_add_lt_of_chunkAt h)

theorem length_le_of_chunkAt {rest data : List UInt8} (h : chunkAt w rest = .done data) :
    data.length ≤ rest.length := by
  unfold chunkAt at h
  split at h
  · cases h
    exact Nat.zero_le _
  split at h
  · cases h
    exact Nat.zero_le _
  split at h
  · cases h
    exact Nat.zero_le _
  split at h
  · cases h
  · cases h
    rw [List.length_drop]
    exact Nat.sub_le _ _

/-- An iteration puts out what is ahead, and stops for nothing: the position may be past the end
when the delimiter of the last chunk is missing. -/
theorem wp_dechunkStep {c : Cursor UInt8} (hfits : c.data.length < 2 ^ w) (out : List UInt8) :
    Wp (dechunkStep w out) c fun r c' ↦
      match chunkAt w c.rest with
      | .done data => r = .done (out ++ data)
      | .cont (data, t) => r = .cont (out ++ data) ∧ c'.data = c.data ∧ c'.rest = t := by
  have hnone : (.done out : LoopStep (List UInt8) (List UInt8)) = .done (out ++ []) := by
    rw [List.append_nil]
  refine (wp_atEnd ?_).bind
  by_cases hend : c.data.length ≤ c.pos
  · rw [decide_eq_true hend, show c.rest = [] from List.drop_eq_nil_of_le hend, chunkAt_nil]
    exact wp_pure.mpr hnone
  rw [decide_eq_false hend]
  refine (wp_get ?_).bind
  refine (wp_sub (Nat.le_of_not_le hend) le_rfl ?_).bind
  rw [List.take_length, ← rest, chunkAt]
  cases hfind : find c.rest [13, 10] with
  | none => exact wp_pure.mpr hnone
  | some eol =>
    have hle : eol + 2 ≤ c.rest.length := Lines.le_length_of_findSub (by simp) hfind
    have hlen : c.rest.length = c.data.length - c.pos := List.length_drop
    have hvalid : Valid w c := ⟨Nat.le_of_not_le hend, hfits⟩
    refine (wp_sliceHere hvalid (by rw [← length_rest]; omega) ?_).bind
    dsimp only
    rw [lineSize]
    cases parseUnsigned 16 (2 ^ w) (trim (before ';' (fromUtf8Lossy (c.rest.take eol)))) with
    | none => exact wp_pure.mpr hnone
    | some size =>
      dsimp only
      refine (wp_advance (by omega) ?_).bind
      split
      · exact wp_pure.mpr hnone
      · have hrest : c.rest.drop (eol + 2) = (c.skip (eol + 2)).rest := (rest_skip _).symm
        have hpos : (c.skip (eol + 2)).pos ≤ (c.skip (eol + 2)).data.length := by
          rw [skip]
          dsimp only
          omega
        have hlen' : (c.skip (eol + 2)).rest.length =
            (c.skip (eol + 2)).data.length - (c.skip (eol + 2)).pos := List.length_drop
        have hfits' : (c.skip (eol + 2)).data.length < 2 ^ w := hfits
        rw [hrest]
        refine (wp_get ?_).bind
        generalize hc : c.skip (eol + 2) = c' at hpos hlen' hfits'
        have hdata : c'.data = c.data := by rw [← hc]; rfl
        by_cases hfull : size ≤ c'.rest.length
        · rw [if_pos hfull, if_pos (by omega)]
          refine (wp_sub (Nat.le_add_right _ _) (by omega) ?_).bind
          refine (wp_seek ?_).bind
          refine wp_pure.mpr ⟨by rw [take_rest], hdata, ?_⟩
          -- A saturated position is past the end, as the one it stands for would be.
          rw [rest, rest, List.drop_drop]
          rcases Nat.le_total (c'.pos + size + 2) (2 ^ w - 1) with hmin | hmin
          · rw [Nat.min_eq_left hmin, Nat.add_assoc]
          · rw [Nat.min_eq_right hmin, List.drop_eq_nil_of_le (by dsimp only; omega),
              List.drop_eq_nil_of_le (by omega)]
        · rw [if_neg hfull, if_neg (by omega)]
          refine (wp_sub hpos le_rfl ?_).bind
          exact wp_pure.mpr (by rw [List.take_length, rest])

/-- What is put out for a byte string. -/
def unchunk (w : Nat) (rest : List UInt8) : List UInt8 :=
  match _h : chunkAt w rest with
  | .done data => data
  | .cont (data, t) => data ++ unchunk w t
termination_by rest.length
decreasing_by exact length_lt_of_chunkAt _h

theorem unchunk_done {rest data : List UInt8} (h : chunkAt w rest = .done data) :
    unchunk w rest = data := by
  rw [unchunk]
  split <;> simp_all

theorem unchunk_cont {rest data t : List UInt8} (h : chunkAt w rest = .cont (data, t)) :
    unchunk w rest = data ++ unchunk w t := by
  rw [unchunk]
  split <;> simp_all

/-- What is put out was there. -/
theorem length_unchunk_le (rest : List UInt8) : (unchunk w rest).length ≤ rest.length := by
  induction hn : rest.length using Nat.strong_induction_on generalizing rest with
  | _ n ih =>
    subst hn
    have hat : ∀ r, chunkAt w rest = r → (unchunk w rest).length ≤ rest.length := by
      rintro (⟨data, t⟩ | data) hat
      · rw [unchunk_cont hat, List.length_append]
        have hrest := ih t.length (length_lt_of_chunkAt hat) t rfl
        have hboth := length_add_lt_of_chunkAt hat
        omega
      · rw [unchunk_done hat]
        exact length_le_of_chunkAt hat
    exact hat _ rfl

theorem dechunk_eq {data : List UInt8} (hfits : data.length < 2 ^ w) :
    dechunk w data = .ok (unchunk w data) := by
  have hloop : Wp (loopHere (dechunkStep w) []) ⟨data, 0⟩ fun out _ ↦ out = unchunk w data := by
    refine Wp.loopHere (fun out c ↦ c.data = data ∧ out ++ unchunk w c.rest = unchunk w data)
      ?_ ⟨rfl, rfl⟩
    rintro out c ⟨hdata, hout⟩
    refine (wp_dechunkStep (hdata ▸ hfits) out).mono fun r c' hr ↦ ?_
    cases hat : chunkAt w c.rest with
    | done d =>
      rw [hat] at hr
      obtain rfl : r = .done (out ++ d) := hr
      rw [← hout, unchunk_done hat]
    | cont dt =>
      rw [hat] at hr
      obtain ⟨rfl, hsame, hrest⟩ : r = .cont (out ++ dt.1) ∧ c'.data = c.data ∧ c'.rest = dt.2 := hr
      refine ⟨⟨hsame.trans hdata, ?_⟩, ?_⟩
      · rw [← hout, unchunk_cont hat, hrest, List.append_assoc]
      · rw [← length_rest, ← length_rest, hrest]
        exact length_lt_of_chunkAt hat
  obtain ⟨out, c, hrun, rfl⟩ := hloop
  rw [dechunk, hrun]
  rfl

/-! ## Chunked encodings -/

/-- A line that gives the size `n`, without its end: the digits in either case and after any number
of zeros, and behind them no carriage return, and nothing but blanks before the first semicolon. -/
structure SizeLine (n : Nat) where
  digits : Str
  ext : List UInt8
  digits_ne : digits ≠ []
  value : digitsValue 16 0 digits = some n
  no_cr : 13 ∉ ext
  blank : ∀ b ∈ ext.takeWhile (· != 59), b = 32 ∨ b = 9

def SizeLine.text {n : Nat} (l : SizeLine n) : List UInt8 := utf8 l.digits ++ l.ext

structure Chunk where
  data : List UInt8
  data_ne : data ≠ []
  size : SizeLine data.length

def Chunk.encode (c : Chunk) : List UInt8 := c.size.text ++ [13, 10] ++ (c.data ++ [13, 10])

/-- The chunks, the line that gives the size 0, and what comes after it, which nothing looks at. -/
structure ChunkedBody where
  chunks : List Chunk
  last : SizeLine 0
  trailer : List UInt8

def ChunkedBody.encode (b : ChunkedBody) : List UInt8 :=
  b.chunks.flatMap Chunk.encode ++ (b.last.text ++ [13, 10] ++ b.trailer)

def ChunkedBody.content (b : ChunkedBody) : List UInt8 := b.chunks.flatMap Chunk.data

section SizeLine

variable {n : Nat} (l : SizeLine n)

/-- A digit is none of the characters that the reader of a size line looks for. -/
theorem SizeLine.digit_cases {c : Char} (hc : c ∈ l.digits) :
    isWhitespace c = false ∧ c ≠ ';' ∧ c ≠ '\r' := by
  have hdigit := isSome_toDigit_of_mem l.value c hc
  have hascii : c.toNat < 128 := by
    by_contra hge
    have hnone : toDigit 16 c = none := by
      have h₁ : ¬ c.toNat ≤ 57 := by omega
      have h₂ : ¬ c.toNat ≤ 102 := by omega
      have h₃ : ¬ c.toNat ≤ 70 := by omega
      simp [toDigit, h₁, h₂, h₃]
    rw [hnone] at hdigit
    cases hdigit
  exact forall_ascii (p := fun c ↦ (toDigit 16 c).isSome = true →
    isWhitespace c = false ∧ c ≠ ';' ∧ c ≠ '\r') (by decide) hascii hdigit

theorem SizeLine.not_mem_text : 13 ∉ l.text := by
  intro h
  rcases List.mem_append.mp h with h | h
  · exact (l.digit_cases ((mem_utf8_of_ascii (c := '\r') (by decide)).mp h)).2.2 rfl
  · exact l.no_cr h

/-- Blanks are text, as white space. -/
theorem exists_blank {bs : List UInt8} (h : ∀ b ∈ bs, b = 32 ∨ b = 9) :
    ∃ s, bs = utf8 s ∧ ∀ c ∈ s, isWhitespace c = true ∧ c ≠ ';' := by
  induction bs with
  | nil =>
    refine ⟨[], rfl, ?_⟩
    intro c hc
    cases hc
  | cons b bs ih =>
    obtain ⟨s, rfl, hs⟩ := ih fun b' hb ↦ h b' (List.mem_cons_of_mem b hb)
    rcases h b List.mem_cons_self with rfl | rfl
    · exact ⟨' ' :: s, rfl, List.forall_mem_cons.mpr ⟨by decide, hs⟩⟩
    · exact ⟨'\t' :: s, rfl, List.forall_mem_cons.mpr ⟨by decide, hs⟩⟩

/-- The size is read from its line if it is one that `usize` can hold. -/
theorem SizeLine.lineSize_text : lineSize w l.text = (some n).filter (· < 2 ^ w) := by
  obtain ⟨blank, hblank, hspace⟩ := exists_blank l.blank
  have htext : trim (before ';' (fromUtf8Lossy l.text)) = l.digits := by
    have hsplit : fromUtf8Lossy l.text =
        (l.digits ++ blank) ++ fromUtf8Lossy (l.ext.dropWhile (· != 59)) := by
      rw [text, fromUtf8Lossy_utf8_append, List.append_assoc, ← fromUtf8Lossy_utf8_append blank,
        ← hblank, List.takeWhile_append_dropWhile]
    have hno : ';' ∉ l.digits ++ blank := by
      intro h
      rcases List.mem_append.mp h with h | h
      · exact (l.digit_cases h).2.1 rfl
      · exact (hspace _ h).2 rfl
    have hbefore : before ';' (fromUtf8Lossy l.text) = l.digits ++ blank := by
      rw [hsplit]
      cases hrest : l.ext.dropWhile (· != 59) with
      | nil =>
        rw [fromUtf8Lossy, List.append_nil]
        refine List.takeWhile_eq_self_iff.mpr fun c hc ↦ bne_iff_ne.mpr ?_
        rintro rfl
        exact hno hc
      | cons b bs =>
        have hb : b = 59 := by
          have h := List.dropWhile_get_zero_not (· != (59 : UInt8)) l.ext (by simp [hrest])
          simpa [hrest] using h
        subst hb
        exact before_append_cons _ hno
    rw [hbefore]
    exact trim_append_blank (fun c hc ↦ (l.digit_cases hc).1) fun c hc ↦ (hspace c hc).1
  rw [lineSize, htext, parseUnsigned_of_digitsValue l.digits_ne l.value]

/-- Before the end of its line, a size is not looked at. -/
theorem SizeLine.chunkAt_cut {p : List UInt8} (hp : p <+: l.text ++ [13, 10])
    (hne : p ≠ l.text ++ [13, 10]) : chunkAt w p = .done [] := by
  have hfind : find p [13, 10] = none := Lines.findSub_of_prefix l.not_mem_text hp hne
  rw [chunkAt, hfind]

theorem SizeLine.chunkAt_append (t : List UInt8) : chunkAt w (l.text ++ [13, 10] ++ t) =
    if n < 2 ^ w ∧ n ≠ 0 then
      if n ≤ t.length then .cont (t.take n, t.drop (n + 2)) else .done t
    else .done [] := by
  have hfind : find (l.text ++ [13, 10] ++ t) [13, 10] = some l.text.length := by
    rw [List.append_assoc]
    exact (Lines.findSub_append l.not_mem_text [10] _).trans rfl
  have hdrop : (l.text ++ [13, 10] ++ t).drop (l.text.length + 2) = t :=
    List.drop_left' (by rw [List.length_append]; rfl)
  have htake : (l.text ++ [13, 10] ++ t).take l.text.length = l.text := by
    rw [List.append_assoc]
    exact List.take_left
  rw [chunkAt, hfind]
  dsimp only
  rw [hdrop, htake, l.lineSize_text, Option.filter_some]
  by_cases hsize : n < 2 ^ w
  · rw [if_pos (decide_eq_true hsize)]
    by_cases hzero : n = 0
    · rw [if_neg fun h ↦ h.2 hzero]
      exact if_pos hzero
    · rw [if_pos ⟨hsize, hzero⟩]
      exact if_neg hzero
  · have hfilter : ¬ decide (n < 2 ^ w) = true := fun h ↦ hsize (of_decide_eq_true h)
    rw [if_neg hfilter, if_neg fun h ↦ hsize h.1]

end SizeLine

/-! ## Encodings, whole and cut off -/

theorem Chunk.unchunk_encode_append (c : Chunk) (hsize : c.data.length < 2 ^ w) (t : List UInt8) :
    unchunk w (c.encode ++ t) = c.data ++ unchunk w t := by
  refine unchunk_cont ?_
  have hne : c.data.length ≠ 0 := fun h ↦ c.data_ne (List.eq_nil_of_length_eq_zero h)
  rw [encode, List.append_assoc, c.size.chunkAt_append, if_pos ⟨hsize, hne⟩, if_pos (by simp),
    List.append_assoc, List.take_left]
  rw [← List.append_assoc, List.drop_left' (by simp)]

theorem unchunk_encode (b : ChunkedBody) (hfits : b.encode.length < 2 ^ w) :
    unchunk w b.encode = b.content := by
  obtain ⟨chunks, last, trailer⟩ := b
  unfold ChunkedBody.encode ChunkedBody.content at *
  dsimp only at *
  induction chunks with
  | nil =>
    refine unchunk_done ?_
    rw [List.flatMap_nil, List.nil_append, last.chunkAt_append, if_neg fun h ↦ h.2 rfl]
    rfl
  | cons c chunks ih =>
    rw [List.flatMap_cons, List.append_assoc] at hfits ⊢
    rw [List.length_append] at hfits
    have hsize : c.data.length < 2 ^ w := by
      have hle : c.data.length ≤ c.encode.length := by simp [Chunk.encode]; omega
      omega
    rw [c.unchunk_encode_append hsize, ih (by omega), List.flatMap_cons]

/-- A chunk that was cut off gives what there is of its data. -/
theorem Chunk.unchunk_cut (c : Chunk) {p : List UInt8} (hp : p <+: c.encode) (hne : p ≠ c.encode) :
    unchunk w p <+: c.data := by
  rcases prefix_append_cases hp with ⟨hline, hcut⟩ | ⟨q, rfl, hq⟩
  · rw [unchunk_done (c.size.chunkAt_cut hline hcut)]
    exact List.nil_prefix
  · have hat := c.size.chunkAt_append (w := w) q
    rcases prefix_append_cases hq with ⟨hdata, hcut⟩ | ⟨r, rfl, hr⟩
    · have hshort : ¬ c.data.length ≤ q.length := fun hle ↦ hcut (hdata.eq_of_length_le hle)
      rw [if_neg hshort] at hat
      split at hat <;> rw [unchunk_done hat]
      · exact hdata
      · exact List.nil_prefix
    · have hfull : c.data.length ≤ (c.data ++ r).length := by simp
      have hend : (c.data ++ r).drop (c.data.length + 2) = [] := by
        refine List.drop_eq_nil_of_le ?_
        rw [List.length_append]
        exact Nat.add_le_add_left hr.length_le _
      rw [if_pos hfull, List.take_left, hend] at hat
      split at hat
      · rw [unchunk_cont hat, unchunk_done chunkAt_nil, List.append_nil]
      · rw [unchunk_done hat]
        exact List.nil_prefix

/-- The line behind the last chunk gives nothing, however much of it is there. -/
theorem unchunk_last (b : ChunkedBody) {p : List UInt8} (hp : p <+: b.last.text ++ [13, 10] ++ b.trailer) :
    unchunk w p = [] := by
  rcases prefix_append_cases hp with ⟨hline, hcut⟩ | ⟨q, rfl, -⟩
  · exact unchunk_done (b.last.chunkAt_cut hline hcut)
  · refine unchunk_done ?_
    rw [b.last.chunkAt_append, if_neg fun h ↦ h.2 rfl]

theorem unchunk_prefix (b : ChunkedBody) {p : List UInt8} (hp : p <+: b.encode) :
    unchunk w p <+: b.content := by
  obtain ⟨chunks, last, trailer⟩ := b
  unfold ChunkedBody.encode ChunkedBody.content at *
  dsimp only at *
  induction chunks generalizing p with
  | nil =>
    rw [unchunk_last ⟨[], last, trailer⟩ hp]
    exact List.nil_prefix
  | cons c chunks ih =>
    rw [List.flatMap_cons, List.append_assoc] at hp
    rw [List.flatMap_cons]
    rcases prefix_append_cases hp with ⟨hcut, hne⟩ | ⟨q, rfl, hq⟩
    · exact (c.unchunk_cut hcut hne).trans (List.prefix_append _ _)
    · by_cases hsize : c.data.length < 2 ^ w
      · rw [c.unchunk_encode_append hsize]
        exact (List.prefix_append_right_inj _).mpr (ih hq)
      · have hat : chunkAt w (c.encode ++ q) = .done [] := by
          rw [Chunk.encode, List.append_assoc, c.size.chunkAt_append, if_neg fun h ↦ hsize h.1]
        rw [unchunk_done hat]
        exact List.nil_prefix

/-- The encoding of chunks up to the last byte of their data. -/
def throughData : List Chunk → List UInt8
  | [] => []
  | [c] => c.size.text ++ [13, 10] ++ c.data
  | c :: c' :: chunks => c.encode ++ throughData (c' :: chunks)

theorem Chunk.encode_eq (c : Chunk) : c.encode = (c.size.text ++ [13, 10] ++ c.data) ++ [13, 10] := by
  simp only [encode, List.append_assoc]

/-- What is longer is no beginning. -/
theorem not_prefix_of_length_lt {p x : List UInt8} (h : p.length < x.length) : ¬ x <+: p :=
  fun hx ↦ absurd hx.length_le (Nat.not_le_of_lt h)

theorem length_lt_of_cut {p x : List UInt8} (hp : p <+: x) (hne : p ≠ x) : p.length < x.length :=
  Nat.lt_of_le_of_ne hp.length_le fun h ↦ hne (hp.eq_of_length h)

/-- A chunk that was cut off gives all of its data if all of it is there. -/
theorem Chunk.unchunk_cut_iff (c : Chunk) {p : List UInt8} (hp : p <+: c.encode) (hne : p ≠ c.encode)
    (hfits : p.length < 2 ^ w) :
    unchunk w p = c.data ↔ c.size.text ++ [13, 10] ++ c.data <+: p := by
  rcases prefix_append_cases hp with ⟨hline, hcut⟩ | ⟨q, rfl, hq⟩
  · rw [unchunk_done (c.size.chunkAt_cut hline hcut)]
    refine iff_of_false (fun h ↦ c.data_ne h.symm) (not_prefix_of_length_lt ?_)
    exact (length_lt_of_cut hline hcut).trans_le (by simp)
  · have hat := c.size.chunkAt_append (w := w) q
    rw [List.prefix_append_right_inj]
    rcases prefix_append_cases hq with ⟨hdata, hcut⟩ | ⟨r, rfl, hr⟩
    · have hlt := length_lt_of_cut hdata hcut
      rw [if_neg (Nat.not_le_of_lt hlt)] at hat
      refine iff_of_false ?_ (not_prefix_of_length_lt hlt)
      split at hat
      · rw [unchunk_done hat]
        exact hcut
      · rw [unchunk_done hat]
        exact fun h ↦ c.data_ne h.symm
    · refine iff_of_true ?_ (List.prefix_append _ _)
      have hsize : c.data.length < 2 ^ w := by
        simp only [List.length_append] at hfits
        omega
      have hempty : c.data.length ≠ 0 := fun h ↦ c.data_ne (List.eq_nil_of_length_eq_zero h)
      have hend : (c.data ++ r).drop (c.data.length + 2) = [] := by
        refine List.drop_eq_nil_of_le ?_
        rw [List.length_append]
        exact Nat.add_le_add_left hr.length_le _
      rw [if_pos ⟨hsize, hempty⟩, if_pos (by simp), List.take_left, hend] at hat
      rw [unchunk_cont hat, unchunk_done chunkAt_nil, List.append_nil]

/-- A body that was cut off gives all of its content if all of its data is there. -/
theorem unchunk_eq_content_iff (b : ChunkedBody) {p : List UInt8} (hp : p <+: b.encode)
    (hfits : p.length < 2 ^ w) : unchunk w p = b.content ↔ throughData b.chunks <+: p := by
  obtain ⟨chunks, last, trailer⟩ := b
  unfold ChunkedBody.encode ChunkedBody.content at *
  dsimp only at *
  induction chunks generalizing p with
  | nil => exact iff_of_true (unchunk_last ⟨[], last, trailer⟩ hp) List.nil_prefix
  | cons c chunks ih =>
    rw [List.flatMap_cons, List.append_assoc] at hp
    rw [List.flatMap_cons]
    rcases prefix_append_cases hp with ⟨hcut, hne⟩ | ⟨q, rfl, hq⟩
    · cases chunks with
      | nil =>
        rw [List.flatMap_nil, List.append_nil, throughData]
        exact c.unchunk_cut_iff hcut hne hfits
      | cons c' chunks =>
        refine iff_of_false (fun h ↦ ?_) (not_prefix_of_length_lt ?_)
        · have hle := (c.unchunk_cut (w := w) hcut hne).length_le
          have hpos := List.length_pos_of_ne_nil c'.data_ne
          rw [h, List.flatMap_cons] at hle
          simp only [List.length_append] at hle
          omega
        · rw [throughData, List.length_append]
          exact Nat.lt_add_right _ (length_lt_of_cut hcut hne)
    · have hsize : c.data.length < 2 ^ w := by
        have hle : c.data.length ≤ c.encode.length := by simp [Chunk.encode]; omega
        rw [List.length_append] at hfits
        omega
      have hfits' : q.length < 2 ^ w := by
        rw [List.length_append] at hfits
        omega
      rw [c.unchunk_encode_append hsize, List.append_cancel_left_eq]
      cases chunks with
      | nil =>
        refine iff_of_true (unchunk_last ⟨[], last, trailer⟩ hq) ?_
        rw [throughData, c.encode_eq, List.append_assoc _ [13, 10] q]
        exact List.prefix_append _ _
      | cons c' chunks =>
        rw [throughData, List.prefix_append_right_inj]
        exact ih hfits' hq

/-- A chunked body is read back, what is left of it when it was cut off anywhere is a beginning of
it, and nothing at all makes `dechunk` stop. -/
theorem dechunk_chunked (w : Nat) :
    (∀ b : ChunkedBody, b.encode.length < 2 ^ w → dechunk w b.encode = .ok b.content) ∧
    (∀ b : ChunkedBody, ∀ p, p <+: b.encode → p.length < 2 ^ w →
      ∃ out, dechunk w p = .ok out ∧ out <+: b.content) ∧
    ∀ data, data.length < 2 ^ w → ∃ out, dechunk w data = .ok out := by
  refine ⟨fun b hfits ↦ ?_, fun b p hp hfits ↦ ?_, fun data hfits ↦ ⟨_, dechunk_eq hfits⟩⟩
  · rw [dechunk_eq hfits, unchunk_encode b hfits]
  · exact ⟨_, dechunk_eq hfits, unchunk_prefix b hp⟩

/-- One chunk, with an extension. -/
def wikiBody : ChunkedBody where
  chunks := [⟨utf8 "Wiki", by decide, "4", utf8 ";ext=1", by decide, by decide, by decide, nofun⟩]
  last := ⟨"0", [], by decide, by decide, by decide, nofun⟩
  trailer := utf8 "\r\n"

/-- Whole, cut off behind the second byte, and another body that is no chunk. -/
theorem dechunk_chunked_wiki :
    dechunk 64 (utf8 "4;ext=1\r\nWiki\r\n0\r\n\r\n") = .ok (utf8 "Wiki") ∧
    (∃ out, dechunk 64 (utf8 "4;ext=1\r\nWi") = .ok out ∧ out <+: utf8 "Wiki") ∧
    ∃ out, dechunk 64 (utf8 "zz\r\nAAAA") = .ok out :=
  ⟨(dechunk_chunked 64).1 wikiBody (by decide),
    (dechunk_chunked 64).2.1 wikiBody _ (by decide) (by decide),
    (dechunk_chunked 64).2.2 _ (by decide)⟩

end Modem2Sip.Mms.Http
