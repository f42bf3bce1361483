import Mathlib.Algebra.GroupWithZero.Nat
import Modem2Sip.Store.Attachments

/-!
# Names of files

The name under which a part is stored is made of the name that its sender gave it.  `sanitize_name`
leaves nothing in it that means something to the file system, and puts the index in front, but it does
not look at how long it is.
-/

namespace Modem2Sip.Store

open Text

/-- The name of a file in a directory, as file systems of Linux take it. -/
structure Component (name : Str) : Prop where
  ne_nil : name ≠ []
  no_slash : '/' ∉ name
  no_nul : '\x00' ∉ name
  ne_dot : name ≠ "."
  ne_dots : name ≠ ".."
  length_le : (utf8 name).length ≤ 255

/-- A file is only written in the directory, under a name that the file system takes. -/
def WritesInside (dir : Str) : Call → Prop
  | .writeFile path _ => ∃ name, Component name ∧ path = dir ++ '/' :: name
  | _ => True

section Fits

variable (isAlphanumeric : Char → Bool)

/-- How many bytes there are of a name, with one for each character that is replaced. -/
def plainLength (name : Str) : Nat :=
  (name.map fun c ↦ if isAlphanumeric c || c == '.' || c == '_' || c == '-' then c.utf8Size else 1).sum

/-- There is no name, or it is short enough to stand behind the index. -/
def Fits (name : Option Str) (index : Nat) : Prop :=
  ∀ n ∈ name, (dec index).length + 1 + plainLength isAlphanumeric n ≤ 255

end Fits

variable {isAlphanumeric : Char → Bool}

/-! ## The characters -/

theorem length_utf8 (s : Str) : (utf8 s).length = (s.map Char.utf8Size).sum := by
  rw [utf8, List.length_flatMap]
  exact congrArg List.sum (List.map_congr_left fun c _ ↦ String.length_utf8EncodeChar c)

theorem length_utf8_plainName (name : Str) :
    (utf8 (plainName isAlphanumeric name)).length = plainLength isAlphanumeric name := by
  rw [length_utf8, plainName, plainLength, List.map_map]
  refine congrArg List.sum (List.map_congr_left fun c _ ↦ ?_)
  rw [Function.comp_apply, apply_ite Char.utf8Size]
  rfl

theorem length_utf8_dec (n : Nat) : (utf8 (dec n)).length = (dec n).length := by
  have hone : (dec n).map Char.utf8Size = (dec n).map fun _ ↦ 1 := by
    refine List.map_congr_left fun c hc ↦ Char.utf8Size_eq_one_iff.mpr ?_
    have hdigit := (Char.isDigit_iff_toNat.mp (isDigit_of_mem_dec hc)).2
    exact UInt32.le_iff_toNat_le.mpr (hdigit.trans (by decide))
  rw [length_utf8, hone, List.map_const', List.sum_replicate_nat, Nat.mul_one]

def extensions : List Str := [".txt", ".html", ".jpg", ".png", ".gif", ".amr", ".3gp", ".smil", ".bin"]

theorem extFor_mem (contentType : Str) : extFor contentType ∈ extensions := by
  rw [extFor]
  iterate 8
    split
    · decide
  decide

theorem length_utf8_extFor (contentType : Str) : (utf8 (extFor contentType)).length ≤ 5 := by
  have hall : ∀ e ∈ extensions, (utf8 e).length ≤ 5 := by decide
  exact hall _ (extFor_mem contentType)

/-! ## The names -/

/-- Behind the index stands the name, made plain, or one that is made up. -/
theorem sanitizeName_cases (isAlphanumeric : Char → Bool) (name : Option Str) (index : Nat) (contentType : Str) :
    (∃ n, name = some n ∧
      sanitizeName isAlphanumeric name index contentType =
        dec index ++ '_' :: plainName isAlphanumeric n) ∨
    (∀ n, name = some n → plainLength isAlphanumeric n ≤ 2) ∧
      sanitizeName isAlphanumeric name index contentType =
        dec index ++ '_' :: ("part" ++ dec index ++ extFor contentType) := by
  rw [sanitizeName]
  cases name with
  | none => exact .inr ⟨nofun, rfl⟩
  | some n =>
    rw [Option.map_some, Option.filter_some]
    split
    · exact .inl ⟨n, rfl, rfl⟩
    · rename_i hunusable
      refine .inr ⟨?_, rfl⟩
      rintro _ ⟨⟩
      rw [← length_utf8_plainName]
      simp only [Bool.and_eq_true, bne_iff_ne, not_and_or, not_not] at hunusable
      rcases hunusable with (h | h) | h
      · rw [h]
        exact Nat.zero_le _
      · rw [h]
        decide
      · rw [h]
        decide

/-- A separator or a zero is not in the name. -/
theorem not_mem_sanitizeName {c : Char} (hc : c = '/' ∨ c = '\x00') (halnum : isAlphanumeric c = false)
    (name : Option Str) (index : Nat) (contentType : Str) :
    c ∉ sanitizeName isAlphanumeric name index contentType := by
  have hindex : c ∉ dec index := not_mem_dec (by rcases hc with rfl | rfl <;> decide) _
  have hplain (n : Str) : c ∉ plainName isAlphanumeric n := by
    intro hmem
    obtain ⟨c', -, hc'⟩ := List.mem_map.mp hmem
    split at hc'
    · rename_i hok
      rw [hc', halnum] at hok
      rcases hc with rfl | rfl <;> exact absurd hok (by decide)
    · rcases hc with rfl | rfl <;> exact absurd hc' (by decide)
  have hext : c ∉ extFor contentType := by
    have hall : ∀ e ∈ extensions, '/' ∉ e ∧ '\x00' ∉ e := by decide
    obtain ⟨hslash, hnul⟩ := hall _ (extFor_mem contentType)
    rcases hc with rfl | rfl
    · exact hslash
    · exact hnul
  have hmade : c ∉ ("part" : Str) := by rcases hc with rfl | rfl <;> decide
  have hunderscore : c ≠ '_' := by rcases hc with rfl | rfl <;> decide
  obtain ⟨n, -, heq⟩ | ⟨-, heq⟩ := sanitizeName_cases isAlphanumeric name index contentType
  · rw [heq, List.mem_append, List.mem_cons, not_or, not_or]
    exact ⟨hindex, hunderscore, hplain n⟩
  · rw [heq, List.mem_append, List.mem_cons, not_or, not_or, List.mem_append, List.mem_append, not_or, not_or]
    exact ⟨hindex, hunderscore, ⟨hmade, hindex⟩, hext⟩

/-- A digit comes first. -/
theorem sanitizeName_ne {name : Option Str} {index : Nat} {contentType s : Str}
    (h : s.head?.any Char.isDigit = false) : sanitizeName isAlphanumeric name index contentType ≠ s := by
  rintro rfl
  obtain ⟨c, digits, hdec⟩ := List.exists_cons_of_ne_nil (dec_ne_nil index)
  have hdigit : c.isDigit = true := isDigit_of_mem_dec (hdec ▸ List.mem_cons_self)
  have hhead : (sanitizeName isAlphanumeric name index contentType).head? = some c := by
    rw [sanitizeName, hdec]
    rfl
  rw [hhead, Option.any_some, hdigit] at h
  cases h

theorem length_sanitizeName_le_iff {name : Option Str} {index : Nat} (hindex : index < 2 ^ 63)
    (contentType : Str) :
    (utf8 (sanitizeName isAlphanumeric name index contentType)).length ≤ 255 ↔
      Fits isAlphanumeric name index := by
  have hdigits : (dec index).length ≤ 19 := length_dec_le (by decide) (hindex.trans (by decide))
  have hlength (base : Str) : (utf8 (dec index ++ '_' :: base)).length =
      (dec index).length + 1 + (utf8 base).length := by
    rw [utf8_append, List.length_append, length_utf8_dec, Nat.add_assoc]
    exact congrArg _ ((congrArg List.length (utf8_append ['_'] base)).trans List.length_append)
  obtain ⟨n, rfl, heq⟩ | ⟨hshort, heq⟩ := sanitizeName_cases isAlphanumeric name index contentType
  · rw [heq, hlength, length_utf8_plainName]
    exact ⟨fun hle _ hn ↦ Option.some.inj hn ▸ hle, fun hfits ↦ hfits n rfl⟩
  · rw [heq, hlength, utf8_append, utf8_append, List.length_append, List.length_append, length_utf8_dec]
    have hext := length_utf8_extFor contentType
    have hmade : (utf8 "part").length = 4 := rfl
    refine iff_of_true (by omega) fun n hn ↦ ?_
    have := hshort n hn
    omega

/-- The names under which the parts are stored are names of files in the directory of the message, and
differ with the index, just when the name of the part is short enough. -/
theorem stored_inside_iff_fits (hslash : isAlphanumeric '/' = false) (hnul : isAlphanumeric '\x00' = false)
    (attachmentsDir : Str) (messageId : Nat) {index : Nat} (hindex : index < 2 ^ 63)
    (contentType : Str) (name contentId : Option Str) (data : List UInt8) :
    Component (sanitizeName isAlphanumeric name index contentType) ∧
      Prog.Only (WritesInside (attachmentDir attachmentsDir messageId))
        (Attempt.addAttachment isAlphanumeric attachmentsDir messageId index contentType name contentId data) ∧
      (∀ name' index' contentType', index' ≠ index →
        sanitizeName isAlphanumeric name' index' contentType' ≠
          sanitizeName isAlphanumeric name index contentType) ↔
    Fits isAlphanumeric name index := by
  have hlength : (utf8 (sanitizeName isAlphanumeric name index contentType)).length ≤ 255 ↔
      Fits isAlphanumeric name index := length_sanitizeName_le_iff hindex contentType
  constructor
  · rintro ⟨hcomponent, -, -⟩
    exact hlength.mp hcomponent.length_le
  · intro hfits
    have hcomponent : Component (sanitizeName isAlphanumeric name index contentType) :=
      { ne_nil := sanitizeName_ne rfl
        no_slash := not_mem_sanitizeName (.inl rfl) hslash name index contentType
        no_nul := not_mem_sanitizeName (.inr rfl) hnul name index contentType
        ne_dot := sanitizeName_ne (by decide)
        ne_dots := sanitizeName_ne (by decide)
        length_le := hlength.mpr hfits }
    refine ⟨hcomponent, ?_, fun name' index' contentType' hne heq ↦ hne ?_⟩
    · refine Prog.Only.attempt (Prog.Only.ask trivial) fun _ ↦ ?_
      refine Prog.Only.attempt (Prog.Only.ask ⟨_, hcomponent, ?_⟩) fun _ ↦ Prog.Only.ask trivial
      rw [joinPath_attachmentDir, attachmentDir, joinPath_eq attachmentsDir (dec messageId), List.append_assoc]
    · exact eq_of_sanitizeName heq

theorem stored_inside_iff_fits_photo :
    Component (sanitizeName Char.isAlphanum (some "my photo.jpg") 1 "image/jpeg") ∧
      Prog.Only (WritesInside (attachmentDir "attachments" 7))
        (Attempt.addAttachment Char.isAlphanum "attachments" 7 1 "image/jpeg" (some "my photo.jpg") none [0xFF]) ∧
      (∀ name' index' contentType', index' ≠ 1 →
        sanitizeName Char.isAlphanum name' index' contentType' ≠
          sanitizeName Char.isAlphanum (some "my photo.jpg") 1 "image/jpeg") ↔
    Fits Char.isAlphanum (some "my photo.jpg") 1 :=
  stored_inside_iff_fits (by decide) (by decide) _ _ (by decide) _ _ _ _

/-- The name of a part with 254 letters. -/
theorem long_name_not_component :
    ¬ Component (sanitizeName Char.isAlphanum (some (List.replicate 254 'a')) 1 "image/jpeg") := by
  have hlong : ¬ (utf8 (sanitizeName Char.isAlphanum (some (List.replicate 254 'a')) 1 "image/jpeg")).length ≤
      255 := by decide +kernel
  exact fun h ↦ hlong h.length_le

end Modem2Sip.Store
