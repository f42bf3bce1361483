import Modem2Sip.Gateway.Config

/-!
# Numbers that are normalised twice

`to_national` cannot see whether the number that it is given is a national one already: it goes by the
digits in front.  A number that it has made national keeps its digits when the trunk prefix and the
subscriber part do not look like the country code again.
-/

namespace Modem2Sip.Gateway

open Text

variable {code nationalPrefix rest : Str} {cc : Option Str}

/-- Without the plus sign in front. -/
def withoutPlus (s : Str) : Str := (stripPrefix ['+'] s).getD s

/-- The digits of the country code, if one is configured. -/
def countryDigits (cc : Option Str) : Option Str := (cc.map fun c ↦ withoutPlus (trim c)).filter (· != [])

/-- What stands behind the country code of an international number. -/
def subscriberPart (code s : Str) : Option Str := (stripPrefix code (withoutPlus s)).filter (· != [])

/-- The subscriber part stands behind the trunk prefix as it stood behind the country code, or there it is
no international number and has no blanks around it. -/
def LeftAlone (code nationalPrefix rest : Str) : Prop :=
  subscriberPart code (trim (nationalPrefix ++ rest)) = some rest ∨
    subscriberPart code (trim (nationalPrefix ++ rest)) = none ∧
      trim (nationalPrefix ++ rest) = nationalPrefix ++ rest

theorem toNational_of_none (h : countryDigits cc = none) (number nationalPrefix : Str) :
    toNational number cc nationalPrefix = trim number := by
  unfold countryDigits withoutPlus at h
  unfold toNational
  dsimp only
  rw [h]

theorem toNational_of_some (h : countryDigits cc = some code) (number nationalPrefix : Str) :
    toNational number cc nationalPrefix =
      ((subscriberPart code (trim number)).map (nationalPrefix ++ ·)).getD (trim number) := by
  unfold countryDigits withoutPlus at h
  unfold toNational subscriberPart withoutPlus
  dsimp only
  rw [h]
  dsimp only
  cases stripPrefix code ((stripPrefix ['+'] (trim number)).getD (trim number)) with
  | none => rfl
  | some rest =>
    rw [Option.filter_some]
    by_cases hrest : rest = []
    · subst hrest
      rfl
    · rw [if_pos (bne_iff_ne.mpr hrest)]
      exact if_pos hrest

/-- What is done to the subscriber part behind the trunk prefix. -/
theorem leftAlone_iff :
    ((subscriberPart code (trim (nationalPrefix ++ rest))).map (nationalPrefix ++ ·)).getD
        (trim (nationalPrefix ++ rest)) = nationalPrefix ++ rest ↔ LeftAlone code nationalPrefix rest := by
  rw [LeftAlone]
  cases subscriberPart code (trim (nationalPrefix ++ rest)) with
  | none =>
    rw [Option.map_none, Option.getD_none, and_iff_right rfl]
    exact (or_iff_right nofun).symm
  | some rest' =>
    rw [Option.map_some, Option.getD_some, List.append_cancel_left_eq, Option.some.injEq]
    exact (or_iff_left fun h ↦ nomatch h.1).symm

/-- A number keeps its digits when it is normalised again just when there is no country code, or it is
not an international number, or its subscriber part is left alone behind the trunk prefix. -/
theorem toNational_idem_iff (number : Str) (cc : Option Str) (nationalPrefix : Str) :
    toNational (toNational number cc nationalPrefix) cc nationalPrefix = toNational number cc nationalPrefix ↔
      ∀ code, countryDigits cc = some code → ∀ rest, subscriberPart code (trim number) = some rest →
        LeftAlone code nationalPrefix rest := by
  cases hcode : countryDigits cc with
  | none =>
    rw [toNational_of_none hcode, toNational_of_none hcode]
    exact iff_of_true (trim_trim number) nofun
  | some code =>
    rw [toNational_of_some hcode, toNational_of_some hcode]
    cases hrest : subscriberPart code (trim number) with
    | none =>
      refine iff_of_true ?_ ?_
      · rw [Option.map_none, Option.getD_none, trim_trim, hrest]
        rfl
      · rintro _ ⟨⟩ rest hrest'
        cases hrest.symm.trans hrest'
    | some rest =>
      rw [Option.map_some, Option.getD_some]
      refine leftAlone_iff.trans ⟨?_, fun h ↦ h code rfl rest hrest⟩
      rintro h _ ⟨⟩ rest' hrest'
      cases hrest.symm.trans hrest'
      exact h

/-- An Italian mobile number: there is no trunk prefix, and the subscriber part starts with the digits of
the country code. -/
theorem toNational_twice_sheds :
    toNational (toNational "+393931234567" (some "39".toList) []) (some "39".toList) [] ≠
      toNational "+393931234567" (some "39".toList) [] := by
  decide

end Modem2Sip.Gateway
