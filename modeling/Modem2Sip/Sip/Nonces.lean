import Mathlib.Algebra.Group.Int.Defs
import Modem2Sip.Sip.Replay

/-!
# The nonces that are valid

A nonce is the time of its issue and a digest of that time under the secret.  Nobody
without the secret makes a digest, so a digest that is accepted was issued, and with it
the time.  The text of the time is another matter: `is_valid` reads it as a number and
makes the digest of the number, so that every spelling of the number is accepted.
-/

namespace Text

/-! ## Signed numbers and their text -/

theorem not_mem_decInt {c : Char} (hdigit : c.isDigit = false) (hsign : c ≠ '-') (n : Int) :
    c ∉ decInt n := by
  have hdec (n : Nat) : c ∉ dec n := by
    intro hmem
    rw [isDigit_of_mem_dec hmem] at hdigit
    cases hdigit
  cases n with
  | ofNat n => exact hdec n
  | negSucc n =>
    intro hmem
    rcases List.mem_cons.mp hmem with h | h
    · exact hsign h
    · exact hdec _ h

theorem head_dec_ne_minus (n : Nat) (rest : Str) : dec n ≠ '-' :: rest := by
  intro h
  have hmem : '-' ∈ dec n := h ▸ List.mem_cons_self
  exact absurd (isDigit_of_mem_dec hmem) (by decide)

theorem decInt_injective : Function.Injective decInt := by
  intro m n h
  cases m with
  | ofNat m =>
    cases n with
    | ofNat n => exact congrArg Int.ofNat (dec_injective h)
    | negSucc n => exact absurd h (head_dec_ne_minus m _)
  | negSucc m =>
    cases n with
    | ofNat n => exact absurd h.symm (head_dec_ne_minus n _)
    | negSucc n =>
      have := dec_injective ((List.cons_inj_right _).mp h)
      rw [Nat.succ_injective this]

/-- A number in the range of `i64` is read back from its text. -/
theorem parseI64_decInt {n : Int} (hlo : -2 ^ 63 ≤ n) (hhi : n < 2 ^ 63) :
    parseI64 (decInt n) = some n := by
  cases n with
  | ofNat n =>
    have hlt : n < 2 ^ 63 := Int.ofNat_lt.mp hhi
    have hdec : decInt (.ofNat n) = dec n := rfl
    rw [hdec, parseI64]
    · rw [parseUnsigned_dec hlt]
      rfl
    · exact head_dec_ne_minus n
  | negSucc n =>
    have hle : n + 1 ≤ 2 ^ 63 := by omega
    have hvalue : digitsValue 10 0 (dec (n + 1)) = some (n + 1) :=
      digitsValue_toDigits (by decide) (by decide) _
    rw [decInt, parseI64, if_neg (dec_ne_nil _), hvalue, Option.filter_some,
      if_pos (decide_eq_true hle)]
    rfl

end Text

namespace Modem2Sip.Sip

open Text Replay

section Nonces

variable (md5Hex : List UInt8 → Str) (secret : Str)

/-- The digest of a time under the secret. -/
def nonceDigest (t : Int) : Str := md5Hex (utf8 (colons [decInt t, secret]))

/-- The times at which nonces were issued, as `timestamp` returns them. -/
abbrev IssueTimes := Set { t : Int // -2 ^ 63 ≤ t ∧ t < 2 ^ 63 }

/-- Nobody else makes digests: one that is presented appeared in a nonce that was issued. -/
def Unforged (issued : IssueTimes) (s : Str) : Prop :=
  ∀ ts digest n, splitAt ':' s = some (ts, digest) → digest = nonceDigest md5Hex secret n →
    ∃ t ∈ issued, digest = nonceDigest md5Hex secret t

/-- A time that is read from the text before the digest, and that the digest is of, is written there
as it is written in a nonce. -/
def TimeAsIssued (s : Str) : Prop :=
  ∀ ts digest n, splitAt ':' s = some (ts, digest) → parseI64 ts = some n →
    nonceDigest md5Hex secret n = digest → ts = decInt n

variable {md5Hex secret} {issued : IssueTimes}

theorem issueNonce_eq (t : Int) :
    issueNonce md5Hex secret t = decInt t ++ ':' :: nonceDigest md5Hex secret t := by
  rw [issueNonce, colons, List.intercalate_cons_cons, List.intercalate_singleton, List.append_assoc]
  rfl

theorem splitAt_issueNonce (t : Int) :
    splitAt ':' (issueNonce md5Hex secret t) = some (decInt t, nonceDigest md5Hex secret t) := by
  have hcolon : ':' ∉ decInt t := not_mem_decInt rfl (by decide) t
  rw [issueNonce_eq, splitAt_append_cons hcolon]

/-- A nonce is valid from its issue on, for as long as it may be old. -/
theorem isValidNonce_issueNonce {t : Int} (ht : -2 ^ 63 ≤ t ∧ t < 2 ^ 63) (now maxAge : Int) :
    isValidNonce md5Hex secret now (issueNonce md5Hex secret t) maxAge = true ↔
      t ≤ now ∧ now ≤ t + maxAge := by
  rw [isValidNonce_iff]
  constructor
  · rintro ⟨ts, digest, n, hsplit, hts, -, hlo, hhi⟩
    rw [splitAt_issueNonce] at hsplit
    cases hsplit
    rw [parseI64_decInt ht.1 ht.2] at hts
    cases hts
    exact ⟨hlo, hhi⟩
  · rintro ⟨hlo, hhi⟩
    exact ⟨_, _, t, splitAt_issueNonce t, parseI64_decInt ht.1 ht.2, rfl, hlo, hhi⟩

/-- Where no two times have one digest and digests are not made up, all that is valid was issued, in
the time that is left for it and to the letter, just when the time is written as it was issued. -/
theorem valid_iff_timeAsIssued (hdigest : Function.Injective (nonceDigest md5Hex secret)) {s : Str}
    (hunforged : Unforged md5Hex secret issued s) :
    ((∀ now maxAge, isValidNonce md5Hex secret now s maxAge = true →
      ∃ t ∈ issued, s = issueNonce md5Hex secret t ∧ now - maxAge ≤ t ∧ t ≤ now) ∧
    ∀ t ∈ issued, ∀ now maxAge,
      isValidNonce md5Hex secret now (issueNonce md5Hex secret t) maxAge = true ↔
        t ≤ now ∧ now ≤ t + maxAge) ↔ TimeAsIssued md5Hex secret s := by
  constructor
  · rintro ⟨hvalid, -⟩ ts digest n hsplit hts hd
    obtain ⟨t, -, rfl, -⟩ := hvalid n 0 ((isValidNonce_iff md5Hex).mpr
      ⟨ts, digest, n, hsplit, hts, hd, by omega, by omega⟩)
    rw [splitAt_issueNonce] at hsplit
    cases hsplit
    rw [hdigest hd]
  · intro htime
    refine ⟨fun now maxAge hvalid ↦ ?_, fun t _ now maxAge ↦ isValidNonce_issueNonce t.2 now maxAge⟩
    obtain ⟨ts, digest, n, hsplit, hts, hd, hlo, hhi⟩ := (isValidNonce_iff md5Hex).mp hvalid
    obtain ⟨t, ht, hdt⟩ := hunforged ts digest n hsplit hd.symm
    obtain rfl : n = t := hdigest (hd.trans hdt)
    obtain ⟨rfl, -⟩ := eq_of_splitAt hsplit
    refine ⟨t, ht, ?_, by omega, hlo⟩
    rw [issueNonce_eq, htime ts digest t hsplit hts hd, hdt]

/-- A hash without collisions gives no two times one digest. -/
theorem nonceDigest_injective (hmd5 : GoodHash md5Hex) :
    Function.Injective (nonceDigest md5Hex secret) := by
  intro m n h
  have htext := utf8_injective (hmd5.injective h)
  rw [colons, colons, List.intercalate_cons_cons, List.intercalate_cons_cons, List.append_assoc,
    List.append_assoc] at htext
  exact decInt_injective (List.append_cancel_right htext)

end Nonces

namespace Sample

open Replay.Sample

/-- The one time at which a nonce was issued. -/
def issued : IssueTimes := {⟨1700000000, by decide⟩}

def issuedDigest : Str := "cc67f524fbb4bbe7d1b412f1e47765cc"

/-- What was issued, and the same with a plus sign before the time. -/
def nonce : Str := "1700000000:" ++ issuedDigest

def plusNonce : Str := "+1700000000:" ++ issuedDigest

theorem unforged {ts s : Str} (h : splitAt ':' s = some (ts, issuedDigest)) :
    Unforged (tableHash known) "5ec7e7" issued s := by
  rintro ts' digest n hsplit -
  rw [h] at hsplit
  cases hsplit
  exact ⟨⟨1700000000, by decide⟩, rfl, by decide +kernel⟩

end Sample

/-- With a plus sign before it, the time is still valid, and no nonce was ever issued like that. -/
theorem plusNonce_valid :
    Function.Injective (nonceDigest (tableHash Replay.Sample.known) "5ec7e7") ∧
    Unforged (tableHash Replay.Sample.known) "5ec7e7" Sample.issued Sample.plusNonce ∧
    ¬ ∀ now maxAge,
      isValidNonce (tableHash Replay.Sample.known) "5ec7e7" now Sample.plusNonce maxAge = true →
      ∃ t ∈ Sample.issued, Sample.plusNonce = issueNonce (tableHash Replay.Sample.known) "5ec7e7" t ∧
        now - maxAge ≤ t ∧ t ≤ now := by
  have hsplit : splitAt ':' Sample.plusNonce = some ("+1700000000".toList, Sample.issuedDigest) := by
    decide
  refine ⟨nonceDigest_injective Replay.Sample.goodHash_known,
    Sample.unforged hsplit, fun h ↦ ?_⟩
  obtain ⟨t, -, heq, -⟩ := h 1700000000 300 (by decide +kernel)
  rw [issueNonce_eq] at heq
  have hplus : '+' ∉ decInt t := not_mem_decInt rfl (by decide) t
  cases htext : decInt t with
  | nil =>
    rw [htext] at heq
    exact absurd (List.cons.inj heq).1 (by decide)
  | cons c rest =>
    rw [htext] at heq hplus
    exact hplus ((List.cons.inj heq).1 ▸ List.mem_cons_self)

/-- As it was issued, it is valid for its five minutes. -/
theorem valid_iff_timeAsIssued_nonce :
    (∀ now maxAge, isValidNonce (tableHash Replay.Sample.known) "5ec7e7" now Sample.nonce maxAge = true →
      ∃ t ∈ Sample.issued, Sample.nonce = issueNonce (tableHash Replay.Sample.known) "5ec7e7" t ∧
        now - maxAge ≤ t ∧ t ≤ now) ∧
    ∀ t ∈ Sample.issued, ∀ now maxAge, isValidNonce (tableHash Replay.Sample.known) "5ec7e7" now
      (issueNonce (tableHash Replay.Sample.known) "5ec7e7" t) maxAge = true ↔
        t ≤ now ∧ now ≤ t + maxAge := by
  have hsplit : splitAt ':' Sample.nonce = some ("1700000000".toList, Sample.issuedDigest) := by decide
  refine (valid_iff_timeAsIssued (nonceDigest_injective Replay.Sample.goodHash_known)
    (Sample.unforged hsplit)).mpr fun ts digest n h hts _ ↦ ?_
  rw [hsplit] at h
  cases h
  have hnum : parseI64 "1700000000" = some 1700000000 := by decide
  rw [hnum] at hts
  cases hts
  decide +kernel

end Modem2Sip.Sip
