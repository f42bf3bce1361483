import Modem2Sip.Lib.Net

/-!
# Addresses that are read back

The text of every address is an address for the reader, and the same one.  The digits
of a number end where no digit follows; the groups of an IPv6 address end where the
text does or at the `::` that leaves some out.
-/

namespace Net

open Text

/-! ## Numbers -/

section Digits

variable {radix : Nat} (hradix : 1 < radix) (hle : radix ≤ 16)

include hradix hle

/-- No number but 0 begins with a zero. -/
theorem head?_toDigits {n : Nat} (hn : n ≠ 0) : (Nat.toDigits radix n).head? ≠ some '0' := by
  induction n using Nat.strongRecOn with
  | ind n ih =>
    rw [Nat.toDigits_eq_if hradix]
    split
    · rename_i hlt
      have hall : ∀ d < 16, d ≠ 0 → Nat.digitChar d ≠ '0' := by decide
      simpa using hall n (hlt.trans_le hle) hn
    · rename_i hge
      have hdiv : n / radix < n := Nat.div_lt_self (by omega) hradix
      rw [List.head?_append_of_ne_nil _ Nat.toDigits_ne_nil]
      exact ih _ hdiv (Nat.div_pos (Nat.le_of_not_lt hge) (Nat.zero_lt_of_lt hradix)).ne'

/-- A number is read up to what is no digit. -/
theorem readNumber_toDigits {maxDigits n : Nat} (hmax : 0 < maxDigits) (hn : n < radix ^ maxDigits)
    (zeroPrefix : Bool) {rest : Str} (hrest : ∀ c ∈ rest.head?, toDigit radix c = none) :
    readNumber radix maxDigits zeroPrefix (Nat.toDigits radix n ++ rest) = some (n, rest) := by
  have hvalue := digitsValue_toDigits hradix hle n
  have hdigits : (Nat.toDigits radix n ++ rest).takeWhile (fun c ↦ (toDigit radix c).isSome) =
      Nat.toDigits radix n := by
    rw [List.takeWhile_append_of_pos (isSome_toDigit_of_mem hvalue)]
    cases rest with
    | nil => simp
    | cons c rest => simp [hrest c rfl]
  have hlen := (Nat.length_toDigits_le_iff hradix hmax).mpr hn
  have hzero : (!zeroPrefix && (Nat.toDigits radix n).head? == some '0' &&
      decide (1 < (Nat.toDigits radix n).length)) = false := by
    by_cases h0 : n = 0
    · simp [h0]
    · simp [head?_toDigits hradix hle h0]
  unfold readNumber
  dsimp only
  rw [hdigits, hzero, hvalue]
  simp [Nat.toDigits_ne_nil, hlen]

end Digits

/-- What is left behind a number begins where its digits end. -/
theorem rest_of_readNumber {radix maxDigits n : Nat} {zeroPrefix : Bool} {s rest : Str}
    (h : readNumber radix maxDigits zeroPrefix s = some (n, rest)) :
    rest = s.dropWhile fun c ↦ (toDigit radix c).isSome := by
  unfold readNumber at h
  extract_lets ds at h
  split at h
  · cases h
  · split at h
    · cases h
    · obtain ⟨m, -, heq⟩ := Option.map_eq_some_iff.mp h
      have hsplit : ds ++ s.dropWhile (fun c ↦ (toDigit radix c).isSome) = s :=
        List.takeWhile_append_dropWhile
      calc
        rest = s.drop ds.length := (Prod.mk.inj heq).2.symm
        _ = (ds ++ s.dropWhile fun c ↦ (toDigit radix c).isSome).drop ds.length := by rw [hsplit]
        _ = s.dropWhile fun c ↦ (toDigit radix c).isSome := List.drop_left

/-! ## IPv4 -/

theorem readChar_self (c : Char) (s : Str) : readChar c (c :: s) = some s := if_pos rfl

theorem readSeparator_zero (c : Char) (s : Str) : readSeparator c 0 s = some s := rfl

theorem readSeparator_succ (c : Char) (i : Nat) (s : Str) :
    readSeparator c (i + 1) (c :: s) = some s := readChar_self c s

theorem readOctet_dec {i n : Nat} (hn : n < 256) {s rest : Str}
    (hs : readSeparator '.' i s = some (dec n ++ rest))
    (hrest : ∀ c ∈ rest.head?, toDigit 10 c = none) : readOctet i s = some (n, rest) := by
  have hread : readNumber 10 3 false (dec n ++ rest) = some (n, rest) :=
    readNumber_toDigits (by decide) (by decide) (by decide) (by omega) false hrest
  unfold readOctet
  rw [hs, Option.bind_eq_bind, Option.bind_some, hread]
  exact if_pos hn

theorem ofOctets_octets (bits : BitVec 32) :
    ofOctets (bits.toNat / 2 ^ 24) (bits.toNat / 2 ^ 16 % 256) (bits.toNat / 2 ^ 8 % 256)
      (bits.toNat % 256) = bits := by
  apply BitVec.eq_of_toNat_eq
  have := bits.isLt
  rw [ofOctets, BitVec.toNat_ofNat]
  omega

theorem readIpv4_show (bits : BitVec 32) {rest : Str} (hrest : ∀ c ∈ rest.head?, toDigit 10 c = none) :
    readIpv4 (showV4 bits ++ rest) = some (bits, rest) := by
  have hbits := bits.isLt
  have hdot (n : Nat) (s : Str) : ∀ c ∈ ('.' :: (dec n ++ s)).head?, toDigit 10 c = none := by
    rintro c ⟨rfl⟩
    rfl
  have htext : showV4 bits ++ rest =
      dec (bits.toNat / 2 ^ 24) ++ '.' :: (dec (bits.toNat / 2 ^ 16 % 256) ++
        '.' :: (dec (bits.toNat / 2 ^ 8 % 256) ++ '.' :: (dec (bits.toNat % 256) ++ rest))) := by
    simp [showV4, octets, List.intercalate]
  unfold readIpv4
  rw [htext, readOctet_dec (by omega) (readSeparator_zero _ _) (hdot _ _)]
  dsimp only [Option.bind_eq_bind, Option.bind_some]
  rw [readOctet_dec (by omega) (readSeparator_succ _ 0 _) (hdot _ _)]
  dsimp only [Option.bind_some]
  rw [readOctet_dec (by omega) (readSeparator_succ _ 1 _) (hdot _ _)]
  dsimp only [Option.bind_some]
  rw [readOctet_dec (by omega) (readSeparator_succ _ 2 _) hrest]
  dsimp only [Option.bind_some]
  rw [ofOctets_octets]

theorem readChar_eq_none {c : Char} {s : Str} (h : s.head? ≠ some c) : readChar c s = none := by
  cases s with
  | nil => rfl
  | cons x s => exact if_neg fun hx ↦ h (congrArg some hx)

theorem readIpv4_all (bits : BitVec 32) : readIpv4 (showV4 bits) = some (bits, []) := by
  have hread : readIpv4 (showV4 bits ++ []) = some (bits, []) := readIpv4_show bits (by simp)
  rwa [List.append_nil] at hread

/-- Where no dot follows the first number, there is no IPv4 address. -/
theorem readIpv4_eq_none {s : Str}
    (h : (s.dropWhile fun c ↦ (toDigit 10 c).isSome).head? ≠ some '.') : readIpv4 s = none := by
  unfold readIpv4
  rw [Option.bind_eq_bind, Option.bind_eq_none_iff]
  rintro ⟨n, rest⟩ hfirst
  have hrest : rest = s.dropWhile fun c ↦ (toDigit 10 c).isSome := by
    obtain ⟨⟨m, rest'⟩, hnumber, hsmall⟩ := Option.bind_eq_some_iff.mp hfirst
    dsimp only at hsmall
    split at hsmall
    · cases hsmall
      exact rest_of_readNumber hnumber
    · cases hsmall
  have hsecond : readOctet 1 rest = none := by
    unfold readOctet
    have hdot : readSeparator '.' 1 rest = none := readChar_eq_none (hrest ▸ h)
    rw [hdot]
    rfl
  dsimp only
  rw [hsecond]
  rfl

/-! ## The groups of an IPv6 address -/

/-- Groups from the one with the index `i` on, each but the first of all behind a colon. -/
def groupsText : Nat → List Nat → Str
  | _, [] => []
  | i, g :: gs => (if i = 0 then [] else [':']) ++ (Nat.toDigits 16 g ++ groupsText (i + 1) gs)

theorem groupsText_succ (i : Nat) (gs : List Nat) :
    groupsText (i + 1) gs = gs.flatMap fun g ↦ ':' :: Nat.toDigits 16 g := by
  induction gs generalizing i with
  | nil => rfl
  | cons g gs ih =>
    rw [groupsText, if_neg (Nat.succ_ne_zero i), ih, List.flatMap_cons]
    rfl

theorem showGroups_eq (gs : List Nat) : showGroups gs = groupsText 0 gs := by
  cases gs with
  | nil => rfl
  | cons g gs =>
    rw [groupsText, groupsText_succ, if_pos rfl, List.nil_append, showGroups]
    induction gs generalizing g with
    | nil => simp [List.intercalate]
    | cons g' gs ih =>
      rw [List.map_cons, List.map_cons, List.intercalate_cons_cons, ← List.map_cons, ih,
        List.flatMap_cons]
      simp

/-- Where groups end: with the text, or before a `::`. -/
inductive AtGap : Str → Prop
  | done : AtGap []
  | gap (s : Str) : AtGap (':' :: ':' :: s)

/-- No digit and no dot is next. -/
theorem AtGap.head {rest : Str} (h : AtGap rest) (i : Nat) (gs : List Nat) :
    ∀ c ∈ (groupsText (i + 1) gs ++ rest).head?, c = ':' := by
  rw [groupsText_succ]
  cases gs with
  | nil =>
    cases h with
    | done => simp
    | gap s => simp
  | cons g gs => simp

/-- A group in front of a colon or of the end is not the first number of an IPv4 address. -/
theorem readIpv4_group (g : Nat) {rest : Str} (hrest : ∀ c ∈ rest.head?, c = ':') :
    readIpv4 (Nat.toDigits 16 g ++ rest) = none := by
  refine readIpv4_eq_none ?_
  rw [List.dropWhile_append]
  split
  · intro hdot
    cases rest with
    | nil => cases hdot
    | cons c rest =>
      obtain rfl : c = ':' := hrest c rfl
      cases hdot
  · rename_i hne
    have hne : (Nat.toDigits 16 g).dropWhile (fun c ↦ (toDigit 10 c).isSome) ≠ [] := by
      simpa using hne
    rw [List.head?_append_of_ne_nil _ hne]
    intro hdot
    have hmem := (List.dropWhile_suffix _).subset (List.mem_of_mem_head? hdot)
    have hdigit := isSome_toDigit_of_mem (digitsValue_toDigits (by decide) le_rfl g) '.' hmem
    cases hdigit

theorem readNumber_group {g : Nat} (hg : g < 65536) {rest : Str}
    (hrest : ∀ c ∈ rest.head?, c = ':') :
    readNumber 16 4 true (Nat.toDigits 16 g ++ rest) = some (g, rest) := by
  refine readNumber_toDigits (by decide) le_rfl (by decide) hg true ?_
  intro c hc
  rw [hrest c hc]
  rfl

/-- At the end of the groups no other group is read. -/
theorem AtGap.readGroups {rest : Str} (h : AtGap rest) (i left : Nat) :
    readGroups i left rest = ([], false, rest) := by
  cases left with
  | zero => rfl
  | succ left =>
    have hv4 : (readSeparator ':' i rest).bind readIpv4 = none := by
      cases h with
      | done => cases i <;> rfl
      | gap s => cases i <;> exact readIpv4_eq_none (by simp [toDigit])
    have hgroup : (readSeparator ':' i rest).bind (readNumber 16 4 true) = none := by
      cases h with
      | done => cases i <;> rfl
      | gap s => cases i <;> rfl
    rw [Net.readGroups, hv4, hgroup, ite_self]

theorem readGroups_groupsText {gs : List Nat} (hgs : ∀ g ∈ gs, g < 65536) {rest : Str}
    (h : AtGap rest) {i left : Nat} (hleft : gs.length ≤ left) :
    readGroups i left (groupsText i gs ++ rest) = (gs, false, rest) := by
  induction gs generalizing i left with
  | nil => exact h.readGroups i left
  | cons g gs ih =>
    obtain ⟨left, rfl⟩ := Nat.exists_eq_succ_of_ne_zero (Nat.ne_zero_of_lt hleft)
    have hhead := h.head i gs
    have hsep : readSeparator ':' i (groupsText i (g :: gs) ++ rest) =
        some (Nat.toDigits 16 g ++ (groupsText (i + 1) gs ++ rest)) := by
      rw [groupsText, List.append_assoc, List.append_assoc]
      cases i with
      | zero => rfl
      | succ i => exact readSeparator_succ _ _ _
    rw [readGroups, hsep, Option.bind_some, Option.bind_some, readIpv4_group g hhead, ite_self,
      readNumber_group (hgs g List.mem_cons_self) hhead]
    dsimp only
    rw [ih (fun x hx ↦ hgs x (List.mem_cons_of_mem _ hx)) (Nat.le_of_succ_le_succ hleft)]

theorem readGroups_all {gs : List Nat} (hgs : ∀ g ∈ gs, g < 65536) {left : Nat}
    (hleft : gs.length ≤ left) : readGroups 0 left (groupsText 0 gs) = (gs, false, []) := by
  have hread : readGroups 0 left (groupsText 0 gs ++ []) = (gs, false, []) :=
    readGroups_groupsText hgs AtGap.done hleft
  rwa [List.append_nil] at hread

/-! ## The groups that are left out -/

/-- All groups from `run.1` on, as many as `run.2`, are zero. -/
def ZeroRun (gs : List Nat) (run : Nat × Nat) : Prop := ∀ j < run.2, gs[run.1 + j]? = some 0

theorem zeroRun_holds {gs tail : List Nat} {i : Nat} {cur longest : Nat × Nat}
    (hcur : ZeroRun gs cur) (hend : cur.2 ≠ 0 → cur.1 + cur.2 = i) (hlongest : ZeroRun gs longest)
    (htail : gs.drop i = tail) : ZeroRun gs (zeroRun i cur longest tail) := by
  induction tail generalizing i cur longest with
  | nil => exact hlongest
  | cons g tail ih =>
    have hnext : gs.drop (i + 1) = tail := by
      rw [← List.drop_drop, htail]
      rfl
    have hg : gs[i]? = some g := by
      rw [← List.head?_drop, htail]
      rfl
    rw [zeroRun]
    split
    · rename_i hzero
      -- The run goes on, or another one begins here.
      have hrun : ZeroRun gs (if cur.2 = 0 then i else cur.1, cur.2 + 1) := by
        intro j hj
        dsimp only at hj ⊢
        split
        · rename_i hnone
          obtain rfl : j = 0 := by omega
          rw [Nat.add_zero, hg, hzero]
        · rename_i hsome
          rcases Nat.lt_succ_iff_lt_or_eq.mp hj with hlt | rfl
          · exact hcur j hlt
          · rw [hend hsome, hg, hzero]
      refine ih hrun ?_ ?_ hnext
      · intro _
        dsimp only
        split
        · omega
        · rename_i hsome
          have := hend hsome
          omega
      · exact iteInduction (fun _ ↦ hrun) fun _ ↦ hlongest
    · exact ih (fun j hj ↦ absurd hj (Nat.not_lt_zero j)) (fun h ↦ absurd rfl h) hlongest hnext

/-- A run of zeros with what is before and after it. -/
theorem ZeroRun.eq_append {gs : List Nat} {run : Nat × Nat} (h : ZeroRun gs run) (hpos : 0 < run.2) :
    run.1 + run.2 ≤ gs.length ∧
      gs.take run.1 ++ List.replicate run.2 0 ++ gs.drop (run.1 + run.2) = gs := by
  have hlen : run.1 + run.2 ≤ gs.length := by
    obtain ⟨hlt, -⟩ := List.getElem?_eq_some_iff.mp (h (run.2 - 1) (by omega))
    omega
  have hzeros : (gs.drop run.1).take run.2 = List.replicate run.2 0 := by
    refine List.eq_replicate_iff.mpr ⟨?_, ?_⟩
    · rw [List.length_take, List.length_drop]
      omega
    · intro g hg
      obtain ⟨j, hj, rfl⟩ := List.getElem_of_mem hg
      rw [List.length_take] at hj
      have := h j (by omega)
      rw [List.getElem_take, List.getElem_drop]
      exact (List.getElem?_eq_some_iff.mp this).2
  refine ⟨hlen, ?_⟩
  calc
    gs.take run.1 ++ List.replicate run.2 0 ++ gs.drop (run.1 + run.2)
      = gs.take run.1 ++ ((gs.drop run.1).take run.2 ++ (gs.drop run.1).drop run.2) := by
        rw [hzeros, List.drop_drop, List.append_assoc]
    _ = gs := by rw [List.take_append_drop, List.take_append_drop]

/-! ## IPv6 -/

theorem groups_eq (bits : BitVec 128) : groups bits =
    [bits.toNat / 2 ^ 112 % 65536, bits.toNat / 2 ^ 96 % 65536, bits.toNat / 2 ^ 80 % 65536,
      bits.toNat / 2 ^ 64 % 65536, bits.toNat / 2 ^ 48 % 65536, bits.toNat / 2 ^ 32 % 65536,
      bits.toNat / 2 ^ 16 % 65536, bits.toNat / 2 ^ 0 % 65536] := rfl

theorem lt_of_mem_groups {bits : BitVec 128} {g : Nat} (h : g ∈ groups bits) : g < 65536 := by
  obtain ⟨i, -, rfl⟩ := List.mem_map.mp h
  exact Nat.mod_lt _ (by decide)

/-- The next group behind those that are there. -/
theorem div_append_group (n k : Nat) :
    n / 2 ^ (k + 16) * 65536 + n / 2 ^ k % 65536 = n / 2 ^ k := by
  rw [Nat.pow_add, ← Nat.div_div_eq_div_mul]
  exact Nat.div_add_mod' _ _

theorem ofGroups_groups (bits : BitVec 128) : ofGroups (groups bits) = bits := by
  apply BitVec.eq_of_toNat_eq
  have hfirst : bits.toNat / 2 ^ 112 < 65536 :=
    (Nat.div_lt_iff_lt_mul (Nat.two_pow_pos _)).mpr bits.isLt
  have happend := div_append_group bits.toNat
  rw [groups_eq, ofGroups, BitVec.toNat_ofNat]
  simp only [List.foldl_cons, List.foldl_nil]
  rw [Nat.zero_mul, Nat.zero_add, Nat.mod_eq_of_lt hfirst, happend 96, happend 80, happend 64,
    happend 48, happend 32, happend 16, happend 0, Nat.pow_zero, Nat.div_one]
  exact Nat.mod_eq_of_lt bits.isLt

/-- All eight groups are there. -/
theorem readIpv6_groups (bits : BitVec 128) :
    readIpv6 (groupsText 0 (groups bits)) = some (bits, []) := by
  have hlen : (groups bits).length ≤ 8 := by simp [groups]
  unfold readIpv6
  rw [readGroups_all (fun g ↦ lt_of_mem_groups) hlen]
  dsimp only
  rw [if_pos (by simp [groups]), ofGroups_groups]

/-- Zeros are left out between two rows of groups. -/
theorem readIpv6_gap {bits : BitVec 128} {front back : List Nat} {n : Nat} (hn : 0 < n)
    (h : front ++ List.replicate n 0 ++ back = groups bits) :
    readIpv6 (groupsText 0 front ++ ':' :: ':' :: groupsText 0 back) = some (bits, []) := by
  have hlen : front.length + n + back.length = 8 := by
    have := congrArg List.length h
    simpa [groups, Nat.add_assoc] using this
  have hmem : ∀ g ∈ front ++ List.replicate n 0 ++ back, g < 65536 := by
    intro g hg
    exact lt_of_mem_groups (h ▸ hg)
  have hfront : readGroups 0 8 (groupsText 0 front ++ ':' :: ':' :: groupsText 0 back) =
      (front, false, ':' :: ':' :: groupsText 0 back) :=
    readGroups_groupsText
      (fun g hg ↦ hmem g (List.mem_append_left _ (List.mem_append_left _ hg)))
      (AtGap.gap (groupsText 0 back)) (by omega)
  have hback : readGroups 0 (8 - (front.length + 1)) (groupsText 0 back) = (back, false, []) :=
    readGroups_all (fun g hg ↦ hmem g (List.mem_append_right _ hg)) (by omega)
  have hgap : 8 - front.length - back.length = n := by omega
  unfold readIpv6
  rw [hfront]
  dsimp only
  rw [if_neg (by omega), if_neg Bool.false_ne_true]
  rw [readChar_self, Option.bind_eq_bind, Option.bind_some, readChar_self, Option.bind_some, hback]
  dsimp only
  rw [hgap, h, ofGroups_groups]

/-- The groups that are left out are the first ones, and the last two are written as an IPv4
address. -/
theorem readIpv6_mapped {bits : BitVec 128} (h : bits.toNat / 2 ^ 32 = 0xFFFF) :
    readIpv6 ("::ffff:" ++ showV4 (bits.setWidth 32)) = some (bits, []) := by
  set low := bits.setWidth 32 with hlow
  have htoNat : low.toNat = bits.toNat % 2 ^ 32 := by rw [hlow, BitVec.toNat_setWidth]
  have hfront : readGroups 0 8 (':' :: ':' :: (Nat.toDigits 16 0xFFFF ++ ':' :: showV4 low)) =
      ([], false, ':' :: ':' :: (Nat.toDigits 16 0xFFFF ++ ':' :: showV4 low)) :=
    (AtGap.gap _).readGroups 0 8
  have hcolon : ∀ c ∈ (':' :: showV4 low).head?, c = ':' := by simp
  have hback : readGroups 0 7 (Nat.toDigits 16 0xFFFF ++ ':' :: showV4 low) =
      ([0xFFFF, low.toNat / 65536, low.toNat % 65536], true, []) := by
    rw [readGroups, readSeparator_zero, Option.bind_some, Option.bind_some,
      readIpv4_group 0xFFFF hcolon, ite_self, readNumber_group (by decide) hcolon]
    dsimp only
    rw [readGroups, readSeparator_succ, Option.bind_some, readIpv4_all]
    rfl
  have hbits : ofGroups ([] ++ List.replicate 5 0 ++
      [0xFFFF, low.toNat / 65536, low.toNat % 65536]) = bits := by
    apply BitVec.eq_of_toNat_eq
    have := bits.isLt
    rw [ofGroups, BitVec.toNat_ofNat, htoNat]
    simp only [List.nil_append, List.replicate, List.cons_append, List.foldl_cons, List.foldl_nil]
    omega
  change readIpv6 (':' :: ':' :: (Nat.toDigits 16 0xFFFF ++ ':' :: showV4 low)) = _
  unfold readIpv6
  rw [hfront]
  dsimp only
  rw [if_neg (by decide), if_neg Bool.false_ne_true, readChar_self, Option.bind_eq_bind,
    Option.bind_some, readChar_self, Option.bind_some]
  dsimp only [List.length_nil]
  rw [hback]
  exact congrArg (fun bits ↦ some (bits, [])) hbits

theorem readIpv6_show (bits : BitVec 128) : readIpv6 (showV6 bits) = some (bits, []) := by
  unfold showV6
  dsimp only
  split
  · rename_i hmapped
    exact readIpv6_mapped hmapped
  · have hrun : ZeroRun (groups bits) (zeroRun 0 (0, 0) (0, 0) (groups bits)) :=
      zeroRun_holds (fun j hj ↦ absurd hj (Nat.not_lt_zero j)) (fun h ↦ absurd rfl h)
        (fun j hj ↦ absurd hj (Nat.not_lt_zero j)) rfl
    split
    · rename_i hlong
      have hpos := Nat.zero_lt_of_lt hlong
      have hgap := readIpv6_gap hpos (hrun.eq_append hpos).2
      rw [showGroups_eq, showGroups_eq, List.append_assoc]
      exact hgap
    · rw [showGroups_eq]
      exact readIpv6_groups bits

/-! ## Addresses -/

theorem AtGap.readIpv4 {rest : Str} (h : AtGap rest) : readIpv4 rest = none := by
  cases h with
  | done => rfl
  | gap s => exact readIpv4_eq_none (by simp [toDigit])

theorem readIpv4_groupsText (gs : List Nat) {rest : Str} (h : AtGap rest) :
    readIpv4 (groupsText 0 gs ++ rest) = none := by
  cases gs with
  | nil => exact h.readIpv4
  | cons g gs =>
    rw [groupsText, if_pos rfl, List.nil_append, List.append_assoc]
    exact readIpv4_group g (h.head 0 gs)

/-- No IPv6 address is taken for one of IPv4. -/
theorem readIpv4_showV6 (bits : BitVec 128) : readIpv4 (showV6 bits) = none := by
  unfold showV6
  dsimp only
  split
  · exact (AtGap.gap _).readIpv4
  · split
    · rw [showGroups_eq, List.append_assoc]
      exact readIpv4_groupsText _ (AtGap.gap _)
    · have := readIpv4_groupsText (groups bits) AtGap.done
      rwa [List.append_nil, ← showGroups_eq] at this

/-- The text of an address is read as the address. -/
theorem IpAddr.parse_show (a : IpAddr) : IpAddr.parse a.show = some a := by
  unfold IpAddr.parse
  cases a with
  | v4 bits =>
    rw [IpAddr.show, readIpv4_all]
    rfl
  | v6 bits =>
    rw [IpAddr.show, readIpv4_showV6, readIpv6_show]
    rfl

end Net
