import Modem2Sip.Lib.NetText
import Modem2Sip.Lib.Prefix
import Modem2Sip.Sip.Server

/-!
# Who may speak to the element

`sip/core.rs`: the rules of `sip.allow`.  A rule `net/prefix` lets in the addresses of
a network, and whether an address is one of them is decided with a mask that is made by
a shift.
-/

namespace Modem2Sip.Sip

open Text Net Prefix

/-! ## Networks -/

/-- The address is of the same family, and its first bits are those of the network. -/
def InNetwork : IpAddr → Nat → IpAddr → Prop
  | .v4 net, len, .v4 src => len ≤ 32 ∧ Agree len net src
  | .v6 net, len, .v6 src => len ≤ 128 ∧ Agree len net src
  | _, _, _ => False

instance (net : IpAddr) (len : Nat) (src : IpAddr) : Decidable (InNetwork net len src) :=
  match net, src with
  | .v4 _, .v4 _ => inferInstanceAs (Decidable (_ ∧ _))
  | .v6 _, .v6 _ => inferInstanceAs (Decidable (_ ∧ _))
  | .v4 _, .v6 _ => inferInstanceAs (Decidable False)
  | .v6 _, .v4 _ => inferInstanceAs (Decidable False)

/-- A network has the addresses of each larger one that it is part of. -/
theorem InNetwork.mono {net src : IpAddr} {len : Nat} (h : InNetwork net len src) {shorter : Nat}
    (hle : shorter ≤ len) : InNetwork net shorter src := by
  cases net with
  | v4 net =>
    cases src with
    | v4 src => exact ⟨hle.trans h.1, h.2.mono hle⟩
    | v6 src => exact h
  | v6 net =>
    cases src with
    | v4 src => exact h
    | v6 src => exact ⟨hle.trans h.1, h.2.mono hle⟩

/-! ## Masks -/

theorem getMsbD_prefixMask {width len : Nat} (hlen : len ≤ width) (i : Nat) :
    (prefixMask width len).getMsbD i = decide (i < len) := by
  unfold prefixMask
  split
  · rename_i hzero
    simp [hzero]
  · exact getMsbD_allOnes_shiftLeft hlen i

theorem masked_iff {width len : Nat} (net src : BitVec width) :
    (len ≤ width && net &&& prefixMask width len == src &&& prefixMask width len) = true ↔
      len ≤ width ∧ Agree len net src := by
  rw [Bool.and_eq_true, decide_eq_true_iff, beq_iff_eq]
  exact and_congr_right fun hlen ↦ and_eq_and_iff hlen fun i _ ↦ getMsbD_prefixMask hlen i

/-! ## Rules -/

/-- The rule is `net/len`, possibly with blanks around it and around the slash, and in whatever
spelling of the address and of the number. -/
def NetworkRule (rule : Str) (net : IpAddr) (len : Nat) : Prop :=
  ∃ a b, splitAt '/' (trim rule) = some (a, b) ∧ IpAddr.parse (trim a) = some net ∧
    parseU32 (trim b) = some len

theorem ipMatches_iff {rule : Str} {net : IpAddr} {len : Nat} (h : NetworkRule rule net len)
    (src : IpAddr) : ipMatches rule src = true ↔ InNetwork net len src := by
  obtain ⟨a, b, hsplit, hnet, hlen⟩ := h
  unfold ipMatches
  dsimp only
  rw [hsplit]
  dsimp only
  rw [hnet, hlen]
  cases net with
  | v4 net =>
    cases src with
    | v4 src => exact masked_iff net src
    | v6 src => exact iff_of_false Bool.false_ne_true id
  | v6 net =>
    cases src with
    | v4 src => exact iff_of_false Bool.false_ne_true id
    | v6 src => exact masked_iff net src

/-- The usual spelling. -/
def cidr (net : IpAddr) (len : Nat) : Str := net.show ++ '/' :: dec len

theorem splitAt_cidr (net : IpAddr) (len : Nat) :
    splitAt '/' (trim (cidr net len)) = some (net.show, dec len) := by
  have hblank : ∀ c ∈ cidr net len, isWhitespace c = false := by
    rw [cidr, List.forall_mem_append, List.forall_mem_cons]
    exact ⟨IpAddr.isWhitespace_of_mem_show net, by decide, isWhitespace_of_mem_dec len⟩
  rw [trim_eq_self hblank]
  exact splitAt_append_cons (IpAddr.slash_not_mem_show net) _

theorem parse_trim_show (net : IpAddr) : IpAddr.parse (trim net.show) = some net := by
  rw [trim_eq_self (IpAddr.isWhitespace_of_mem_show net), IpAddr.parse_show]

theorem networkRule_cidr (net : IpAddr) {len : Nat} (h : len < 2 ^ 32) :
    NetworkRule (cidr net len) net len := by
  refine ⟨_, _, splitAt_cidr net len, parse_trim_show net, ?_⟩
  rw [trim_eq_self (isWhitespace_of_mem_dec len)]
  exact parseUnsigned_dec h

/-- A length that is no `u32` is no length of a prefix, either. -/
theorem ipMatches_cidr_large (net src : IpAddr) {len : Nat} (h : 2 ^ 32 ≤ len) :
    ipMatches (cidr net len) src = false := by
  have hlen : parseU32 (trim (dec len)) = none := by
    rw [trim_eq_self (isWhitespace_of_mem_dec len)]
    refine (parseUnsigned_dec_eq len _).trans ?_
    rw [Option.filter_some, if_neg (by simpa using h)]
  unfold ipMatches
  dsimp only
  rw [splitAt_cidr]
  dsimp only
  rw [hlen]
  cases IpAddr.parse (trim net.show) with
  | none => rfl
  | some net => cases net <;> rfl

theorem ipMatches_cidr_iff (net : IpAddr) (len : Nat) (src : IpAddr) :
    ipMatches (cidr net len) src = true ↔ InNetwork net len src := by
  by_cases h : len < 2 ^ 32
  · exact ipMatches_iff (networkRule_cidr net h) src
  · rw [ipMatches_cidr_large net src (Nat.le_of_not_lt h)]
    refine iff_of_false Bool.false_ne_true fun hin ↦ ?_
    cases net with
    | v4 net =>
      cases src with
      | v4 src => exact h (hin.1.trans_lt (by decide))
      | v6 src => exact hin
    | v6 net =>
      cases src with
      | v4 src => exact hin
      | v6 src => exact h (hin.1.trans_lt (by decide))

/-! ## Arithmetic that is checked -/

/-- `a - b` of an unsigned type. -/
def checkedSub (a b : Nat) : Option Nat := if b ≤ a then some (a - b) else none

/-- `x << n`, for which `n` has to be less than the number of bits. -/
def checkedShl {width : Nat} (x : BitVec width) (n : Nat) : Option (BitVec width) :=
  if n < width then some (x <<< n) else none

def checkedMask (width len : Nat) : Option (BitVec width) :=
  if len = 0 then some 0 else (checkedSub width len).bind (checkedShl (BitVec.allOnes width))

def checkedMatch {width : Nat} (net src : BitVec width) (len : Nat) : Option Bool :=
  if len ≤ width then (checkedMask width len).map fun mask ↦ net &&& mask == src &&& mask
  else some false

/-- `ip_matches` where an overflow stops it. -/
def checkedIpMatches (rule : Str) (ip : IpAddr) : Option Bool :=
  let rule := trim rule
  match splitAt '/' rule with
  | some (net, len) =>
    match IpAddr.parse (trim net), parseU32 (trim len) with
    | some (.v4 n), some len =>
      match ip with
      | .v4 a => checkedMatch n a len
      | .v6 _ => some false
    | some (.v6 n), some len =>
      match ip with
      | .v4 _ => some false
      | .v6 a => checkedMatch n a len
    | _, _ => some false
  | none =>
    match IpAddr.parse rule with
    | some r => some (r == ip)
    | none => some false

/-- The guard and the case of 0 leave shifts by less than the word. -/
theorem checkedMask_eq {width len : Nat} (h : len ≤ width) :
    checkedMask width len = some (prefixMask width len) := by
  unfold checkedMask prefixMask
  split
  · rfl
  · rename_i hne
    rw [checkedSub, if_pos h, Option.bind_some, checkedShl, if_pos (by omega)]

theorem checkedMatch_eq {width : Nat} (net src : BitVec width) (len : Nat) :
    checkedMatch net src len =
      some (len ≤ width && net &&& prefixMask width len == src &&& prefixMask width len) := by
  unfold checkedMatch
  split
  · rename_i h
    rw [checkedMask_eq h, Option.map_some, decide_eq_true h, Bool.true_and]
  · rename_i h
    rw [decide_eq_false h, Bool.false_and]

theorem checkedIpMatches_eq (rule : Str) (ip : IpAddr) :
    checkedIpMatches rule ip = some (ipMatches rule ip) := by
  unfold checkedIpMatches ipMatches
  dsimp only
  cases splitAt '/' (trim rule) with
  | none =>
    dsimp only
    cases IpAddr.parse (trim rule) with
    | none => rfl
    | some r => rfl
  | some parts =>
    dsimp only
    cases IpAddr.parse (trim parts.1) with
    | none => rfl
    | some net =>
      cases parseU32 (trim parts.2) with
      | none => cases net <;> rfl
      | some len =>
        cases net with
        | v4 n =>
          cases ip with
          | v4 a => exact checkedMatch_eq n a len
          | v6 a => rfl
        | v6 n =>
          cases ip with
          | v4 a => rfl
          | v6 a => exact checkedMatch_eq n a len

/-- A rule `net/len` lets in the addresses of the network and no others, and with it every shorter
prefix of the same address; none of the shifts for the mask is as long as the word. -/
theorem ipMatches_network (net : IpAddr) (len : Nat) (src : IpAddr) :
    (ipMatches (cidr net len) src = true ↔ InNetwork net len src) ∧
      (∀ rule, NetworkRule rule net len → (ipMatches rule src = true ↔ InNetwork net len src)) ∧
      (∀ shorter ≤ len, ipMatches (cidr net len) src = true →
        ipMatches (cidr net shorter) src = true) ∧
      ∀ rule, checkedIpMatches rule src = some (ipMatches rule src) := by
  refine ⟨ipMatches_cidr_iff net len src, ?_, ?_, fun rule ↦ checkedIpMatches_eq rule src⟩
  · intro rule hrule
    exact ipMatches_iff hrule src
  · intro shorter hle hmatch
    have hin := (ipMatches_cidr_iff net len src).mp hmatch
    exact (ipMatches_cidr_iff net shorter src).mpr (hin.mono hle)

example : ipMatches "192.168.1.77/24" (.v4 (ofOctets 192 168 1 42)) = true ∧
    ¬ InNetwork (.v4 (ofOctets 192 168 1 77)) 25 (.v4 (ofOctets 192 168 1 142)) := by
  decide +kernel

end Modem2Sip.Sip
