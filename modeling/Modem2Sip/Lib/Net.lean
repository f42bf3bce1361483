import Modem2Sip.Lib.Text

/-!
# Internet addresses

Addresses as the bits they are, with the reader and the writer of their text.
The reader follows the grammar of the standard library of the modelled language:
four decimal octets without leading zeros, or up to eight groups of hexadecimal
digits of which one `::` may leave some out, the last two groups possibly written
as an IPv4 address.
-/

namespace Net

open Text

inductive IpAddr where
  | v4 (bits : BitVec 32)
  | v6 (bits : BitVec 128)
deriving DecidableEq, Repr

namespace IpAddr

/-- The address that stands for no address. -/
def isUnspecified : IpAddr → Bool
  | .v4 bits => bits == 0
  | .v6 bits => bits == 0

def isV6 : IpAddr → Bool
  | .v4 _ => false
  | .v6 _ => true

end IpAddr

/-- An IPv4 address from its four octets. -/
def ofOctets (a b c d : Nat) : BitVec 32 :=
  BitVec.ofNat 32 (a * 2 ^ 24 + b * 2 ^ 16 + c * 2 ^ 8 + d)

/-- The four octets, the most significant first. -/
def octets (bits : BitVec 32) : List Nat :=
  [bits.toNat / 2 ^ 24, bits.toNat / 2 ^ 16 % 256, bits.toNat / 2 ^ 8 % 256, bits.toNat % 256]

/-- An IPv6 address from its groups. -/
def ofGroups (gs : List Nat) : BitVec 128 :=
  BitVec.ofNat 128 (gs.foldl (fun acc g ↦ acc * 65536 + g) 0)

/-- The eight groups, the most significant first. -/
def groups (bits : BitVec 128) : List Nat :=
  (List.range 8).map fun i ↦ bits.toNat / 2 ^ (112 - 16 * i) % 65536

/-! ## Reading

Each reader takes a prefix off the text and returns what is left. -/

/-- A run of at least one and at most `maxDigits` digits. -/
def readNumber (radix maxDigits : Nat) (zeroPrefix : Bool) (s : Str) : Option (Nat × Str) :=
  let ds := s.takeWhile fun c ↦ (toDigit radix c).isSome
  if ds = [] || decide (maxDigits < ds.length) then none
  else if !zeroPrefix && ds.head? == some '0' && decide (1 < ds.length) then none
  else (digitsValue radix 0 ds).map fun n ↦ (n, s.drop ds.length)

/-- Read one given character. -/
def readChar (c : Char) : Str → Option Str
  | x :: s => if x = c then some s else none
  | [] => none

/-- Read the separator unless this is the first item. -/
def readSeparator (c : Char) (i : Nat) (s : Str) : Option Str :=
  if i = 0 then some s else readChar c s

def readOctet (i : Nat) (s : Str) : Option (Nat × Str) := do
  let s ← readSeparator '.' i s
  let (n, s) ← readNumber 10 3 false s
  if n < 256 then some (n, s) else none

def readIpv4 (s : Str) : Option (BitVec 32 × Str) := do
  let (a, s) ← readOctet 0 s
  let (b, s) ← readOctet 1 s
  let (c, s) ← readOctet 2 s
  let (d, s) ← readOctet 3 s
  some (ofOctets a b c d, s)

/-- Read groups until none follows or `left` of them are there.  The flag says whether the
last two were written as an IPv4 address. -/
def readGroups (i : Nat) : Nat → Str → List Nat × Bool × Str
  | 0, s => ([], false, s)
  | left + 1, s =>
    match (if left = 0 then none else (readSeparator ':' i s).bind readIpv4) with
    | some (v4, s) => ([v4.toNat / 65536, v4.toNat % 65536], true, s)
    | none =>
      match (readSeparator ':' i s).bind (readNumber 16 4 true) with
      | none => ([], false, s)
      | some (g, s) =>
        let (gs, v4, s) := readGroups (i + 1) left s
        (g :: gs, v4, s)

def readIpv6 (s : Str) : Option (BitVec 128 × Str) := do
  let (head, headV4, s) := readGroups 0 8 s
  if head.length = 8 then some (ofGroups head, s)
  else if headV4 then none
  else
    let s ← readChar ':' s
    let s ← readChar ':' s
    let (tail, _, s) := readGroups 0 (8 - (head.length + 1)) s
    some (ofGroups (head ++ List.replicate (8 - head.length - tail.length) 0 ++ tail), s)

namespace IpAddr

/-- `parse::<IpAddr>`: the whole text is one address. -/
def parse (s : Str) : Option IpAddr :=
  match (readIpv4 s).map (fun (a, s) ↦ (IpAddr.v4 a, s)) <|>
      (readIpv6 s).map (fun (a, s) ↦ (IpAddr.v6 a, s)) with
  | some (a, []) => some a
  | _ => none

end IpAddr

/-! ## Writing -/

def showV4 (bits : BitVec 32) : Str :=
  ['.'].intercalate ((octets bits).map dec)

/-- Groups separated by colons, in lower-case hexadecimal. -/
def showGroups (gs : List Nat) : Str := [':'].intercalate (gs.map (Nat.toDigits 16))

/-- Where the first longest run of zero groups starts, and its length: `cur` is the run that
ends just before group `i`. -/
def zeroRun : Nat → Nat × Nat → Nat × Nat → List Nat → Nat × Nat
  | _, _, longest, [] => longest
  | i, cur, longest, g :: gs =>
    if g = 0 then
      let cur := (if cur.2 = 0 then i else cur.1, cur.2 + 1)
      zeroRun (i + 1) cur (if longest.2 < cur.2 then cur else longest) gs
    else zeroRun (i + 1) (0, 0) longest gs

def showV6 (bits : BitVec 128) : Str :=
  let gs := groups bits
  if bits.toNat / 2 ^ 32 = 0xFFFF then "::ffff:" ++ showV4 (bits.setWidth 32)
  else
    let (start, len) := zeroRun 0 (0, 0) (0, 0) gs
    if 1 < len then showGroups (gs.take start) ++ "::" ++ showGroups (gs.drop (start + len))
    else showGroups gs

namespace IpAddr

/-- The text of an address. -/
def «show» : IpAddr → Str
  | .v4 bits => showV4 bits
  | .v6 bits => showV6 bits

section Characters

variable {p : Char → Prop}

theorem forall_mem_showV4 (hdigit : ∀ n, p (Nat.digitChar n)) (hdot : p '.') (bits : BitVec 32) :
    ∀ c ∈ showV4 bits, p c := by
  refine forall_mem_intercalate (by simpa using hdot) fun s hs ↦ ?_
  obtain ⟨n, -, rfl⟩ := List.mem_map.mp hs
  exact forall_mem_toDigits hdigit 10 n

theorem forall_mem_showGroups (hdigit : ∀ n, p (Nat.digitChar n)) (hcolon : p ':') (gs : List Nat) :
    ∀ c ∈ showGroups gs, p c := by
  refine forall_mem_intercalate (by simpa using hcolon) fun s hs ↦ ?_
  obtain ⟨n, -, rfl⟩ := List.mem_map.mp hs
  exact forall_mem_toDigits hdigit 16 n

/-- What holds of the digits, the dot and the colon holds of the characters of an address. -/
theorem forall_mem_show (hdigit : ∀ n, p (Nat.digitChar n)) (hdot : p '.') (hcolon : p ':')
    (a : IpAddr) : ∀ c ∈ a.show, p c := by
  cases a with
  | v4 bits => exact forall_mem_showV4 hdigit hdot bits
  | v6 bits =>
      unfold IpAddr.show showV6
      dsimp only
      split
      · rw [List.forall_mem_append]
        refine ⟨?_, forall_mem_showV4 hdigit hdot _⟩
        have hf : p 'f' := hdigit 15
        simp [hcolon, hf]
      · split
        · rw [List.forall_mem_append, List.forall_mem_append]
          refine ⟨⟨forall_mem_showGroups hdigit hcolon _, ?_⟩, forall_mem_showGroups hdigit hcolon _⟩
          simpa using hcolon
        · exact forall_mem_showGroups hdigit hcolon _

end Characters

theorem isWhitespace_of_mem_show (a : IpAddr) : ∀ c ∈ a.show, isWhitespace c = false :=
  forall_mem_show (forall_digitChar (by decide) (by decide)) (by decide) (by decide) a

theorem slash_not_mem_show (a : IpAddr) : '/' ∉ a.show := by
  have hne : ∀ c ∈ a.show, c ≠ '/' :=
    forall_mem_show (forall_digitChar (by decide) (by decide)) (by decide) (by decide) a
  exact fun hmem ↦ hne _ hmem rfl

theorem plain_show (a : IpAddr) : Plain a.show :=
  forall_mem_show isPlain_digitChar (by decide) (by decide) a

example : parse "2001:db8::5" = some (.v6 (ofGroups [0x2001, 0xdb8, 0, 0, 0, 0, 0, 5])) := by
  decide

example : (IpAddr.v6 (ofGroups [0x2001, 0xdb8, 0, 0, 1, 0, 0, 5])).show = "2001:db8::1:0:0:5" := by
  decide

end IpAddr

/-- An address and a port. -/
structure SocketAddr where
  ip : IpAddr
  port : Nat
deriving DecidableEq, Repr

end Net
