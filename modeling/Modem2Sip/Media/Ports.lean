import Modem2Sip.Lib.Cycle
import Modem2Sip.Lib.Text

/-!
# RTP ports

`MediaSession::bind_port` of `media.rs`: an even port of the configured range is bound, whose odd partner
is in the range, too.  The walk starts at a port chosen at random, and goes around once.  What binding a
port comes to is decided outside, and so is the random number.  Ports are `u16`, whose overflow would be a
panic.
-/

namespace Modem2Sip.Media

open Text

/-! ## Arithmetic -/

def addPort (a b : Nat) : Option Nat := if a + b < 2 ^ 16 then some (a + b) else none

def subPort (a b : Nat) : Option Nat := if b ≤ a then some (a - b) else none

def mulPort (a b : Nat) : Option Nat := if a * b < 2 ^ 16 then some (a * b) else none

/-- `saturating_add`. -/
def saturatingAddPort (a b : Nat) : Nat := min (a + b) (2 ^ 16 - 1)

/-- `& !1`. -/
def evenPort (p : Nat) : Nat := p / 2 * 2

/-- Where the walk goes from a port. -/
def nextPort (first last port : Nat) : Option Nat := if last ≤ port then some first else addPort port 2

/-! ## The walk -/

/-- What it comes to to bind a port. -/
inductive Bind where
  | bound
  | inUse
  | failed (e : Str)

inductive BindError where
  | noPair (portMin portMax : Nat)
  | failed (ip e : Str)
  | allInUse (portMin portMax : Nat) (ip : Str)
deriving DecidableEq

def BindError.text : BindError → Str
  | .noPair portMin portMax => "no even RTP port pair fits in " ++ dec portMin ++ ".." ++ dec portMax
  | .failed ip e => "cannot bind RTP to " ++ ip ++ ": " ++ e
  | .allInUse portMin portMax ip =>
    "every RTP port in " ++ dec portMin ++ ".." ++ dec portMax ++ " on " ++ ip ++ " is already in use"

/-- The ports that were tried, in this order, and what came of it. -/
structure Binding where
  tried : List Nat
  result : Except BindError Nat

/-- `bind_port`, for a range and an address. -/
structure PortRange where
  portMin : Nat
  portMax : Nat
  ip : Str

namespace PortRange

variable (range : PortRange) (bind : Nat → Bind)

/-- The loop, with so many ports left to try. -/
def walkPorts (first last : Nat) : Nat → Nat → Option Binding
  | 0, _ => some ⟨[], .error (.allInUse range.portMin range.portMax range.ip)⟩
  | slots + 1, port =>
    match bind port with
    | .bound => some ⟨[port], .ok port⟩
    | .failed e => some ⟨[port], .error (.failed range.ip e)⟩
    | .inUse => do
      let next ← nextPort first last port
      let binding ← walkPorts first last slots next
      return { binding with tried := port :: binding.tried }

/-- The first port that may be tried. -/
def firstPort : Nat := evenPort (saturatingAddPort range.portMin 1)

/-- And the last one. -/
def lastPort : Option Nat := ((subPort range.portMax 1).filter (range.firstPort ≤ ·)).map evenPort

/-- `bind_port`, where `genRange` is the random number below a bound. -/
def bindPort (genRange : Nat → Nat) : Option Binding :=
  match range.lastPort with
  | none => some ⟨[], .error (.noPair range.portMin range.portMax)⟩
  | some last => do
    let span ← subPort last range.firstPort
    let slots ← addPort (span / 2) 1
    let offset ← mulPort 2 (genRange slots)
    let port ← addPort range.firstPort offset
    walkPorts range bind range.firstPort last slots port

/-- An even port of the range whose odd partner is in it, too. -/
def Pair (p : Nat) : Prop := p % 2 = 0 ∧ range.portMin ≤ p ∧ p + 1 ≤ range.portMax

/-- Ports of the range are tried, none of them twice, up to the first that is not busy.  There is no more
to it: only when every one of them was busy, it is said that they are in use, and only when there is none,
that there is none. -/
structure Walked (b : Binding) : Prop where
  pair : ∀ p ∈ b.tried, range.Pair p
  nodup : b.tried.Nodup
  ok : ∀ p, b.result = .ok p →
    ∃ busy, b.tried = busy ++ [p] ∧ bind p = .bound ∧ ∀ q ∈ busy, bind q = .inUse
  failed : ∀ ip e, b.result = .error (.failed ip e) →
    ip = range.ip ∧ ∃ busy p, b.tried = busy ++ [p] ∧ bind p = .failed e ∧ ∀ q ∈ busy, bind q = .inUse
  allInUse : ∀ portMin portMax ip, b.result = .error (.allInUse portMin portMax ip) →
    ∀ p, range.Pair p → p ∈ b.tried ∧ bind p = .inUse
  noPair : (∃ portMin portMax, b.result = .error (.noPair portMin portMax)) ↔ ¬ ∃ p, range.Pair p

/-! ## Every walk -/

variable {range bind} {first last n : Nat}

/-- One port after the other is tried. -/
def scan (range : PortRange) (bind : Nat → Bind) : List Nat → Binding
  | [] => ⟨[], .error (.allInUse range.portMin range.portMax range.ip)⟩
  | port :: ports =>
    match bind port with
    | .bound => ⟨[port], .ok port⟩
    | .failed e => ⟨[port], .error (.failed range.ip e)⟩
    | .inUse => { scan range bind ports with tried := port :: (scan range bind ports).tried }

/-- The loop tries the ports around the range, and no port overflows. -/
theorem walkPorts_eq (hn : 0 < n) (hlast : first + 2 * (n - 1) = last) (hfits : last < 2 ^ 16)
    (slots start : Nat) :
    walkPorts range bind first last slots (first + 2 * (start % n)) =
      some (scan range bind ((Cycle.walk n slots start).map (first + 2 * ·))) := by
  induction slots generalizing start with
  | zero => rfl
  | succ slots ih =>
    rw [Cycle.walk_succ, List.map_cons, walkPorts, scan]
    cases bind (first + 2 * (start % n)) with
    | bound => rfl
    | failed e => rfl
    | inUse =>
      have hlt : start % n < n := Nat.mod_lt start hn
      have hnext : nextPort first last (first + 2 * (start % n)) = some (first + 2 * ((start + 1) % n)) := by
        rw [Cycle.succ_mod hn, nextPort, addPort]
        by_cases hend : start % n = n - 1
        · rw [if_pos hend, if_pos (by omega), Nat.mul_zero, Nat.add_zero]
        · rw [if_neg hend, if_neg (by omega), if_pos (by omega), Nat.mul_succ, Nat.add_assoc]
      dsimp only
      rw [hnext]
      change ((walkPorts range bind first last slots (first + 2 * ((start + 1) % n))).bind _) = _
      rw [ih]
      rfl

/-- What was tried is the beginning of the ports, up to the first that is not busy. -/
structure Scanned (range : PortRange) (bind : Nat → Bind) (ports : List Nat) (b : Binding) : Prop where
  tried : b.tried <+: ports
  ok : ∀ p, b.result = .ok p →
    ∃ busy, b.tried = busy ++ [p] ∧ bind p = .bound ∧ ∀ q ∈ busy, bind q = .inUse
  failed : ∀ ip e, b.result = .error (.failed ip e) →
    ip = range.ip ∧ ∃ busy p, b.tried = busy ++ [p] ∧ bind p = .failed e ∧ ∀ q ∈ busy, bind q = .inUse
  allInUse : ∀ portMin portMax ip, b.result = .error (.allInUse portMin portMax ip) →
    b.tried = ports ∧ ∀ q ∈ ports, bind q = .inUse
  noPair : ∀ portMin portMax, b.result ≠ .error (.noPair portMin portMax)

theorem scanned_scan (ports : List Nat) : Scanned range bind ports (scan range bind ports) := by
  induction ports with
  | nil => exact ⟨List.prefix_rfl, nofun, nofun, fun _ _ _ _ ↦ ⟨rfl, nofun⟩, nofun⟩
  | cons port ports ih =>
    rw [scan]
    cases hbind : bind port with
    | bound =>
      refine ⟨⟨ports, rfl⟩, ?_, nofun, nofun, nofun⟩
      rintro p ⟨⟩
      exact ⟨[], rfl, hbind, nofun⟩
    | failed e =>
      refine ⟨⟨ports, rfl⟩, nofun, ?_, nofun, nofun⟩
      rintro ip e' ⟨⟩
      exact ⟨rfl, [], port, rfl, hbind, nofun⟩
    | inUse =>
      have hbusy {busy : List Nat} (h : ∀ q ∈ busy, bind q = .inUse) : ∀ q ∈ port :: busy, bind q = .inUse :=
        List.forall_mem_cons.mpr ⟨hbind, h⟩
      refine ⟨List.cons_prefix_cons.mpr ⟨rfl, ih.tried⟩, ?_, ?_, ?_, ih.noPair⟩
      · intro p hp
        obtain ⟨busy, htried, hbound, hinUse⟩ := ih.ok p hp
        exact ⟨port :: busy, congrArg (port :: ·) htried, hbound, hbusy hinUse⟩
      · intro ip e he
        obtain ⟨hip, busy, p, htried, hfailed, hinUse⟩ := ih.failed ip e he
        exact ⟨hip, port :: busy, p, congrArg (port :: ·) htried, hfailed, hbusy hinUse⟩
      · intro portMin portMax ip he
        obtain ⟨htried, hinUse⟩ := ih.allInUse portMin portMax ip he
        exact ⟨congrArg (port :: ·) htried, hbusy hinUse⟩

/-- A walk around all the ports. -/
theorem walked_scan (hn : 0 < n) (start : Nat)
    (hpair : ∀ p, range.Pair p ↔ ∃ i < n, first + 2 * i = p) :
    range.Walked bind (scan range bind ((Cycle.walk n n start).map (first + 2 * ·))) := by
  have hscanned : Scanned range bind _ _ := scanned_scan ((Cycle.walk n n start).map (first + 2 * ·))
  have hmem (p : Nat) : p ∈ (Cycle.walk n n start).map (first + 2 * ·) ↔ range.Pair p := by
    rw [List.mem_map, hpair]
    exact exists_congr fun i ↦ and_congr_left' (Cycle.mem_walk_iff hn)
  have hnodup : ((Cycle.walk n n start).map (first + 2 * ·)).Nodup :=
    (Cycle.nodup_walk le_rfl).map fun i j (heq : first + 2 * i = first + 2 * j) ↦ by omega
  refine ⟨fun p hp ↦ (hmem p).mp (hscanned.tried.subset hp), hnodup.sublist hscanned.tried.sublist,
    hscanned.ok, hscanned.failed, ?_, ?_⟩
  · intro portMin portMax ip he p hp
    obtain ⟨htried, hinUse⟩ := hscanned.allInUse portMin portMax ip he
    refine ⟨?_, hinUse p ((hmem p).mpr hp)⟩
    rw [htried]
    exact (hmem p).mpr hp
  · refine iff_of_false ?_ (not_not_intro ⟨first, (hpair first).mpr ⟨0, hn, rfl⟩⟩)
    rintro ⟨portMin, portMax, he⟩
    exact hscanned.noPair _ _ he

/-- The ports that may be tried are those between the first one and the last one, if there are any. -/
theorem lastPort_cases (hlt : range.portMin < range.portMax) (hmax : range.portMax ≤ 65535) :
    (range.lastPort = none ∧ ¬ ∃ p, range.Pair p) ∨
      ∃ n, 0 < n ∧ range.firstPort + 2 * (n - 1) < 2 ^ 16 ∧
        range.lastPort = some (range.firstPort + 2 * (n - 1)) ∧
        ∀ p, range.Pair p ↔ ∃ i < n, range.firstPort + 2 * i = p := by
  have hfirst : range.firstPort = (range.portMin + 1) / 2 * 2 := by
    rw [firstPort, saturatingAddPort, min_eq_left (by omega), evenPort]
  rw [lastPort, subPort, if_pos (by omega), Option.filter_some]
  by_cases hroom : range.firstPort ≤ range.portMax - 1
  · right
    rw [if_pos (decide_eq_true hroom), Option.map_some, evenPort]
    refine ⟨((range.portMax - 1) / 2 * 2 - range.firstPort) / 2 + 1, Nat.succ_pos _, by omega, ?_, fun p ↦ ?_⟩
    · congr 1
      omega
    · constructor
      · rintro ⟨heven, hlow, hhigh⟩
        exact ⟨(p - range.firstPort) / 2, by omega, by omega⟩
      · rintro ⟨i, hi, rfl⟩
        refine ⟨?_, ?_, ?_⟩ <;> omega
  · left
    rw [if_neg (by simpa using hroom)]
    refine ⟨rfl, ?_⟩
    rintro ⟨p, heven, hlow, hhigh⟩
    omega

/-- Every valid range is walked around, without an overflow, from whichever port, and whatever becomes of
the ports. -/
theorem bindPort_walked (hlt : range.portMin < range.portMax) (hmax : range.portMax ≤ 65535)
    {genRange : Nat → Nat} (hgen : ∀ n, 0 < n → genRange n < n) (bind : Nat → Bind) :
    ∃ b, range.bindPort bind genRange = some b ∧ range.Walked bind b := by
  rw [bindPort]
  obtain ⟨hlast, hnone⟩ | ⟨n, hn, hfits, hlast, hpair⟩ := lastPort_cases hlt hmax
  · rw [hlast]
    exact ⟨_, rfl, nofun, List.nodup_nil, nofun, nofun, nofun, iff_of_true ⟨_, _, rfl⟩ hnone⟩
  · have hgen := hgen n hn
    have hslots : (range.firstPort + 2 * (n - 1) - range.firstPort) / 2 + 1 = n := by omega
    refine ⟨_, ?_, walked_scan hn (genRange n) hpair⟩
    rw [hlast]
    dsimp only
    rw [subPort, if_pos (Nat.le_add_right _ _)]
    change ((addPort ((range.firstPort + 2 * (n - 1) - range.firstPort) / 2) 1).bind _) = _
    rw [addPort, hslots, if_pos (by omega)]
    change ((mulPort 2 (genRange n)).bind _) = _
    rw [mulPort, if_pos (by omega)]
    change ((addPort range.firstPort (2 * genRange n)).bind _) = _
    rw [addPort, if_pos (by omega)]
    have hwalk : walkPorts range bind range.firstPort (range.firstPort + 2 * (n - 1)) n
        (range.firstPort + 2 * (genRange n % n)) = some (scan range bind _) :=
      walkPorts_eq hn rfl hfits n (genRange n)
    rwa [Nat.mod_eq_of_lt hgen] at hwalk

/-- A range with odd bounds, of which one port is busy. -/
theorem bindPort_walked_busy :
    ∃ b, PortRange.bindPort ⟨20001, 20006, "127.0.0.1"⟩ (fun p ↦ if p = 20002 then .inUse else .bound)
        (fun _ ↦ 0) = some b ∧
      PortRange.Walked ⟨20001, 20006, "127.0.0.1"⟩ (fun p ↦ if p = 20002 then .inUse else .bound) b :=
  bindPort_walked (by decide) (by decide) (fun _ hn ↦ hn) _

end PortRange

end Modem2Sip.Media
