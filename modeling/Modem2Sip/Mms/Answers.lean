import Modem2Sip.Lib.Lines
import Modem2Sip.Mms.Names

/-!
# Queries and their answers

The answer to a query repeats its question and adds records, whose owners are names of
their own or pointers back to the question.  What one function reads as a name the other
gets past, so the record cursor stays in step over any data, and what `parse_answer`
returns are the addresses and the first alias that the records hold.
-/

namespace Modem2Sip.Mms.Dns

open Outcome Text Net Media

variable {w : Nat} {msg : List UInt8}

/-! ## Names on the wire -/

/-- A label of a name. -/
abbrev Label := { l : List UInt8 // l ≠ [] ∧ l.length ≤ 63 }

def Label.encode (l : Label) : List UInt8 := .ofNat l.val.length :: l.val

/-- The labels of a name without the end. -/
def encodeLabels (labels : List Label) : List UInt8 := labels.flatMap Label.encode

theorem Label.length_pos (l : Label) : 0 < l.val.length := List.length_pos_iff.mpr l.property.1

theorem Label.toNat_length (l : Label) : (UInt8.ofNat l.val.length).toNat = l.val.length := by
  have := l.property.2
  rw [UInt8.toNat_ofNat']
  omega

theorem Label.length_ne (l : Label) : UInt8.ofNat l.val.length ≠ 0 := by
  intro h
  have hlen := congrArg UInt8.toNat h
  have hpos := l.length_pos
  rw [l.toNat_length] at hlen
  exact absurd hlen (Nat.ne_of_gt hpos)

/-- A length up to 63 is not taken for a pointer. -/
theorem Label.not_isPointer (l : Label) : ¬ IsPointer (UInt8.ofNat l.val.length) := by
  have hall : ∀ n ≤ 63, ¬ IsPointer (UInt8.ofNat n) := by decide
  exact hall _ l.property.2

theorem length_encodeLabels_cons (l : Label) (labels : List Label) :
    (encodeLabels (l :: labels)).length = 1 + l.val.length + (encodeLabels labels).length := by
  rw [encodeLabels, List.flatMap_cons, List.length_append, Label.encode, List.length_cons, ← encodeLabels]
  omega

/-- A label takes two bytes at least. -/
theorem length_le_encodeLabels (labels : List Label) :
    2 * labels.length ≤ (encodeLabels labels).length := by
  induction labels with
  | nil => exact Nat.zero_le _
  | cons l labels ih =>
    have := l.length_pos
    rw [length_encodeLabels_cons, List.length_cons]
    omega

/-- What is at a position, when something is ahead of it. -/
theorem getElem?_of_drop {pos : Nat} {b : UInt8} {t : List UInt8} (h : msg.drop pos = b :: t) :
    msg[pos]? = some b := by
  rw [← List.head?_drop, h]
  rfl

theorem drop_of_drop {pos : Nat} {x t : List UInt8} (h : msg.drop pos = x ++ t) :
    msg.drop (pos + x.length) = t := by
  rw [← List.drop_drop, h, List.drop_left]

theorem le_of_drop {pos : Nat} {x t : List UInt8} (h : msg.drop pos = x ++ t) (hne : x ≠ []) :
    pos + x.length ≤ msg.length := by
  have hlen := congrArg List.length h
  have hpos := List.length_pos_iff.mpr hne
  rw [List.length_drop, List.length_append] at hlen
  omega

/-- A name without a pointer is read in one pass. -/
theorem walk_of_drop {labels : List Label} {pos : Nat} {t : List UInt8}
    (h : msg.drop pos = encodeLabels labels ++ 0 :: t) : Walk msg pos [labels.map Subtype.val] := by
  induction labels generalizing pos with
  | nil => exact .stop (getElem?_of_drop h)
  | cons l labels ih =>
    rw [encodeLabels, List.flatMap_cons, ← encodeLabels, List.append_assoc, Label.encode] at h
    have hnext : msg.drop (pos + 1) = l.val ++ (encodeLabels labels ++ 0 :: t) :=
      drop_of_drop (x := [.ofNat l.val.length]) h
    have hrest := drop_of_drop hnext
    have hle := le_of_drop hnext l.property.1
    have hlabel : (msg.take (pos + 1 + l.val.length)).drop (pos + 1) = l.val := by
      rw [List.drop_take, hnext, Nat.add_sub_cancel_left, List.take_left]
    have hwalk := Walk.label (getElem?_of_drop h) l.length_ne l.not_isPointer
      (by rw [l.toNat_length]; exact hle) (by rw [l.toNat_length]; exact ih hrest)
    rwa [l.toNat_length, hlabel] at hwalk

/-- And gone past. -/
theorem skipLabels_of_drop (h : IsSlice w msg) {labels : List Label} {n pos : Nat} {t : List UInt8}
    (hdrop : msg.drop pos = encodeLabels labels ++ 0 :: t) (hn : labels.length < n) :
    skipLabels w msg n pos = pure (pos + (encodeLabels labels).length + 1) := by
  induction labels generalizing pos n with
  | nil =>
    obtain ⟨n, rfl⟩ := Nat.exists_eq_succ_of_ne_zero (Nat.ne_of_gt hn)
    have hle := le_of_drop (x := [0]) hdrop (by simp)
    rw [List.length_singleton] at hle
    rw [skipLabels, get_eq (getElem?_of_drop hdrop), pure_bind, if_pos rfl, plus_eq (h.lt (by omega))]
    rfl
  | cons l labels ih =>
    obtain ⟨n, rfl⟩ := Nat.exists_eq_succ_of_ne_zero (Nat.ne_of_gt (Nat.zero_lt_of_lt hn))
    rw [encodeLabels, List.flatMap_cons, ← encodeLabels, List.append_assoc] at hdrop
    have hrest := drop_of_drop hdrop
    have hle := le_of_drop hdrop (List.cons_ne_nil _ _)
    rw [Label.encode, List.length_cons] at hrest hle
    have hsum : pos + (1 + (UInt8.ofNat l.val.length).toNat) = pos + (l.val.length + 1) := by
      rw [l.toNat_length]
      omega
    rw [skipLabels, get_eq (getElem?_of_drop hdrop), pure_bind, if_neg l.length_ne,
      if_neg l.not_isPointer, plus_eq (by rw [hsum]; exact h.lt (by omega)), pure_bind, hsum,
      ih hrest (Nat.lt_of_succ_lt_succ hn), length_encodeLabels_cons]
    congr 1
    omega

/-! ## Every walk that is short enough is read -/

theorem readStep_of_move (h : IsSlice w msg) {s : Walker} {r : LoopStep Walker Str}
    (hr : Move msg s r) : readStep w msg s = pure r := by
  have hlt {b : UInt8} (hb : msg[s.pos]? = some b) : s.pos < msg.length :=
    (List.getElem?_eq_some_iff.mp hb).1
  cases hr with
  | stop hstop => rw [readStep, get_eq hstop, pure_bind, if_pos rfl]
  | jump hlen hne hptr hlo hhops =>
    have := hlt hlen
    rw [readStep, get_eq hlen, pure_bind, if_neg hne, if_pos hptr, plus_eq (h.lt (by omega)),
      pure_bind, get_eq hlo, pure_bind, if_neg (by omega)]
  | @label len hlen hne hptr hle =>
    have hsplit : msg.drop (s.pos + 1) = (msg.take (s.pos + 1 + len.toNat)).drop (s.pos + 1) ++
        msg.drop (s.pos + 1 + len.toNat) := by
      rw [← List.drop_append_of_le_length (by rw [List.length_take]; omega), List.take_append_drop]
    have hlength : ((msg.take (s.pos + 1 + len.toNat)).drop (s.pos + 1)).length = len.toNat := by
      rw [List.length_drop, List.length_take]
      omega
    rw [readStep, get_eq hlen, pure_bind, if_neg hne, if_neg hptr, plus_eq (h.lt (by omega)),
      pure_bind, plus_eq (h.lt (by omega)), pure_bind,
      getRange_eq hsplit (by omega) (by rw [hlength]), pure_bind]

theorem readLabels_of_walk (h : IsSlice w msg) {n pos : Nat} {passes : List (List (List UInt8))}
    (hwalk : Walk msg pos passes) {out : Str} {hops : Nat} (hpasses : passes.length + hops ≤ 17)
    (hn : Walker.left msg ⟨pos, out, hops⟩ < n) :
    readLabels w msg n ⟨pos, out, hops⟩ = pure (passes.flatten.foldl pushLabel out) := by
  induction hwalk generalizing n out hops with
  | stop hstop =>
    obtain ⟨n, rfl⟩ := Nat.exists_eq_succ_of_ne_zero (Nat.ne_of_gt (Nat.zero_lt_of_lt hn))
    rw [readLabels, readStep_of_move h (.stop hstop), pure_bind]
    rfl
  | @jump pos len lo passes hlen hne hptr hlo _ ih =>
    obtain ⟨n, rfl⟩ := Nat.exists_eq_succ_of_ne_zero (Nat.ne_of_gt (Nat.zero_lt_of_lt hn))
    rw [List.length_cons] at hpasses
    have hhops : hops < 16 := by
      have hpos : passes ≠ [] := by
        rintro rfl
        cases ‹Walk msg _ []›
      have := List.length_pos_iff.mpr hpos
      omega
    rw [readLabels, readStep_of_move h (.jump hlen hne hptr hlo hhops), pure_bind]
    exact ih (by dsimp only; omega) (Walker.left_jump hhops hn)
  | @label pos len labels passes hlen hne hptr hle _ ih =>
    obtain ⟨n, rfl⟩ := Nat.exists_eq_succ_of_ne_zero (Nat.ne_of_gt (Nat.zero_lt_of_lt hn))
    rw [readLabels, readStep_of_move h (.label hlen hne hptr hle), pure_bind]
    exact ih hpasses (Walker.left_label (List.getElem?_eq_some_iff.mp hlen).1 hn)

/-- A name is read exactly as a walk of at most 17 passes gives it. -/
theorem readName_of_walk (h : IsSlice w msg) {pos : Nat} {passes : List (List (List UInt8))}
    (hwalk : Walk msg pos passes) (hpasses : passes.length ≤ 17) :
    readName w msg pos = pure (passes.flatten.foldl pushLabel []) :=
  readLabels_of_walk h hwalk hpasses (Walker.left_start msg pos)

/-! ## Names as text -/

/-- A label that is text. -/
abbrev TextLabel := { s : Str // utf8 s ≠ [] ∧ (utf8 s).length ≤ 63 }

def TextLabel.label (s : TextLabel) : Label := ⟨utf8 s.val, s.property⟩

/-- The name that the labels make up. -/
def joined (labels : List TextLabel) : Str := ['.'].intercalate (labels.map Subtype.val)

theorem foldl_pushLabel {out : Str} (hne : out ≠ []) (labels : List TextLabel) :
    (labels.map fun s ↦ s.label.val).foldl pushLabel out =
      out ++ labels.flatMap fun s ↦ '.' :: s.val := by
  induction labels generalizing out with
  | nil => simp
  | cons s labels ih =>
    have hpush : pushLabel out s.label.val = out ++ '.' :: s.val := by
      rw [pushLabel, if_neg hne, TextLabel.label, fromUtf8Lossy_utf8, List.append_assoc]
      rfl
    rw [List.map_cons, List.foldl_cons, hpush, ih (by simp), List.flatMap_cons, List.append_assoc]

/-- Labels that are text are read back with dots between them. -/
theorem foldl_pushLabel_nil (labels : List TextLabel) :
    (labels.map fun s ↦ s.label.val).foldl pushLabel [] = joined labels := by
  cases labels with
  | nil => rfl
  | cons s labels =>
    have hne : s.val ≠ [] := by
      intro hnil
      exact s.property.1 (by rw [hnil]; rfl)
    have hpush : pushLabel [] s.label.val = s.val := by
      rw [pushLabel, if_pos rfl, TextLabel.label, fromUtf8Lossy_utf8, List.nil_append]
    rw [List.map_cons, List.foldl_cons, hpush, foldl_pushLabel hne, joined, List.map_cons,
      Lines.intercalate_cons, List.flatMap_map]
    rfl

/-- The name at a position where the labels are, with the end behind them. -/
theorem readName_text (h : IsSlice w msg) {labels : List TextLabel} {pos : Nat} {t : List UInt8}
    (hdrop : msg.drop pos = encodeLabels (labels.map TextLabel.label) ++ 0 :: t) :
    readName w msg pos = pure (joined labels) := by
  rw [readName_of_walk h (walk_of_drop hdrop) (Nat.succ_le_succ (Nat.zero_le 16)), List.map_map,
    List.flatten_singleton, ← foldl_pushLabel_nil]
  rfl

/-! ## The query -/

/-- The labels that were written are those of the name, and none was refused. -/
theorem eq_of_writeLabels {host : Str} {labels : List Str} {out out' : List UInt8}
    (h : writeLabels host labels out = .ok out') :
    ∃ ls : List TextLabel, ls.map Subtype.val = labels ∧
      out' = out ++ encodeLabels (ls.map TextLabel.label) := by
  induction labels generalizing out with
  | nil =>
    cases h
    exact ⟨[], rfl, (List.append_nil _).symm⟩
  | cons label labels ih =>
    rw [writeLabels] at h
    split at h
    · cases h
    · rename_i hlabel
      rw [not_or, Nat.not_lt] at hlabel
      obtain ⟨ls, rfl, rfl⟩ := ih h
      refine ⟨⟨label, hlabel⟩ :: ls, rfl, ?_⟩
      rw [List.append_assoc]
      rfl

/-- The name of the query, as labels. -/
theorem eq_of_buildQuery {id qtype : Nat} {host : Str} {query : List UInt8}
    (h : buildQuery id host qtype = .ok query) :
    ∃ labels : List TextLabel, joined labels = trimEndMatches '.' host ∧
      query = toBe16 id ++ toBe16 0x0100 ++ toBe16 1 ++ [0, 0, 0, 0, 0, 0] ++
        encodeLabels (labels.map TextLabel.label) ++ 0 :: (toBe16 qtype ++ toBe16 1) := by
  dsimp only [buildQuery] at h
  cases hwrite : writeLabels host ((trimEndMatches '.' host).splitOn '.')
      (toBe16 id ++ toBe16 0x0100 ++ toBe16 1 ++ [0, 0, 0, 0, 0, 0]) with
  | error e =>
    rw [hwrite] at h
    cases h
  | ok out =>
    rw [hwrite] at h
    cases h
    obtain ⟨labels, hlabels, rfl⟩ := eq_of_writeLabels hwrite
    refine ⟨labels, ?_, rfl⟩
    rw [joined, hlabels]
    exact List.intercalate_splitOn '.'

/-! ## Records -/

/-- The last `k` bytes of a number, the highest one first. -/
def toBytes : Nat → Nat → List UInt8
  | 0, _ => []
  | k + 1, n => toBytes k (n / 2 ^ 8) ++ [.ofNat n]

theorem length_toBytes (k n : Nat) : (toBytes k n).length = k := by
  induction k generalizing n with
  | zero => rfl
  | succ k ih => rw [toBytes, List.length_append, ih, List.length_singleton]

theorem foldl_toBytes (k n : Nat) :
    (toBytes k n).foldl (fun n b ↦ n * 2 ^ 8 + b.toNat) 0 = n % 2 ^ (8 * k) := by
  induction k generalizing n with
  | zero => rw [toBytes, List.foldl_nil, Nat.mul_zero, Nat.pow_zero, Nat.mod_one]
  | succ k ih =>
    rw [toBytes, List.foldl_append, ih, List.foldl_cons, List.foldl_nil, UInt8.toNat_ofNat',
      Nat.mul_succ, Nat.add_comm (8 * k), Nat.pow_add, Nat.mod_mul]
    omega

theorem ofOctets16_toBytes (bits : BitVec 128) : ofOctets16 (toBytes 16 bits.toNat) = bits := by
  rw [ofOctets16, foldl_toBytes, Nat.mod_eq_of_lt bits.isLt, BitVec.ofNat_toNat, BitVec.setWidth_eq]

/-- The data of a record. -/
inductive RData where
  | a (bits : BitVec 32)
  | aaaa (bits : BitVec 128)
  | cname (labels : List TextLabel) (length_lt : (encodeLabels (labels.map TextLabel.label)).length + 1 < 2 ^ 16)
  | other (rtype : Nat) (type_lt : rtype < 2 ^ 16)
      (type_ne : rtype ≠ typeA ∧ rtype ≠ typeAaaa ∧ rtype ≠ typeCname)
      (bytes : List UInt8) (length_lt : bytes.length < 2 ^ 16)

namespace RData

def rtype : RData → Nat
  | .a _ => typeA
  | .aaaa _ => typeAaaa
  | .cname _ _ => typeCname
  | .other rtype _ _ _ _ => rtype

def bytes : RData → List UInt8
  | .a bits => toBytes 4 bits.toNat
  | .aaaa bits => toBytes 16 bits.toNat
  | .cname labels _ => encodeLabels (labels.map TextLabel.label) ++ [0]
  | .other _ _ _ bytes _ => bytes

/-- The address, if it is one of the type that was asked for. -/
def address (qtype : Nat) : RData → Option IpAddr
  | .a bits => if qtype = typeA then some (.v4 bits) else none
  | .aaaa bits => if qtype = typeAaaa then some (.v6 bits) else none
  | _ => none

def canonical : RData → Option Str
  | .cname labels _ => some (joined labels)
  | _ => none

theorem rtype_lt (d : RData) : d.rtype < 2 ^ 16 := by
  cases d with
  | a => exact (by decide : typeA < 2 ^ 16)
  | aaaa => exact (by decide : typeAaaa < 2 ^ 16)
  | cname => exact (by decide : typeCname < 2 ^ 16)
  | other _ type_lt => exact type_lt

theorem length_lt (d : RData) : d.bytes.length < 2 ^ 16 := by
  cases d with
  | a => rw [bytes, length_toBytes]; decide
  | aaaa => rw [bytes, length_toBytes]; decide
  | cname _ length_lt => rwa [bytes, List.length_append]
  | other _ _ _ _ length_lt => exact length_lt

end RData

/-- The owner of a record: a name of its own, or a pointer to the name in the question. -/
inductive Owner where
  | name (labels : List Label) (length_le : labels.length ≤ 127)
  | question

def Owner.encode : Owner → List UInt8
  | .name labels _ => encodeLabels labels ++ [0]
  | .question => [0xC0, 12]

structure Record where
  owner : Owner
  cls : UInt16
  ttl : UInt32
  data : RData

/-- A record between its owner and its data. -/
def Record.header (r : Record) : List UInt8 :=
  toBe16 r.data.rtype ++ toBe16 r.cls.toNat ++ toBe32 r.ttl.toNat ++ toBe16 r.data.bytes.length

def Record.encode (r : Record) : List UInt8 := r.owner.encode ++ (r.header ++ r.data.bytes)

/-- What a record adds to the answer. -/
def Record.addTo (r : Record) (qtype : Nat) (answer : Answer) : Answer where
  addrs := answer.addrs ++ (r.data.address qtype).toList
  cname := answer.cname.or r.data.canonical

theorem skipName_owner (h : IsSlice w msg) (o : Owner) {pos : Nat} {t : List UInt8}
    (hdrop : msg.drop pos = o.encode ++ t) :
    skipName w msg pos = pure (pos + o.encode.length) := by
  cases o with
  | name labels length_le =>
    rw [Owner.encode, List.append_assoc] at hdrop
    rw [skipName, skipLabels_of_drop h hdrop (Nat.lt_succ_of_le length_le), Owner.encode,
      List.length_append, List.length_singleton, Nat.add_assoc]
  | question =>
    have hle := le_of_drop hdrop (by decide)
    rw [skipName, skipLabels, get_eq (getElem?_of_drop hdrop), pure_bind, if_neg (by decide),
      if_pos (by decide), plus_eq (h.lt (by omega))]
    rfl

theorem ofOctets_toBytes (bits : BitVec 32) :
    ofOctets (UInt8.ofNat (bits.toNat / 2 ^ 8 / 2 ^ 8 / 2 ^ 8)).toNat
      (UInt8.ofNat (bits.toNat / 2 ^ 8 / 2 ^ 8)).toNat (UInt8.ofNat (bits.toNat / 2 ^ 8)).toNat
      (UInt8.ofNat bits.toNat).toNat = bits := by
  have hlt := bits.isLt
  simp only [UInt8.toNat_ofNat']
  refine BitVec.eq_of_toNat_eq ?_
  rw [ofOctets, BitVec.toNat_ofNat]
  omega

theorem addRecord_eq (h : IsSlice w msg) (r : Record) (qtype : Nat) {pos : Nat} {t : List UInt8}
    (hdrop : msg.drop pos = r.data.bytes ++ t) (answer : Answer) :
    addRecord w msg qtype r.data.rtype pos r.data.bytes answer = pure (r.addTo qtype answer) := by
  have hsame : ({ addrs := answer.addrs ++ [], cname := answer.cname.or none } : Answer) = answer := by
    rw [List.append_nil, Option.or_none]
  have hAaaa : typeAaaa ≠ typeA := by decide
  have hCname : typeCname ≠ typeA ∧ typeCname ≠ typeAaaa := by decide
  unfold addRecord Record.addTo
  cases hdata : r.data with
  | a bits =>
    dsimp only [RData.address, RData.canonical]
    by_cases hq : qtype = typeA
    · have ha : (RData.a bits).rtype = typeA ∧ (RData.a bits).bytes.length = 4 ∧ qtype = typeA :=
        ⟨rfl, length_toBytes 4 _, hq⟩
      rw [if_pos ha, if_pos hq, Option.or_none]
      exact congrArg (fun bits ↦ (pure { answer with addrs := answer.addrs ++ [.v4 bits] } : Result Answer))
        (ofOctets_toBytes bits)
    · rw [if_neg fun ha ↦ hq ha.2.2, if_neg fun ha ↦ hAaaa ha.1.symm,
        if_neg fun ha ↦ hCname.1 ha.1.symm, if_neg hq]
      exact congrArg pure hsame.symm
  | aaaa bits =>
    dsimp only [RData.address, RData.canonical]
    rw [if_neg fun ha ↦ hAaaa ha.1]
    by_cases hq : qtype = typeAaaa
    · have ha : (RData.aaaa bits).rtype = typeAaaa ∧ (RData.aaaa bits).bytes.length = 16 ∧
          qtype = typeAaaa := ⟨rfl, length_toBytes 16 _, hq⟩
      rw [if_pos ha, if_pos hq, Option.or_none, RData.bytes, ofOctets16_toBytes]
      rfl
    · rw [if_neg fun ha ↦ hq ha.2.2, if_neg fun ha ↦ hCname.2 ha.1.symm, if_neg hq]
      exact congrArg pure hsame.symm
  | cname labels length_lt =>
    rw [hdata, RData.bytes, List.append_assoc] at hdrop
    dsimp only [RData.address, RData.canonical]
    rw [if_neg fun ha ↦ hCname.1 ha.1, if_neg fun ha ↦ hCname.2 ha.1]
    cases hcname : answer.cname with
    | none =>
      have ha : (RData.cname labels length_lt).rtype = typeCname ∧ (none : Option Str) = none :=
        ⟨rfl, rfl⟩
      rw [if_pos ha, readName_text h hdrop, Option.toList_none, List.append_nil]
      rfl
    | some name =>
      rw [if_neg fun ha ↦ Option.some_ne_none _ ha.2, Option.some_or, Option.toList_none, List.append_nil,
        ← hcname]
  | other rtype type_lt type_ne bytes length_lt =>
    dsimp only [RData.address, RData.canonical]
    rw [if_neg fun ha ↦ type_ne.1 ha.1, if_neg fun ha ↦ type_ne.2.1 ha.1,
      if_neg fun ha ↦ type_ne.2.2 ha.1]
    exact congrArg pure hsame.symm

/-- A record is read, whatever its data, and the next one is looked for behind it. -/
theorem readRecords_cons (h : IsSlice w msg) (r : Record) (qtype n : Nat) {pos : Nat}
    {t : List UInt8} (hdrop : msg.drop pos = r.encode ++ t) (answer : Answer) :
    readRecords w msg qtype (n + 1) pos answer =
      readRecords w msg qtype n (pos + r.encode.length) (r.addTo qtype answer) := by
  rw [Record.encode, List.append_assoc] at hdrop
  have hheader := drop_of_drop hdrop
  rw [List.append_assoc] at hheader
  have hdata := drop_of_drop hheader
  have hend := drop_of_drop hdata
  have hlen : r.header.length = 10 := rfl
  have hle := le_of_drop hheader (by rw [← List.length_pos_iff, hlen]; decide)
  have hrdlen := r.data.length_lt
  have hrtype : word r.header 0 = .ok r.data.rtype := by
    have := fromBe16_toBe16 r.data.rtype
    rw [Nat.mod_eq_of_lt r.data.rtype_lt] at this
    exact congrArg Except.ok this
  have hrdata : word r.header 8 = .ok r.data.bytes.length := by
    have := fromBe16_toBe16 r.data.bytes.length
    rw [Nat.mod_eq_of_lt hrdlen] at this
    exact congrArg Except.ok this
  rw [hlen] at hdata hle
  have hlast : pos + r.owner.encode.length + 10 + r.data.bytes.length = pos + r.encode.length := by
    rw [Record.encode, List.length_append, List.length_append, hlen]
    omega
  rw [readRecords, skipName_owner h r.owner hdrop, pure_bind, plus_eq (h.lt (by omega)), pure_bind,
    getRange_eq hheader (by omega) (by rw [hlen]), pure_bind, hrtype, hrdata]
  change (plus w _ _ >>= _) = _
  rw [plus_eq (h.lt (by omega)), pure_bind, getRange_eq hdata hle rfl, pure_bind,
    addRecord_eq h r qtype hdata, pure_bind, hlast]

theorem readRecords_encode (h : IsSlice w msg) (qtype : Nat) {records : List Record} {pos : Nat}
    {t : List UInt8} (hdrop : msg.drop pos = records.flatMap Record.encode ++ t) {answer : Answer} :
    readRecords w msg qtype records.length pos answer =
      pure (records.foldl (fun answer r ↦ r.addTo qtype answer) answer) := by
  induction records generalizing pos answer with
  | nil => rfl
  | cons r records ih =>
    rw [List.flatMap_cons, List.append_assoc] at hdrop
    rw [List.length_cons, readRecords_cons h r qtype _ hdrop, ih (drop_of_drop hdrop)]
    rfl

/-- The addresses in their order, and the first alias. -/
theorem foldl_addTo (qtype : Nat) (records : List Record) (answer : Answer) :
    records.foldl (fun answer r ↦ r.addTo qtype answer) answer =
      ⟨answer.addrs ++ records.filterMap fun r ↦ r.data.address qtype,
        answer.cname.or (records.findSome? fun r ↦ r.data.canonical)⟩ := by
  induction records generalizing answer with
  | nil => rw [List.filterMap_nil, List.findSome?_nil, List.append_nil, Option.or_none]; rfl
  | cons r records ih =>
    rw [List.foldl_cons, ih, Record.addTo, List.findSome?_cons, List.filterMap_cons]
    dsimp only
    congr 1
    · cases r.data.address qtype with
      | none => rw [Option.toList_none, List.append_nil]
      | some ip => rw [Option.toList_some, List.append_assoc]; rfl
    · rw [Option.or_assoc]
      cases r.data.canonical with
      | none => rfl
      | some name => rfl

/-! ## The answer to a query -/

/-- A datagram that answers a query: its question, and the records.  The flags, the number of
records in the sections that are not looked at, and all that is in these are the resolver's. -/
structure Response where
  id : UInt16
  flags : UInt16
  query : List UInt8
  records : List Record
  records_lt : records.length < 2 ^ 16
  others : UInt32
  rest : List UInt8

def Response.encode (r : Response) : List UInt8 :=
  toBe16 r.id.toNat ++ toBe16 r.flags.toNat ++ toBe16 1 ++ toBe16 r.records.length ++
    toBe32 r.others.toNat ++ (r.query.drop 12 ++ (r.records.flatMap Record.encode ++ r.rest))

namespace Response

variable {r : Response}

theorem word_id : word r.encode 0 = .ok r.id.toNat := by
  have := fromBe16_toBe16 r.id.toNat
  rw [Nat.mod_eq_of_lt r.id.toNat_lt] at this
  exact congrArg Except.ok this

theorem word_flags : word r.encode 2 = .ok r.flags.toNat := by
  have := fromBe16_toBe16 r.flags.toNat
  rw [Nat.mod_eq_of_lt r.flags.toNat_lt] at this
  exact congrArg Except.ok this

theorem word_questions : word r.encode 4 = .ok 1 := rfl

theorem word_records : word r.encode 6 = .ok r.records.length := by
  have := fromBe16_toBe16 r.records.length
  rw [Nat.mod_eq_of_lt r.records_lt] at this
  exact congrArg Except.ok this

theorem length_ge : ¬ r.encode.length < 12 := by
  have : 12 ≤ r.encode.length := by
    rw [encode, List.length_append]
    exact Nat.le_add_right 12 _
  omega

theorem drop_encode : r.encode.drop 12 = r.query.drop 12 ++ (r.records.flatMap Record.encode ++ r.rest) :=
  rfl

end Response

/-- The answer to a query is taken for one, for the host however it is spelled, and it holds the
addresses and the first alias of its records. -/
theorem answer_readBack {id qtype : Nat} {host : Str} {r : Response}
    (hquery : buildQuery id host qtype = .ok r.query) (hfits : r.query.length ≤ 12 + 255 + 4)
    (hqtype : qtype = typeA ∨ qtype = typeAaaa) (hid : r.id.toNat = id)
    (hresponse : r.flags.toNat &&& 0x8000 ≠ 0) (hrcode : r.flags.toNat &&& 0x000F = 0)
    (h : IsSlice w r.encode) :
    (∀ asked, eqIgnoreCase (trimEndMatches '.' asked) (trimEndMatches '.' host) = true →
      classify w r.encode id asked qtype = .ok .ours) ∧
    parseAnswer w r.encode id qtype = pure {
      addrs := r.records.filterMap fun r ↦ r.data.address qtype
      cname := r.records.findSome? fun r ↦ r.data.canonical } := by
  obtain ⟨labels, hjoined, hform⟩ := eq_of_buildQuery hquery
  have hquestion : r.query.drop 12 =
      encodeLabels (labels.map TextLabel.label) ++ 0 :: (toBe16 qtype ++ toBe16 1) := by
    rw [hform]
    rfl
  have hqlt : qtype % 2 ^ 16 = qtype := by
    rcases hqtype with rfl | rfl <;> rfl
  have hname : r.encode.drop 12 = encodeLabels (labels.map TextLabel.label) ++
      0 :: (toBe16 qtype ++ toBe16 1 ++ (r.records.flatMap Record.encode ++ r.rest)) := by
    rw [Response.drop_encode, hquestion, List.append_assoc]
    rfl
  have hlabels : labels.length < 128 := by
    have hle := length_le_encodeLabels (labels.map TextLabel.label)
    rw [List.length_map] at hle
    rw [hform, List.length_append, List.length_append] at hfits
    have h12 : (toBe16 id ++ toBe16 0x0100 ++ toBe16 1 ++ [0, 0, 0, 0, 0, 0]).length = 12 := rfl
    have h5 : (0 :: (toBe16 qtype ++ toBe16 1)).length = 5 := rfl
    omega
  have hread : readName w r.encode 12 = pure (trimEndMatches '.' host) := by
    rw [← hjoined]
    exact readName_text h hname
  have hskip : skipName w r.encode 12 =
      pure (12 + (encodeLabels (labels.map TextLabel.label)).length + 1) :=
    skipLabels_of_drop h hname (by rwa [List.length_map])
  generalize hafter : 12 + (encodeLabels (labels.map TextLabel.label)).length + 1 = after at hskip
  have hbehind : r.encode.drop after =
      (toBe16 qtype ++ toBe16 1) ++ (r.records.flatMap Record.encode ++ r.rest) := by
    rw [← hafter]
    exact drop_of_drop (x := [0]) (drop_of_drop hname)
  have hle := le_of_drop hbehind (by simp [toBe16])
  have h4 : (toBe16 qtype ++ toBe16 1).length = 4 := rfl
  rw [h4] at hle
  constructor
  · intro asked hasked
    have hsame : eqIgnoreCase (trimEndMatches '.' host) (trimEndMatches '.' asked) = true := by
      rw [eqIgnoreCase, beq_iff_eq] at hasked ⊢
      exact hasked.symm
    have hechoes : echoes w r.encode asked qtype = .ok true := by
      have hq : (r.encode.take (after + 4)).drop after = toBe16 qtype ++ toBe16 1 := by
        rw [List.drop_take, hbehind, Nat.add_sub_cancel_left]
        exact List.take_left' h4
      have hword : word (toBe16 qtype ++ toBe16 1) 0 = .ok qtype := by
        have := fromBe16_toBe16 qtype
        rw [hqlt] at this
        exact congrArg Except.ok this
      have hclass : word (toBe16 qtype ++ toBe16 1) 2 = .ok 1 := rfl
      rw [echoes, hread, hskip]
      change (if after + 4 < 2 ^ w then _ else _) = _
      rw [if_pos (h.lt (by omega)), if_pos hle]
      dsimp only
      rw [hq, hword, hclass, hsame]
      exact congrArg Except.ok (by simp)
    rw [classify, if_neg Response.length_ge, Response.word_id, Response.word_flags,
      Response.word_questions, hechoes]
    dsimp only [bind, Except.bind, pure, Except.pure]
    rw [if_neg (not_not.mpr hid), if_neg hresponse, if_pos rfl]
  · rw [parseAnswer, if_neg Response.length_ge, Response.word_id, Response.word_flags,
      Response.word_questions, Response.word_records]
    have hcheck : checkHeader r.flags.toNat r.id.toNat id = .ok () := by
      rw [checkHeader, if_neg (not_not.mpr hid), if_neg hresponse, hrcode]
      rfl
    have hquestions : skipQuestions w r.encode 1 12 = pure (after + 4) := by
      rw [skipQuestions, hskip, pure_bind, plus_eq (h.lt (by omega)), pure_bind, skipQuestions]
    have hnext := drop_of_drop hbehind
    rw [h4] at hnext
    have hrecords : readRecords w r.encode qtype r.records.length (after + 4) ⟨[], none⟩ = _ :=
      readRecords_encode h qtype hnext
    rw [foldl_addTo, List.nil_append, Option.none_or] at hrecords
    change (result (checkHeader r.flags.toNat r.id.toNat id) >>= _) = _
    rw [hcheck]
    change (skipQuestions w r.encode 1 12 >>= _) = _
    rw [hquestions, pure_bind]
    exact hrecords

/-- An alias, and the address of what it stands for. -/
def mmscResponse : Response where
  id := 0xBEEF
  flags := 0x8180
  query := toBe16 0xBEEF ++ toBe16 0x0100 ++ toBe16 1 ++ [0, 0, 0, 0, 0, 0] ++
    4 :: utf8 "mmsc" ++ 7 :: utf8 "ktfwing" ++ 3 :: utf8 "com" ++ 0 :: (toBe16 1 ++ toBe16 1)
  records := [
    ⟨.question, 1, 60, .cname [⟨"mms", by decide⟩, ⟨"ktfwing", by decide⟩] (by decide)⟩,
    ⟨.name [⟨utf8 "mms", by decide⟩] (by decide), 1, 60, .a 0xAC1F2462⟩]
  records_lt := by decide
  others := 0
  rest := []

theorem answer_readBack_mmsc :
    classify 64 mmscResponse.encode 0xBEEF "MMSC.ktfwing.com." typeA = .ok .ours ∧
    parseAnswer 64 mmscResponse.encode 0xBEEF typeA =
      pure ⟨[.v4 0xAC1F2462], some "mms.ktfwing"⟩ := by
  have hquery : buildQuery 0xBEEF "mmsc.ktfwing.com" typeA = .ok mmscResponse.query := by decide
  have hslice : IsSlice 64 mmscResponse.encode := ⟨by decide, by decide⟩
  have h := answer_readBack hquery (by decide) (.inl rfl) rfl (by decide) (by decide) hslice
  exact ⟨h.1 "MMSC.ktfwing.com." (by decide), h.2⟩

end Modem2Sip.Mms.Dns
