import Mathlib.Data.List.Sort
import Modem2Sip.Lib.Paths
import Modem2Sip.Lib.Text

/-!
# Which modem is ours

`mm/watcher.rs`: `find_modem` looks through the modems that ModemManager has for the first one that
meets every criterion of the configuration.  What ModemManager answers for an object is a value, without
one where the call fails.
-/

namespace Modem2Sip.Mm

open Text

/-! ## Modems -/

/-- What the SIM of a modem answers. -/
structure Sim where
  simIdentifier : Option Str
  imsi : Option Str

/-- What a modem answers. -/
structure Modem where
  device : Option Str
  deviceIdentifier : Option Str
  equipmentIdentifier : Option Str
  /-- Of the 3GPP interface, if there is one. -/
  imei : Option Str
  primaryPort : Option Str
  sim : Option Str
  simProxy : Except Str Sim

/-- An object of ModemManager, and what becomes of the proxy for its modem. -/
structure ManagedObject where
  path : Str
  isModem : Bool
  proxy : Except Str Modem

/-- `[modem]`, as far as it picks one. -/
structure ModemMatch where
  imei : Option Str := none
  device : Option Str := none
  deviceId : Option Str := none
  primaryPort : Option Str := none
  simId : Option Str := none
  imsi : Option Str := none
  index : Option Nat := none

/-! ## Criteria -/

def pathIndex (path : Str) : Option Nat := ((path.splitOn '/').getLast?).bind parseU32

def eqCi (a b : Str) : Bool := eqIgnoreCase (trim a) (trim b)

/-- An empty text is not set. -/
def want (field : Option Str) : Option Str := (field.map trim).filter (· != [])

/-- The criterion `device`: one of the two paths is a prefix of the other. -/
def deviceMatches (want device : Str) : Bool :=
  (want.isPrefixOf device || device.isPrefixOf want) && !device.isEmpty

/-- The number of the equipment, which some modems only give on their 3GPP interface. -/
def Modem.equipment (modem : Modem) : Str :=
  let equipment := modem.equipmentIdentifier.getD []
  if equipment = [] then modem.imei.getD [] else equipment

/-- The criteria about the SIM. -/
def simMatches (modem : Modem) (selSimId selImsi : Option Str) : Except Str Bool :=
  if selSimId.isSome || selImsi.isSome then
    match modem.sim with
    | none => .ok false
    | some simPath =>
      if simPath = ['/'] then .ok false
      else do
        let sim ← modem.simProxy
        if !selSimId.all (eqCi (sim.simIdentifier.getD [])) then return false
        return selImsi.all (eqCi (sim.imsi.getD []))
  else .ok true

/-- `modem_matches`: every criterion that is configured is met. -/
def modemMatches (object : ManagedObject) (sel : ModemMatch) : Except Str Bool := do
  let modem ← object.proxy
  if !sel.index.all (pathIndex object.path == some ·) then return false
  if !(want sel.device).all (deviceMatches · (modem.device.getD [])) then return false
  if !(want sel.deviceId).all (eqCi (modem.deviceIdentifier.getD [])) then return false
  if !(want sel.imei).all (eqCi modem.equipment) then return false
  if !(want sel.primaryPort).all (eqCi (modem.primaryPort.getD [])) then return false
  simMatches modem (want sel.simId) (want sel.imsi)

/-- By the number in the path, those without one behind all others. -/
def Before (a b : ManagedObject) : Prop :=
  (pathIndex a.path).getD (2 ^ 32 - 1) ≤ (pathIndex b.path).getD (2 ^ 32 - 1)

instance : DecidableRel Before := fun _ _ ↦ inferInstanceAs (Decidable (_ ≤ _))

/-- A modem that cannot be inspected is skipped. -/
def ManagedObject.isOurs (sel : ModemMatch) (object : ManagedObject) : Bool :=
  match modemMatches object sel with
  | .ok found => found
  | .error _ => false

/-- `find_modem`. -/
def findModem (objects : List ManagedObject) (sel : ModemMatch) : Option Str :=
  (((objects.filter (·.isModem)).insertionSort Before).find? (·.isOurs sel)).map (·.path)

/-! ## The criterion `device` -/

variable {sel : ModemMatch} {wanted device : Str} {object : ManagedObject} {objects : List ManagedObject}

/-- One of the two paths is the other one, or a directory above it. -/
abbrev Related (a b : Str) : Prop := Paths.Related '/' a b

/-- The configured path and that of a device do not go on, where the other one ends, within a name. -/
def Separate (wanted device : Str) : Prop :=
  device = [] ∨ Paths.Parted '/' wanted device ∧ Paths.Parted '/' device wanted

theorem deviceMatches_eq_true_iff :
    deviceMatches wanted device = true ↔ (wanted <+: device ∨ device <+: wanted) ∧ device ≠ [] := by
  rw [deviceMatches, Bool.and_eq_true, Bool.or_eq_true, List.isPrefixOf_iff_prefix,
    List.isPrefixOf_iff_prefix, Bool.not_eq_true', List.isEmpty_eq_false_iff]

/-- The criterion is met only by related paths just when the paths are separate. -/
theorem related_of_deviceMatches_iff (hne : wanted ≠ []) :
    (deviceMatches wanted device = true → Related device wanted) ↔ Separate wanted device := by
  rw [deviceMatches_eq_true_iff, Separate]
  by_cases hdevice : device = []
  · exact iff_of_true (fun h ↦ absurd hdevice h.2) (.inl hdevice)
  rw [or_iff_right hdevice]
  by_cases hnested : wanted <+: device ∨ device <+: wanted
  · rw [and_comm (a := Paths.Parted '/' wanted device)]
    rw [← Paths.related_iff_parted hdevice hne hnested.symm]
    exact ⟨fun h ↦ h ⟨hnested, hdevice⟩, fun h _ ↦ h⟩
  · obtain ⟨hwanted, hdevice'⟩ := not_or.mp hnested
    exact iff_of_true (fun h ↦ absurd h.1 hnested)
      ⟨Paths.parted_of_not_prefix hwanted, Paths.parted_of_not_prefix hdevice'⟩

theorem want_ne_nil {field : Option Str} (h : want field = some wanted) : wanted ≠ [] := by
  rintro rfl
  exact absurd (Option.filter_eq_some_iff.mp h).2 (by decide)

/-- A modem that is ours meets the criterion. -/
theorem deviceMatches_of_modemMatches (hwant : want sel.device = some wanted)
    (h : modemMatches object sel = .ok true) :
    ∃ modem, object.proxy = .ok modem ∧ deviceMatches wanted (modem.device.getD []) = true := by
  unfold modemMatches at h
  cases hproxy : object.proxy with
  | error e =>
    rw [hproxy] at h
    cases h
  | ok modem =>
    rw [hproxy] at h
    have hall : (want sel.device).all (deviceMatches · (modem.device.getD [])) =
        deviceMatches wanted (modem.device.getD []) := by rw [hwant, Option.all_some]
    refine ⟨modem, rfl, ?_⟩
    cases hdevice : deviceMatches wanted (modem.device.getD []) with
    | true => rfl
    | false =>
      rw [hdevice] at hall
      change (if _ then _ else if (!(want sel.device).all _) = true then _ else _) = _ at h
      rw [hall] at h
      split at h
      · cases h
      · cases h

theorem exists_of_findModem {path : Str} (h : findModem objects sel = some path) :
    ∃ object ∈ objects, object.path = path ∧ modemMatches object sel = .ok true := by
  obtain ⟨object, hfind, rfl⟩ := Option.map_eq_some_iff.mp h
  have hours := List.find?_some hfind
  have hmem := List.mem_of_find?_eq_some hfind
  rw [List.mem_insertionSort, List.mem_filter] at hmem
  refine ⟨object, hmem.1, rfl, ?_⟩
  unfold ManagedObject.isOurs at hours
  split at hours
  · rename_i hmatches
    rw [hmatches, hours]
  · cases hours

/-- Only modems on the configured device, or above or below it, meet the criterion, and such a one is
found, just when no path goes on within a name where the other one ends. -/
theorem device_related_iff_separate (hwant : want sel.device = some wanted) :
    (∀ object ∈ objects, ∀ modem, object.proxy = .ok modem →
        deviceMatches wanted (modem.device.getD []) = true → Related (modem.device.getD []) wanted) ∧
      (∀ path, findModem objects sel = some path → ∃ object ∈ objects, ∃ modem, object.path = path ∧
        object.proxy = .ok modem ∧ Related (modem.device.getD []) wanted) ↔
    ∀ object ∈ objects, ∀ modem, object.proxy = .ok modem → Separate wanted (modem.device.getD []) := by
  have hone (device : Str) :
      (deviceMatches wanted device = true → Related device wanted) ↔ Separate wanted device :=
    related_of_deviceMatches_iff (want_ne_nil hwant)
  constructor
  · rintro ⟨hcriterion, -⟩ object hobject modem hproxy
    exact (hone _).mp (hcriterion object hobject modem hproxy)
  · intro hseparate
    refine ⟨fun object hobject modem hproxy ↦ (hone _).mpr (hseparate object hobject modem hproxy), ?_⟩
    intro path hfind
    obtain ⟨object, hobject, hpath, hmatches⟩ := exists_of_findModem hfind
    obtain ⟨modem, hproxy, hdevice⟩ := deviceMatches_of_modemMatches hwant hmatches
    exact ⟨object, hobject, modem, hpath, hproxy, (hone _).mpr (hseparate object hobject modem hproxy) hdevice⟩

namespace Sample

/-- The port of a USB hub with this number. -/
def usbPort (number : Str) : Str := "/sys/devices/pci0000:00/0000:00:14.0/usb1/1-" ++ number

def modemOn (path number : Str) : ManagedObject where
  path := path
  isModem := true
  proxy := .ok {
    device := some (usbPort number)
    deviceIdentifier := none
    equipmentIdentifier := none
    imei := none
    primaryPort := none
    sim := none
    simProxy := .error [] }

def twoPorts : List ManagedObject := [modemOn "/Modem/0" "4", modemOn "/Modem/1" "1"]

def portOne : ModemMatch := { device := some (usbPort "1") }

end Sample

theorem device_related_iff_separate_two :
    (∀ object ∈ Sample.twoPorts, ∀ modem,
      object.proxy = .ok modem → deviceMatches (Sample.usbPort "1") (modem.device.getD []) = true →
        Related (modem.device.getD []) (Sample.usbPort "1")) ∧
      (∀ path, findModem Sample.twoPorts Sample.portOne = some path →
        ∃ object ∈ Sample.twoPorts, ∃ modem, object.path = path ∧
          object.proxy = .ok modem ∧ Related (modem.device.getD []) (Sample.usbPort "1")) ↔
    ∀ object ∈ Sample.twoPorts, ∀ modem,
      object.proxy = .ok modem → Separate (Sample.usbPort "1") (modem.device.getD []) :=
  device_related_iff_separate (by decide)

/-- The modem on port 10 is taken for the one on port 1. -/
theorem sibling_port_found :
    findModem [Sample.modemOn "/Modem/0" "10"] Sample.portOne = some "/Modem/0".toList ∧
      ¬ Related (Sample.usbPort "10") (Sample.usbPort "1") := by
  refine ⟨by decide, fun h ↦ ?_⟩
  have happend : Sample.usbPort "10" = Sample.usbPort "1" ++ "0" := rfl
  rw [happend] at h
  exact absurd ((Paths.related_append_iff (by decide)).mp h.symm) (by decide)

end Modem2Sip.Mm
