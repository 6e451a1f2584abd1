import ArcadiaOs.Drivers.PciCore
import Mathlib.Data.List.Pairwise
import Mathlib.Data.List.ProdSigma

/-!
What `scan_pci_bus` lists.  The sweep over all buses reaches every function, so whatever
the descent behind a bridge finds is listed a second time.
-/

namespace ArcadiaOs.Drivers

def secondaryBus (space : ConfigSpace) (bus device : UInt8) : UInt8 := (space bus device 0 0x18).toUInt8

def foundBehind (space : ConfigSpace) (first : PciDevice) : List PciDevice :=
  if first.isBridge then
    (numbersFrom 0 32).flatMap fun subDevice =>
      (report space (secondaryBus space first.bus first.device) subDevice 0).toList
  else []

def foundFunctions (space : ConfigSpace) (first : PciDevice) : List PciDevice :=
  if first.multiFunction then
    (numbersFrom 1 7).flatMap fun function => (report space first.bus first.device function).toList
  else []

def foundAt (space : ConfigSpace) (slot : UInt8 × UInt8) : List PciDevice :=
  match report space slot.1 slot.2 0 with
  | none => []
  | some first => first :: foundBehind space first ++ foundFunctions space first

def slots : List (UInt8 × UInt8) := numbersFrom 0 256 ×ˢ numbersFrom 0 32

def PciDevice.triple (found : PciDevice) : UInt8 × UInt8 × UInt8 :=
  (found.bus, found.device, found.function)

/-- A function that is there: its vendor id is not 0xFFFF, and it is function 0 or a further function
of a multi-function device. -/
structure Present (space : ConfigSpace) (bus device function : UInt8) : Prop where
  inside : device.toNat < 32
  reported : (report space bus device function).isSome
  reached : function = 0 ∨ (1 ≤ function.toNat ∧ function.toNat ≤ 7) ∧
    ∃ first, report space bus device 0 = some first ∧ first.multiFunction = true

structure ListedOnce (space : ConfigSpace) (listed : List PciDevice) : Prop where
  distinct : (listed.map PciDevice.triple).Nodup
  exact : ∀ bus device function,
    (bus, device, function) ∈ listed.map PciDevice.triple ↔ Present space bus device function

def NothingBehind (space : ConfigSpace) : Prop :=
  ∀ bus device first, device.toNat < 32 → report space bus device 0 = some first →
    first.isBridge = true → ∀ subDevice : UInt8, subDevice.toNat < 32 →
      report space (secondaryBus space bus device) subDevice 0 = none

section Numbers

variable {first count : Nat} {number : UInt8}

theorem mem_numbersFrom (inside : first + count ≤ 256) :
    number ∈ numbersFrom first count ↔ first ≤ number.toNat ∧ number.toNat < first + count := by
  have bound := number.toNat_lt
  simp only [numbersFrom, List.mem_map, List.mem_range'_1]
  constructor
  · rintro ⟨value, within, rfl⟩
    rw [UInt8.toNat_ofNat']
    omega
  · intro within
    exact ⟨number.toNat, within, UInt8.ofNat_toNat⟩

theorem numbersFrom_nodup (inside : first + count ≤ 256) : (numbersFrom first count).Nodup := by
  refine List.Nodup.map_on ?_ List.nodup_range'
  intro left leftIn right rightIn same
  rw [List.mem_range'_1] at leftIn rightIn
  have equal := congrArg UInt8.toNat same
  rw [UInt8.toNat_ofNat', UInt8.toNat_ofNat'] at equal
  omega

theorem mem_slots {slot : UInt8 × UInt8} : slot ∈ slots ↔ slot.2.toNat < 32 := by
  have bound := slot.1.toNat_lt
  obtain ⟨bus, device⟩ := slot
  rw [slots, List.mem_product, mem_numbersFrom (by omega), mem_numbersFrom (by omega)]
  simp only at bound ⊢
  omega

theorem slots_nodup : slots.Nodup :=
  (numbersFrom_nodup (by omega)).product (numbersFrom_nodup (by omega))

end Numbers

section Reports

variable {space : ConfigSpace} {bus device function : UInt8} {found first : PciDevice}

theorem report_triple (reported : report space bus device function = some found) :
    found.bus = bus ∧ found.device = device ∧ found.function = function := by
  simp only [report] at reported
  split at reported
  · cases reported
  · cases reported
    exact ⟨rfl, rfl, rfl⟩

theorem mem_foundBehind : found ∈ foundBehind space first ↔ first.isBridge = true ∧
    ∃ subDevice : UInt8, subDevice.toNat < 32 ∧
      report space (secondaryBus space first.bus first.device) subDevice 0 = some found := by
  rw [foundBehind]
  split
  · rename_i bridge
    simp only [List.mem_flatMap, mem_numbersFrom (show 0 + 32 ≤ 256 by omega), Option.mem_toList, bridge]
    simp
  · rename_i plain
    simp [plain]

theorem mem_foundFunctions : found ∈ foundFunctions space first ↔ first.multiFunction = true ∧
    ∃ function : UInt8, (1 ≤ function.toNat ∧ function.toNat ≤ 7) ∧
      report space first.bus first.device function = some found := by
  rw [foundFunctions]
  split
  · rename_i several
    simp only [List.mem_flatMap, mem_numbersFrom (show 1 + 7 ≤ 256 by omega), Option.mem_toList, several]
    simp [Nat.lt_succ_iff]
  · rename_i single
    simp [single]

end Reports

section Scan

variable {space : ConfigSpace}

theorem pushFound_answers {bus device function : UInt8} (inside : Addressable device function) :
    Answers space (pushFound bus device function) (report space bus device function).toList :=
  (new_answers inside).bind (Answers.pure _)

theorem scanBehind_answers {first : PciDevice} (inside : first.device.toNat < 32) :
    Answers space (scanBehind first.bus first.device first) (foundBehind space first) := by
  rw [scanBehind, foundBehind]
  split
  · have zero : Addressable first.device 0 := ⟨inside, by decide⟩
    refine (pciReadU8_answers zero).bind (pushEach_answers fun subDevice member => ?_)
    rw [mem_numbersFrom (by omega)] at member
    exact pushFound_answers ⟨by omega, by decide⟩
  · exact Answers.pure []

theorem scanFunctions_answers {first : PciDevice} (inside : first.device.toNat < 32) :
    Answers space (scanFunctions first.bus first.device first) (foundFunctions space first) := by
  rw [scanFunctions, foundFunctions]
  split
  · refine pushEach_answers fun function member => ?_
    rw [mem_numbersFrom (by omega)] at member
    exact pushFound_answers ⟨inside, by omega⟩
  · exact Answers.pure []

theorem scanSlot_answers (bus : UInt8) {device : UInt8} (inside : device.toNat < 32) :
    Answers space (scanSlot bus device) (foundAt space (bus, device)) := by
  have zero : Addressable device 0 := ⟨inside, by decide⟩
  refine (new_answers zero).bind ?_
  simp only [foundAt]
  cases reported : report space bus device 0 with
  | none => exact Answers.pure []
  | some first =>
      obtain ⟨rfl, rfl, -⟩ := report_triple reported
      exact (scanBehind_answers inside).bind
        ((scanFunctions_answers inside).bind (Answers.pure _))

theorem scanPciBus_answers (space : ConfigSpace) :
    Answers space scanPciBus (slots.flatMap (foundAt space)) := by
  have listed : slots.flatMap (foundAt space) = (numbersFrom 0 256).flatMap fun bus =>
      (numbersFrom 0 32).flatMap fun device => foundAt space (bus, device) := by
    simp [slots, SProd.sprod, List.product, List.flatMap_assoc, List.flatMap_map]
  rw [listed]
  refine pushEach_answers fun bus _ => pushEach_answers fun device member => ?_
  rw [mem_numbersFrom (by omega)] at member
  exact scanSlot_answers bus (by omega)

theorem found_present {slot : UInt8 × UInt8} (inside : slot.2.toNat < 32) {found : PciDevice}
    (listed : found ∈ foundAt space slot) :
    report space found.bus found.device found.function = some found ∧
      Present space found.bus found.device found.function := by
  have present {bus device function : UInt8} (small : device.toNat < 32)
      (reported : report space bus device function = some found)
      (reached : function = 0 ∨ (1 ≤ function.toNat ∧ function.toNat ≤ 7) ∧
        ∃ first, report space bus device 0 = some first ∧ first.multiFunction = true) :
      report space found.bus found.device found.function = some found ∧
        Present space found.bus found.device found.function := by
    obtain ⟨rfl, rfl, rfl⟩ := report_triple reported
    exact ⟨reported, small, by simp [reported], reached⟩
  rw [foundAt] at listed
  cases reported : report space slot.1 slot.2 0 with
  | none => simp [reported] at listed
  | some first =>
      simp only [reported, List.cons_append, List.mem_cons, List.mem_append] at listed
      obtain ⟨sameBus, sameDevice, -⟩ := report_triple reported
      rcases listed with rfl | behind | further
      · exact present inside reported (.inl rfl)
      · obtain ⟨-, subDevice, small, below⟩ := mem_foundBehind.mp behind
        exact present small below (.inl rfl)
      · obtain ⟨several, function, range, beside⟩ := mem_foundFunctions.mp further
        rw [sameBus, sameDevice] at beside
        exact present inside beside (.inr ⟨range, first, reported, several⟩)

theorem present_found {bus device function : UInt8} (present : Present space bus device function) :
    ∃ found ∈ foundAt space (bus, device), found.triple = (bus, device, function) := by
  obtain ⟨found, reported⟩ := Option.isSome_iff_exists.mp present.reported
  obtain ⟨sameBus, sameDevice, sameFunction⟩ := report_triple reported
  refine ⟨found, ?_, by simp [PciDevice.triple, sameBus, sameDevice, sameFunction]⟩
  rcases present.reached with zero | ⟨range, first, firstReported, several⟩
  · rw [zero] at reported
    simp [foundAt, reported]
  · obtain ⟨firstBus, firstDevice, -⟩ := report_triple firstReported
    have further : found ∈ foundFunctions space first := by
      rw [mem_foundFunctions, firstBus, firstDevice]
      exact ⟨several, function, range, reported⟩
    simp [foundAt, firstReported, further]

/-- The scan lists what is there, some of it perhaps more than once. -/
theorem scan_exact (space : ConfigSpace) (bus device function : UInt8) :
    (bus, device, function) ∈ (slots.flatMap (foundAt space)).map PciDevice.triple ↔
      Present space bus device function := by
  simp only [List.mem_map, List.mem_flatMap, mem_slots]
  constructor
  · rintro ⟨found, ⟨slot, inside, listed⟩, same⟩
    obtain ⟨rfl, rfl, rfl⟩ := same
    exact (found_present inside listed).2
  · intro present
    obtain ⟨found, listed, same⟩ := present_found present
    exact ⟨found, ⟨_, present.inside, listed⟩, same⟩

theorem foundBehind_nothing (nothing : NothingBehind space) {slot : UInt8 × UInt8}
    (inside : slot.2.toNat < 32) {first : PciDevice}
    (reported : report space slot.1 slot.2 0 = some first) : foundBehind space first = [] := by
  obtain ⟨sameBus, sameDevice, -⟩ := report_triple reported
  rw [List.eq_nil_iff_forall_not_mem]
  intro found behind
  obtain ⟨bridge, subDevice, small, below⟩ := mem_foundBehind.mp behind
  rw [sameBus, sameDevice, nothing slot.1 slot.2 first inside reported bridge subDevice small] at below
  cases below

theorem found_here (nothing : NothingBehind space) {slot : UInt8 × UInt8} (inside : slot.2.toNat < 32)
    {found : PciDevice} (listed : found ∈ foundAt space slot) : (found.bus, found.device) = slot := by
  rw [foundAt] at listed
  cases reported : report space slot.1 slot.2 0 with
  | none => simp [reported] at listed
  | some first =>
      simp only [reported, foundBehind_nothing nothing inside reported, List.cons_append,
        List.nil_append, List.mem_cons] at listed
      obtain ⟨sameBus, sameDevice, -⟩ := report_triple reported
      rcases listed with rfl | further
      · simp [sameBus, sameDevice]
      · obtain ⟨-, function, -, beside⟩ := mem_foundFunctions.mp further
        obtain ⟨besideBus, besideDevice, -⟩ := report_triple beside
        simp [besideBus, besideDevice, sameBus, sameDevice]

theorem foundAt_distinct (nothing : NothingBehind space) {slot : UInt8 × UInt8}
    (inside : slot.2.toNat < 32) : ((foundAt space slot).map PciDevice.triple).Nodup := by
  rw [foundAt]
  cases reported : report space slot.1 slot.2 0 with
  | none => simp
  | some first =>
      obtain ⟨-, -, zero⟩ := report_triple reported
      simp only [foundBehind_nothing nothing inside reported, List.cons_append, List.nil_append,
        List.map_cons, List.nodup_cons]
      constructor
      · intro again
        obtain ⟨found, further, same⟩ := List.mem_map.mp again
        obtain ⟨-, function, range, beside⟩ := mem_foundFunctions.mp further
        obtain ⟨-, -, besideFunction⟩ := report_triple beside
        have repeated : function = 0 := by
          rw [← besideFunction, ← zero]
          exact congrArg (fun triple => triple.2.2) same
        simp [repeated] at range
      · rw [foundFunctions]
        split
        · rw [List.map_flatMap, List.nodup_flatMap]
          refine ⟨fun function _ => ?_, (numbersFrom_nodup (by omega)).imp fun apart triple here there => ?_⟩
          · cases report space first.bus first.device function <;> simp
          · obtain ⟨found, foundHere, rfl⟩ := List.mem_map.mp here
            obtain ⟨other, foundThere, same⟩ := List.mem_map.mp there
            rw [Option.mem_toList] at foundHere foundThere
            apply apart
            rw [← (report_triple foundHere).2.2, ← (report_triple foundThere).2.2]
            exact (congrArg (fun triple => triple.2.2) same).symm
        · simp

theorem scan_distinct (nothing : NothingBehind space) :
    ((slots.flatMap (foundAt space)).map PciDevice.triple).Nodup := by
  rw [List.map_flatMap, List.nodup_flatMap]
  refine ⟨fun slot member => foundAt_distinct nothing (mem_slots.mp member),
    slots_nodup.imp_of_mem fun {slot other} member memberOther apart triple here there => ?_⟩
  obtain ⟨found, listed, rfl⟩ := List.mem_map.mp here
  obtain ⟨again, listedAgain, same⟩ := List.mem_map.mp there
  apply apart
  rw [← found_here nothing (mem_slots.mp member) listed,
    ← found_here nothing (mem_slots.mp memberOther) listedAgain]
  exact (congrArg (fun triple : UInt8 × UInt8 × UInt8 => (triple.1, triple.2.1)) same).symm

theorem scan_repeats {bus device subDevice : UInt8} {first found : PciDevice}
    (inside : device.toNat < 32) (reported : report space bus device 0 = some first)
    (bridge : first.isBridge = true) (small : subDevice.toNat < 32)
    (below : report space (secondaryBus space bus device) subDevice 0 = some found) :
    ¬((slots.flatMap (foundAt space)).map PciDevice.triple).Nodup := by
  intro distinct
  obtain ⟨rfl, rfl, -⟩ := report_triple reported
  have behind : found ∈ foundBehind space first := mem_foundBehind.mpr ⟨bridge, subDevice, small, below⟩
  have descended : found ∈ foundAt space (first.bus, first.device) := by
    simp [foundAt, reported, behind]
  have swept : found ∈ foundAt space (secondaryBus space first.bus first.device, subDevice) := by
    simp [foundAt, below]
  rw [List.map_flatMap, List.nodup_flatMap] at distinct
  obtain ⟨each, apart⟩ := distinct
  by_cases same : (first.bus, first.device) = (secondaryBus space first.bus first.device, subDevice)
  · -- the bridge stands on its own secondary bus
    have twice := each (first.bus, first.device) (mem_slots.mpr inside)
    rw [Prod.mk.injEq] at same
    rw [← same.1, ← same.2, reported] at below
    obtain rfl := Option.some.inj below
    simp [foundAt, reported] at twice
    exact twice.1.1 _ behind rfl
  · have symmetric : Std.Symm fun left right : UInt8 × UInt8 =>
        ((foundAt space left).map PciDevice.triple).Disjoint
          ((foundAt space right).map PciDevice.triple) := ⟨fun _ _ disjoint => disjoint.symm⟩
    exact apart.forall (mem_slots.mpr inside) (mem_slots.mpr small) same
      (List.mem_map_of_mem descended) (List.mem_map_of_mem swept)

end Scan

/-- The scan lists every function once exactly when nothing stands behind a bridge. -/
theorem listed_once_iff (space : ConfigSpace) : ∃ listed, Answers space scanPciBus listed ∧
    (ListedOnce space listed ↔ NothingBehind space) := by
  refine ⟨_, scanPciBus_answers space, fun once => ?_, fun nothing => ?_⟩
  · intro bus device first inside reported bridge subDevice small
    by_contra some
    obtain ⟨found, below⟩ := Option.ne_none_iff_exists'.mp some
    exact scan_repeats inside reported bridge small below once.distinct
  · exact ⟨scan_distinct nothing, scan_exact space⟩

def bridgedSpace : ConfigSpace := fun bus device function register =>
  if function ≠ 0 then 0xFFFFFFFF
  else if bus = 0 ∧ device = 1 then
    if register = 0 then 0x00018086
    else if register = 8 then 0x06040000
    else if register = 12 then 0x00010000
    else if register = 0x18 then 0x00010101
    else 0
  else if bus = 1 ∧ device = 0 then
    if register = 0 then 0x10D38086
    else if register = 8 then 0x02000000
    else 0
  else 0xFFFFFFFF

theorem bridged_device_twice : ∃ listed, Answers bridgedSpace scanPciBus listed ∧
    ¬ListedOnce bridgedSpace listed := by
  refine ⟨_, scanPciBus_answers bridgedSpace, fun once => ?_⟩
  have small : (1 : UInt8).toNat < 32 := by decide
  have zero : (0 : UInt8).toNat < 32 := by decide
  have bridge : report bridgedSpace 0 1 0 = some ⟨0, 1, 0, 0x8086, 0x8086, 0x06, 0x04, 0⟩ := by decide
  have below : report bridgedSpace (secondaryBus bridgedSpace 0 1) 0 0 =
      some ⟨1, 0, 0, 0x8086, 0x8086, 0x02, 0x00, 0⟩ := by decide
  exact scan_repeats small bridge (by decide) zero below once.distinct

end ArcadiaOs.Drivers
