import Mathlib.Data.Nat.Bitwise
import Mathlib.Data.UInt

/-!
The PCI scan of `drivers/pci/mod.rs`.  The configuration registers are reached through a
pair of ports: a dword address is written to 0xCF8 and the dword is read from 0xCFC.
-/

namespace ArcadiaOs.Drivers

/-- The dword of each bus, device, function and register. -/
abbrev ConfigSpace := UInt8 → UInt8 → UInt8 → UInt8 → UInt32

structure PciPorts where
  space : ConfigSpace
  configAddress : UInt32

abbrev Pci (α : Type) := StateM PciPorts α

def writeConfigAddress (address : UInt32) : Pci Unit :=
  modify fun ports => { ports with configAddress := address }

/-- The fields of the address as the host bridge decodes them; without the enable bit no register
answers. -/
def PciPorts.selected (ports : PciPorts) : UInt32 :=
  let address := ports.configAddress
  if address &&& 0x80000000 = 0 then 0xFFFFFFFF
  else ports.space (address >>> 16).toUInt8 ((address >>> 11).toUInt8 &&& 0x1F)
    ((address >>> 8).toUInt8 &&& 0x07) (address.toUInt8 &&& 0xFC)

def readConfigData : Pci UInt32 := do pure (← get).selected

def configAddressOf (bus device function offset : UInt8) : UInt32 :=
  (0x80000000 : UInt32) ||| (bus.toUInt32 <<< 16) ||| (device.toUInt32 <<< 11) ||| (function.toUInt32 <<< 8) |||
    (offset.toUInt32 &&& 0xFC)

def pciReadU8 (bus device function offset : UInt8) : Pci UInt8 := do
  writeConfigAddress (configAddressOf bus device function offset)
  pure (← readConfigData).toUInt8

def pciReadU16 (bus device function offset : UInt8) : Pci UInt16 := do
  writeConfigAddress (configAddressOf bus device function offset)
  pure (← readConfigData).toUInt16

def pciReadU32 (bus device function offset : UInt8) : Pci UInt32 := do
  writeConfigAddress (configAddressOf bus device function offset)
  readConfigData

structure PciDevice where
  bus : UInt8
  device : UInt8
  function : UInt8
  vendorId : UInt16
  deviceId : UInt16
  class' : UInt8
  subclass : UInt8
  headerType : UInt8
  deriving DecidableEq

namespace PciDevice

def new (bus device function : UInt8) : Pci (Option PciDevice) := do
  let vendorId ← pciReadU16 bus device function 0
  if vendorId = 0xFFFF then pure none
  else do
    let deviceId ← pciReadU16 bus device function 2
    let classRev ← pciReadU32 bus device function 8
    let headerType ← pciReadU8 bus device function 14
    pure (some { bus, device, function, vendorId, deviceId, headerType
                 class' := (classRev >>> 24).toUInt8
                 subclass := (classRev >>> 16).toUInt8 })

def isBridge (found : PciDevice) : Bool := found.class' = 0x06 && found.subclass = 0x04

def multiFunction (found : PciDevice) : Bool := found.headerType &&& 0x80 ≠ 0

end PciDevice

def pushEach (body : UInt8 → Pci (List PciDevice)) : List UInt8 → Pci (List PciDevice)
  | [] => pure []
  | number :: rest => do
      let pushed ← body number
      let later ← pushEach body rest
      pure (pushed ++ later)

def numbersFrom (first count : Nat) : List UInt8 := (List.range' first count).map UInt8.ofNat

/-- The body of the loops behind a bridge and over the functions of a device. -/
def pushFound (bus device function : UInt8) : Pci (List PciDevice) := do
  pure (← PciDevice.new bus device function).toList

def scanBehind (bus device : UInt8) (pciDevice : PciDevice) : Pci (List PciDevice) :=
  if pciDevice.isBridge then do
    let subBus ← pciReadU8 bus device 0 0x19
    pushEach (fun subDevice => pushFound subBus subDevice 0) (numbersFrom 0 32)
  else pure []

def scanFunctions (bus device : UInt8) (pciDevice : PciDevice) : Pci (List PciDevice) :=
  if pciDevice.multiFunction then pushEach (pushFound bus device) (numbersFrom 1 7) else pure []

def scanSlot (bus device : UInt8) : Pci (List PciDevice) := do
  match ← PciDevice.new bus device 0 with
  | none => pure []
  | some pciDevice =>
      let behind ← scanBehind bus device pciDevice
      let functions ← scanFunctions bus device pciDevice
      pure (pciDevice :: behind ++ functions)

def scanPciBus : Pci (List PciDevice) :=
  pushEach (fun bus => pushEach (scanSlot bus) (numbersFrom 0 32)) (numbersFrom 0 256)

/-! What each read answers, whatever address the ports hold before. -/

/-- The action answers `value` on the configuration space, which it leaves alone. -/
def Answers {α : Type} (space : ConfigSpace) (action : Pci α) (value : α) : Prop :=
  ∀ ports : PciPorts, ports.space = space → (action ports).1 = value ∧ (action ports).2.space = space

section Answers

variable {α β : Type} {space : ConfigSpace}

theorem Answers.pure (value : α) : Answers space (Pure.pure value) value :=
  fun _ holds => ⟨rfl, holds⟩

theorem Answers.bind {first : Pci α} {next : α → Pci β} {value : α} {result : β}
    (here : Answers space first value) (later : Answers space (next value) result) :
    Answers space (first >>= next) result := by
  intro ports holds
  obtain ⟨answer, kept⟩ := here ports holds
  have done := later (first ports).2 kept
  rw [← answer] at done
  exact done

theorem Answers.unique {action : Pci α} {value other : α} (answers : Answers space action value)
    (again : Answers space action other) : value = other :=
  (answers ⟨space, 0⟩ rfl).1.symm.trans (again ⟨space, 0⟩ rfl).1

theorem pushEach_answers {body : UInt8 → Pci (List PciDevice)} {pushed : UInt8 → List PciDevice}
    {numbers : List UInt8}
    (answers : ∀ number ∈ numbers, Answers space (body number) (pushed number)) :
    Answers space (pushEach body numbers) (numbers.flatMap pushed) := by
  induction numbers with
  | nil => exact Answers.pure []
  | cons number rest ih =>
      rw [List.forall_mem_cons] at answers
      exact answers.1.bind ((ih answers.2).bind (Answers.pure _))

end Answers

/-! The address written is decoded to the register that it names. -/

/-- The device and function numbers that an address has room for. -/
structure Addressable (device function : UInt8) : Prop where
  device : device.toNat < 32
  function : function.toNat < 8

theorem or_low {high low : Nat} (width : Nat) (aligned : high % 2 ^ width = 0)
    (small : low < 2 ^ width) : high ||| low = high + low := by
  have whole : high = (high / 2 ^ width) <<< width := by
    rw [Nat.shiftLeft_eq]
    exact (Nat.div_mul_cancel (Nat.dvd_of_mod_eq_zero aligned)).symm
  rw [whole, Nat.shiftLeft_add_eq_or_of_lt small]

theorem and_field (value low width : Nat) :
    value &&& (2 ^ width - 1) * 2 ^ low = value / 2 ^ low % 2 ^ width * 2 ^ low := by
  apply Nat.eq_of_testBit_eq
  intro place
  simp only [Nat.testBit_and, Nat.testBit_mul_two_pow, Nat.testBit_two_pow_sub_one,
    Nat.testBit_mod_two_pow, Nat.testBit_div_two_pow]
  by_cases above : low ≤ place
  · simp [above, Bool.and_comm]
  · simp [above]

theorem and_register (value : Nat) : value &&& 252 = value % 256 / 4 * 4 := by
  have field := and_field value 2 6
  simp only [Nat.reducePow, Nat.reduceSub, Nat.reduceMul] at field
  omega

theorem and_enable (value : Nat) : value &&& 2147483648 = value / 2147483648 % 2 * 2147483648 := by
  simpa using and_field value 31 1

theorem and_device (value : Nat) : value &&& 31 = value % 32 := by simpa using and_field value 0 5

theorem and_function (value : Nat) : value &&& 7 = value % 8 := by simpa using and_field value 0 3

theorem configAddressOf_toNat {bus device function offset : UInt8} (inside : Addressable device function) :
    (configAddressOf bus device function offset).toNat =
      2 ^ 31 + bus.toNat * 2 ^ 16 + device.toNat * 2 ^ 11 + function.toNat * 2 ^ 8 +
        offset.toNat / 4 * 4 := by
  have busBound := bus.toNat_lt
  have offsetBound := offset.toNat_lt
  have deviceBound := inside.device
  have functionBound := inside.function
  simp only [configAddressOf, UInt32.toNat_or, UInt32.toNat_and, UInt32.toNat_shiftLeft,
    UInt8.toNat_toUInt32, Nat.shiftLeft_eq, UInt32.reduceToNat, and_register, Nat.reduceMod,
    Nat.reducePow]
  -- the fields lie one below the other, from the enable bit down
  rw [@or_low 2147483648 _ 31 (by omega) (by omega), @or_low (2147483648 + _) _ 16 (by omega) (by omega),
    @or_low (2147483648 + _ + _) _ 11 (by omega) (by omega), or_low 8 (by omega) (by omega)]
  omega

theorem selected_eq {bus device function offset : UInt8} (inside : Addressable device function)
    (space : ConfigSpace) :
    (PciPorts.mk space (configAddressOf bus device function offset)).selected =
      space bus device function (offset &&& 0xFC) := by
  have address : (configAddressOf bus device function offset).toNat = _ := configAddressOf_toNat inside
  have busBound := bus.toNat_lt
  have offsetBound := offset.toNat_lt
  have deviceBound := inside.device
  have functionBound := inside.function
  generalize configAddressOf bus device function offset = written at address
  have enabled : written &&& 0x80000000 ≠ 0 := by
    intro zero
    have none := congrArg UInt32.toNat zero
    simp only [UInt32.toNat_and, UInt32.reduceToNat, and_enable] at none
    omega
  simp only [PciPorts.selected, if_neg enabled]
  congr 1 <;> apply UInt8.toNat_inj.mp <;>
    simp [Nat.shiftRight_eq_div_pow, and_register, and_device, and_function] <;> omega

section Reads

variable {space : ConfigSpace} {bus device function offset : UInt8}

theorem readConfigData_answers (inside : Addressable device function) {α : Type}
    {next : UInt32 → Pci α} {value : α}
    (later : Answers space (next (space bus device function (offset &&& 0xFC))) value) :
    Answers space (do
      writeConfigAddress (configAddressOf bus device function offset)
      next (← readConfigData)) value := by
  rintro ports rfl
  have read := @selected_eq bus device function offset inside ports.space
  have done := later ⟨ports.space, configAddressOf bus device function offset⟩ rfl
  rw [← read] at done
  exact done

/-- Every access reads from the start of the dword that holds the offset. -/
theorem pciReadU8_answers (inside : Addressable device function) :
    Answers space (pciReadU8 bus device function offset)
      (space bus device function (offset &&& 0xFC)).toUInt8 :=
  readConfigData_answers inside (Answers.pure _)

theorem pciReadU16_answers (inside : Addressable device function) :
    Answers space (pciReadU16 bus device function offset)
      (space bus device function (offset &&& 0xFC)).toUInt16 :=
  readConfigData_answers inside (Answers.pure _)

theorem pciReadU32_answers (inside : Addressable device function) :
    Answers space (pciReadU32 bus device function offset)
      (space bus device function (offset &&& 0xFC)) :=
  readConfigData_answers inside (Answers.pure _)

def report (space : ConfigSpace) (bus device function : UInt8) : Option PciDevice :=
  let dword := space bus device function
  if (dword 0).toUInt16 = 0xFFFF then none
  else some
    { bus, device, function
      vendorId := (dword 0).toUInt16
      deviceId := (dword 0).toUInt16
      class' := (dword 8 >>> 24).toUInt8
      subclass := (dword 8 >>> 16).toUInt8
      headerType := (dword 12).toUInt8 }

theorem new_answers (inside : Addressable device function) :
    Answers space (PciDevice.new bus device function) (report space bus device function) := by
  refine (pciReadU16_answers inside).bind ?_
  by_cases absent : (space bus device function 0).toUInt16 = 0xFFFF
  · rw [report, if_pos absent, if_pos (by exact absent)]
    exact Answers.pure none
  · rw [report, if_neg absent, if_neg (by exact absent)]
    exact (pciReadU16_answers inside).bind ((pciReadU32_answers inside).bind
      ((pciReadU8_answers inside).bind (Answers.pure _)))

end Reads

end ArcadiaOs.Drivers
