import ArcadiaOs.Drivers.PciCore
import ArcadiaOs.Lib.Bytes

/-!
The fields of a configuration header.  Every accessor returns the low end of the dword
that holds the offset, so a field is read right when it starts the dword or repeats what
stands there.
-/

namespace ArcadiaOs.Drivers

open Lib

def configByte (space : ConfigSpace) (bus device function offset : UInt8) : UInt8 :=
  UInt8.ofNat ((space bus device function (offset &&& 0xFC)).toNat / 256 ^ (offset.toNat % 4))

def configBytes (space : ConfigSpace) (bus device function offset : UInt8) (count : Nat) : List UInt8 :=
  (List.range count).map fun index =>
    configByte space bus device function (offset + UInt8.ofNat index)

def described (space : ConfigSpace) (bus device function : UInt8) : Option PciDevice :=
  let half (offset : UInt8) := UInt16.ofNat (ofLeBytes (configBytes space bus device function offset 2))
  let byte := configByte space bus device function
  if half 0 = 0xFFFF then none
  else some
    { bus, device, function
      vendorId := half 0
      deviceId := half 2
      class' := byte 11
      subclass := byte 10
      headerType := byte 14 }

/-- The accessors at an offset, the report of a function and the secondary bus number of its device
are the bytes that stand there. -/
structure FieldsRead (space : ConfigSpace) (bus device function offset : UInt8) : Prop where
  u8 : Answers space (pciReadU8 bus device function offset) (configByte space bus device function offset)
  u16 : offset.toNat % 2 = 0 → Answers space (pciReadU16 bus device function offset)
    (UInt16.ofNat (ofLeBytes (configBytes space bus device function offset 2)))
  u32 : offset.toNat % 4 = 0 → Answers space (pciReadU32 bus device function offset)
    (UInt32.ofNat (ofLeBytes (configBytes space bus device function offset 4)))
  header : Answers space (PciDevice.new bus device function) (described space bus device function)
  secondary : Answers space (pciReadU8 bus device 0 0x19) (configByte space bus device 0 0x19)

/-- What the accessors look for stands at the start of its dword as well. -/
structure FieldsRepeat (space : ConfigSpace) (bus device function offset : UInt8) : Prop where
  u8 : configByte space bus device function offset = configByte space bus device function (offset &&& 0xFC)
  u16 : offset.toNat % 2 = 0 → configBytes space bus device function offset 2 =
    configBytes space bus device function (offset &&& 0xFC) 2
  header : configBytes space bus device function 0 2 = [0xFF, 0xFF] ∨
    configBytes space bus device function 2 2 = configBytes space bus device function 0 2 ∧
      configByte space bus device function 14 = configByte space bus device function 12
  secondary : configByte space bus device 0 0x19 = configByte space bus device 0 0x18

section Bytes

variable {space : ConfigSpace} {bus device function offset : UInt8}

theorem aligned_toNat (offset : UInt8) : (offset &&& 0xFC).toNat = offset.toNat / 4 * 4 := by
  have bound := offset.toNat_lt
  simp only [UInt8.toNat_and, UInt8.reduceToNat, and_register]
  omega

theorem aligned_idem (offset : UInt8) : offset &&& 0xFC &&& 0xFC = offset &&& 0xFC := by
  apply UInt8.toNat_inj.mp
  simp only [aligned_toNat]
  omega

theorem configByte_lane (lane : Nat) (inside : lane < 4) :
    configByte space bus device function ((offset &&& 0xFC) + UInt8.ofNat lane) =
      UInt8.ofNat ((space bus device function (offset &&& 0xFC)).toNat / 256 ^ lane) := by
  have bound := offset.toNat_lt
  have place : ((offset &&& 0xFC) + UInt8.ofNat lane).toNat = offset.toNat / 4 * 4 + lane := by
    rw [UInt8.toNat_add, aligned_toNat, UInt8.toNat_ofNat']
    omega
  have start : (offset &&& 0xFC) + UInt8.ofNat lane &&& 0xFC = offset &&& 0xFC := by
    apply UInt8.toNat_inj.mp
    rw [aligned_toNat, aligned_toNat, place]
    omega
  rw [configByte, start, place]
  congr 3
  omega

theorem configBytes_front {count : Nat} (inside : count ≤ 4) :
    configBytes space bus device function (offset &&& 0xFC) count =
      leBytes count (space bus device function (offset &&& 0xFC)).toNat := by
  rw [leBytes_eq_map]
  apply List.map_congr_left
  intro lane member
  have bound := List.mem_range.mp member
  exact configByte_lane lane (by omega)

theorem length_configBytes (count : Nat) :
    (configBytes space bus device function offset count).length = count := by
  simp [configBytes]

theorem low_byte : (space bus device function (offset &&& 0xFC)).toUInt8 =
    configByte space bus device function (offset &&& 0xFC) := by
  have start : (offset.toNat / 4 * 4) % 4 = 0 := by omega
  rw [configByte, aligned_idem, aligned_toNat, start]
  apply UInt8.toNat_inj.mp
  simp

theorem half_inj {left right : List UInt8} (long : left.length = 2) (longRight : right.length = 2) :
    UInt16.ofNat (ofLeBytes left) = UInt16.ofNat (ofLeBytes right) ↔ left = right := by
  have bound := ofLeBytes_lt left
  have boundRight := ofLeBytes_lt right
  rw [long] at bound
  rw [longRight] at boundRight
  rw [← ofLeBytes_inj (long.trans longRight.symm), ← UInt16.toNat_inj, UInt16.toNat_ofNat',
    UInt16.toNat_ofNat']
  omega

theorem low_half : (space bus device function (offset &&& 0xFC)).toUInt16 =
    UInt16.ofNat (ofLeBytes (configBytes space bus device function (offset &&& 0xFC) 2)) := by
  apply UInt16.toNat_inj.mp
  simp [configBytes_front, ofLeBytes_leBytes]

theorem whole_dword : space bus device function (offset &&& 0xFC) =
    UInt32.ofNat (ofLeBytes (configBytes space bus device function (offset &&& 0xFC) 4)) := by
  have bound := (space bus device function (offset &&& 0xFC)).toNat_lt
  apply UInt32.toNat_inj.mp
  simp [configBytes_front, ofLeBytes_leBytes]

theorem shifted_byte (space : ConfigSpace) (bus device function : UInt8) :
    (space bus device function 8 >>> 24).toUInt8 = configByte space bus device function 11 ∧
      (space bus device function 8 >>> 16).toUInt8 = configByte space bus device function 10 := by
  have eleven : (11 : UInt8) &&& 0xFC = 8 := rfl
  have ten : (10 : UInt8) &&& 0xFC = 8 := rfl
  constructor
  · apply UInt8.toNat_inj.mp
    simp [configByte, eleven, Nat.shiftRight_eq_div_pow]
  · apply UInt8.toNat_inj.mp
    simp [configByte, ten, Nat.shiftRight_eq_div_pow]

theorem report_eq_iff (space : ConfigSpace) (bus device function : UInt8) :
    report space bus device function = described space bus device function ↔
      configBytes space bus device function 0 2 = [0xFF, 0xFF] ∨
        configBytes space bus device function 2 2 = configBytes space bus device function 0 2 ∧
          configByte space bus device function 14 = configByte space bus device function 12 := by
  obtain ⟨high, middle⟩ := shifted_byte space bus device function
  have long (offset : UInt8) : (configBytes space bus device function offset 2).length = 2 :=
    length_configBytes 2
  have vendor : (space bus device function 0).toUInt16 = _ := @low_half space bus device function 0
  have header : (space bus device function 12).toUInt8 = _ := @low_byte space bus device function 12
  have absent : UInt16.ofNat (ofLeBytes (configBytes space bus device function 0 2)) = 0xFFFF ↔
      configBytes space bus device function 0 2 = [0xFF, 0xFF] := by
    have ones : UInt16.ofNat (ofLeBytes [0xFF, 0xFF]) = 0xFFFF := by decide
    rw [← half_inj (long 0) rfl, ones]
  have zero : (0 : UInt8) &&& 0xFC = 0 := rfl
  have twelve : (12 : UInt8) &&& 0xFC = 12 := rfl
  simp only [report, described, vendor, header, high, middle, zero, twelve, absent]
  by_cases missing : configBytes space bus device function 0 2 = [0xFF, 0xFF]
  · simp [missing]
  · simp [missing, half_inj (long 0) (long 2), eq_comm]

end Bytes

/-- The fields of a function are read right exactly where they repeat what stands at the start of
their dwords. -/
theorem fields_read_iff {device function : UInt8} (inside : Addressable device function)
    (space : ConfigSpace) (bus offset : UInt8) :
    FieldsRead space bus device function offset ↔ FieldsRepeat space bus device function offset := by
  have first : Addressable device 0 := ⟨inside.device, by decide⟩
  have long (offset : UInt8) : (configBytes space bus device function offset 2).length = 2 :=
    length_configBytes 2
  have byteRead : Answers space (pciReadU8 bus device function offset) _ := pciReadU8_answers inside
  have halfRead : Answers space (pciReadU16 bus device function offset) _ := pciReadU16_answers inside
  have busRead : Answers space (pciReadU8 bus device 0 0x19) _ := pciReadU8_answers first
  have described : Answers space (PciDevice.new bus device function) _ := new_answers inside
  rw [low_byte] at byteRead busRead
  rw [low_half] at halfRead
  constructor
  · rintro ⟨u8, u16, -, header, secondary⟩
    refine ⟨u8.unique byteRead, fun even => ?_, ?_, secondary.unique busRead⟩
    · exact (half_inj (long _) (long _)).mp ((u16 even).unique halfRead)
    · exact (report_eq_iff space bus device function).mp (described.unique header)
  · rintro ⟨u8, u16, header, secondary⟩
    refine ⟨u8 ▸ byteRead, fun even => ?_, fun aligned => ?_, ?_, ?_⟩
    · rw [u16 even]
      exact halfRead
    · have start : offset &&& 0xFC = offset := by
        apply UInt8.toNat_inj.mp
        rw [aligned_toNat]
        omega
      have read : Answers space (pciReadU32 bus device function offset) _ := pciReadU32_answers inside
      rw [@whole_dword space bus device function offset, start] at read
      exact read
    · rw [← (report_eq_iff space bus device function).mpr header]
      exact described
    · rw [secondary]
      exact busRead

def hostBridge : ConfigSpace := fun bus device function register =>
  if bus ≠ 0 ∨ device ≠ 0 ∨ function ≠ 0 then 0xFFFFFFFF
  else if register = 0 then 0x12378086
  else if register = 8 then 0x06000002
  else 0

theorem fields_read_bridge :
    FieldsRead hostBridge 0 0 0 0 ↔ FieldsRepeat hostBridge 0 0 0 0 :=
  fields_read_iff ⟨by decide, by decide⟩ hostBridge 0 0

theorem device_id_misread : ¬FieldsRead hostBridge 0 0 0 2 ∧
    (∃ found, Answers hostBridge (PciDevice.new 0 0 0) (some found) ∧ found.deviceId = 0x8086) ∧
    (described hostBridge 0 0 0).map PciDevice.deviceId = some 0x1237 := by
  have found : Answers hostBridge (PciDevice.new 0 0 0) _ := new_answers ⟨by decide, by decide⟩
  refine ⟨fun read => ?_, ⟨_, found, by decide⟩, by decide⟩
  have same := found.unique read.header
  exact absurd same (by decide)

end ArcadiaOs.Drivers
