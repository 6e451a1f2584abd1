import ArcadiaOs.Lib.Bytes
import ArcadiaOs.Memory.PhysmemCore

/-!
The memory map that the boot loader hands over.  `parse_hvm_start_info` reads the header
through a structure with a 64-bit `flags` field and without the module list, so it takes
the map from where the command line and the RSDP stand.
-/

namespace ArcadiaOs.Memory

open Lib

def fieldAt (memory : Lib.Memory) (address width : Nat) : Nat := ofLeBytes (memory.read address width)

/-- The fields of the source's `HvmStartInfo` that its parser uses or skips, as `repr(C)` places them. -/
structure HvmStartInfo where
  magic : Nat
  version : Nat
  flags : Nat
  rsdpPaddr : Nat
  memmapPaddr : Nat
  memmapEntries : Nat
  cmdlinePaddr : Nat

def HvmStartInfo.readAt (memory : Lib.Memory) (address : Nat) : HvmStartInfo where
  magic := fieldAt memory address 4
  version := fieldAt memory (address + 4) 4
  flags := fieldAt memory (address + 8) 8
  rsdpPaddr := fieldAt memory (address + 16) 8
  memmapPaddr := fieldAt memory (address + 24) 8
  memmapEntries := fieldAt memory (address + 32) 4
  cmdlinePaddr := fieldAt memory (address + 36) 4

structure HvmMemmapEntry where
  addr : Nat
  size : Nat
  memType : Nat
  reserved : Nat

def HvmMemmapEntry.readAt (memory : Lib.Memory) (address : Nat) : HvmMemmapEntry where
  addr := fieldAt memory address 8
  size := fieldAt memory (address + 8) 8
  memType := fieldAt memory (address + 16) 4
  reserved := fieldAt memory (address + 20) 4

def memmapEntry (memory : Lib.Memory) (table index : Nat) : HvmMemmapEntry :=
  .readAt memory (wrap64 (table + index * 24))

def hvmMemmapRam : Nat := 1
def hvmMemmapReserved : Nat := 2
def hvmMemmapAcpi : Nat := 3
def hvmMemmapAcpiNvs : Nat := 4
def hvmMemmapBad : Nat := 5

def MemoryRegionType.fromHvm (hvmType : Nat) : MemoryRegionType :=
  if hvmType = hvmMemmapRam then .usable
  else if hvmType = hvmMemmapReserved then .reserved
  else if hvmType = hvmMemmapAcpi then .acpi
  else if hvmType = hvmMemmapAcpiNvs then .acpiNvs
  else if hvmType = hvmMemmapBad then .bad
  else .reserved

def bootRegionName (hvmType : Nat) : String :=
  if hvmType = hvmMemmapRam then "Boot RAM"
  else if hvmType = hvmMemmapReserved then "Boot Reserved"
  else if hvmType = hvmMemmapAcpi then "Boot ACPI"
  else if hvmType = hvmMemmapAcpiNvs then "Boot ACPI NVS"
  else if hvmType = hvmMemmapBad then "Boot Bad Memory"
  else "Boot Unknown"

def regionOf (entry : HvmMemmapEntry) : Option MemoryRegion :=
  (PhysAddr.new? entry.addr).map fun base =>
    { base, size := entry.size, regionType := .fromHvm entry.memType, name := bootRegionName entry.memType }

/-- The loop over the entries from `index` on; none stands for the panic of `PhysAddr::new`. -/
def parseEntries (memory : Lib.Memory) (table : Nat) : Nat → Nat → Option (List MemoryRegion)
  | 0, _ => some []
  | count + 1, index => do
      let region ← regionOf (memmapEntry memory table index)
      let later ← parseEntries memory table count (index + 1)
      some (region :: later)

def parseHvmStartInfo (memory : Lib.Memory) (hvmPtr : Nat) : Option (List MemoryRegion) :=
  if hvmPtr = 0 then some []
  else
    let hvm := HvmStartInfo.readAt memory hvmPtr
    if hvm.memmapPaddr = 0 ∨ hvm.memmapEntries = 0 then some []
    else parseEntries memory hvm.memmapPaddr hvm.memmapEntries 0

/-- The structure as the specification lays it out, from version 1 on. -/
structure StartInfo where
  magic : Nat
  version : Nat
  flags : Nat
  nrModules : Nat
  modlistPaddr : Nat
  cmdlinePaddr : Nat
  rsdpPaddr : Nat
  memmapPaddr : Nat
  memmapEntries : Nat

def StartInfo.readAt (memory : Lib.Memory) (address : Nat) : StartInfo where
  magic := fieldAt memory address 4
  version := fieldAt memory (address + 4) 4
  flags := fieldAt memory (address + 8) 4
  nrModules := fieldAt memory (address + 12) 4
  modlistPaddr := fieldAt memory (address + 16) 8
  cmdlinePaddr := fieldAt memory (address + 24) 8
  rsdpPaddr := fieldAt memory (address + 32) 8
  memmapPaddr := fieldAt memory (address + 40) 8
  memmapEntries := fieldAt memory (address + 48) 4

structure Decodes (region : MemoryRegion) (entry : HvmMemmapEntry) : Prop where
  base : region.base.asU64 = entry.addr
  size : region.size = entry.size
  regionType : region.regionType = .fromHvm entry.memType

def DecodesMap (memory : Lib.Memory) (info : StartInfo) (result : Option (List MemoryRegion)) : Prop :=
  ∃ regions, result = some regions ∧ regions.length = info.memmapEntries ∧
    ∀ index region, regions[index]? = some region →
      Decodes region (memmapEntry memory info.memmapPaddr index)

structure Alike (left right : HvmMemmapEntry) : Prop where
  addr : left.addr = right.addr
  size : left.size = right.size
  memType : MemoryRegionType.fromHvm left.memType = .fromHvm right.memType

/-- The command line is a copy of the memory map, and the RSDP address ends in its length. -/
structure MapInCmdline (memory : Lib.Memory) (info : StartInfo) : Prop where
  present : info.cmdlinePaddr ≠ 0
  entries : info.rsdpPaddr % 2 ^ 32 = info.memmapEntries
  alike : ∀ index < info.memmapEntries,
    Alike (memmapEntry memory info.cmdlinePaddr index) (memmapEntry memory info.memmapPaddr index)

section Entries

variable {memory : Lib.Memory} {table : Nat}

theorem regionOf_some {entry : HvmMemmapEntry} {region : MemoryRegion}
    (made : regionOf entry = some region) : Decodes region entry := by
  simp only [regionOf, PhysAddr.new?, Option.map_eq_some_iff] at made
  obtain ⟨base, inside, rfl⟩ := made
  split at inside
  · obtain rfl := Option.some.inj inside
    exact ⟨rfl, rfl, rfl⟩
  · cases inside

theorem regionOf_total {entry : HvmMemmapEntry} (inside : entry.addr < 2 ^ 52) :
    ∃ region, regionOf entry = some region := by
  rw [regionOf, PhysAddr.new?, dif_pos inside]
  exact ⟨_, rfl⟩

theorem parseEntries_some {count index : Nat} {regions : List MemoryRegion}
    (parsed : parseEntries memory table count index = some regions) :
    regions.length = count ∧ ∀ place region, regions[place]? = some region →
      Decodes region (memmapEntry memory table (index + place)) := by
  induction count generalizing index regions with
  | zero =>
      obtain rfl := Option.some.inj parsed
      simp
  | succ count ih =>
      simp only [parseEntries, Option.bind_eq_bind, Option.bind_eq_some_iff, Option.some.injEq] at parsed
      obtain ⟨region, made, later, rest, rfl⟩ := parsed
      obtain ⟨long, decodes⟩ := ih rest
      refine ⟨by simp [long], fun place found at_place => ?_⟩
      cases place with
      | zero =>
          obtain rfl := Option.some.inj at_place
          exact regionOf_some made
      | succ place =>
          have behind := decodes place found at_place
          rwa [Nat.add_right_comm] at behind

theorem parseEntries_total {count index : Nat}
    (inside : ∀ place, index ≤ place → place < index + count →
      (memmapEntry memory table place).addr < 2 ^ 52) :
    ∃ regions, parseEntries memory table count index = some regions := by
  induction count generalizing index with
  | zero => exact ⟨[], rfl⟩
  | succ count ih =>
      obtain ⟨region, first⟩ := regionOf_total (inside index (by omega) (by omega))
      obtain ⟨later, rest⟩ := @ih (index + 1) fun place lower upper => inside place (by omega) (by omega)
      exact ⟨region :: later, by simp [parseEntries, first, rest]⟩

theorem fieldAt_low (memory : Lib.Memory) (address : Nat) :
    fieldAt memory address 4 = fieldAt memory address 8 % 2 ^ 32 := by
  have long : (memory.read address 4).length = 4 := by simp [Memory.read]
  have bound := ofLeBytes_lt (memory.read address 4)
  have whole : memory.read address 8 = _ := Memory.read_add memory address 4 4
  rw [long] at bound
  rw [fieldAt, fieldAt, whole, ofLeBytes_append, long]
  omega

end Entries

/-- What the parser takes for the map is the command line, and for its length the low half of the
RSDP address. -/
theorem parseHvmStartInfo_eq (memory : Lib.Memory) {hvmPtr : Nat} (present : hvmPtr ≠ 0) :
    parseHvmStartInfo memory hvmPtr =
      let info := StartInfo.readAt memory hvmPtr
      if info.cmdlinePaddr = 0 ∨ info.rsdpPaddr % 2 ^ 32 = 0 then some []
      else parseEntries memory info.cmdlinePaddr (info.rsdpPaddr % 2 ^ 32) 0 := by
  simp only [parseHvmStartInfo, if_neg present, HvmStartInfo.readAt, StartInfo.readAt, fieldAt_low]

/-- The parser returns the memory map of a start info exactly when the command line is a copy of it. -/
theorem decodes_map_iff (memory : Lib.Memory) {hvmPtr : Nat} (present : hvmPtr ≠ 0)
    (some_entry : 1 ≤ (StartInfo.readAt memory hvmPtr).memmapEntries)
    (inside : ∀ index < (StartInfo.readAt memory hvmPtr).memmapEntries,
      (memmapEntry memory (StartInfo.readAt memory hvmPtr).memmapPaddr index).addr < 2 ^ 52) :
    DecodesMap memory (StartInfo.readAt memory hvmPtr) (parseHvmStartInfo memory hvmPtr) ↔
      MapInCmdline memory (StartInfo.readAt memory hvmPtr) := by
  rw [parseHvmStartInfo_eq memory present]
  generalize StartInfo.readAt memory hvmPtr = info at *
  simp only
  constructor
  · rintro ⟨regions, parsed, long, decodes⟩
    split at parsed
    · -- no region is too few for a map of some entries
      obtain rfl := Option.some.inj parsed
      simp only [List.length_nil] at long
      omega
    rename_i read
    obtain ⟨length, taken⟩ := parseEntries_some parsed
    refine ⟨fun absent => read (.inl absent), length.symm.trans long, fun index bound => ?_⟩
    have listed : index < regions.length := by omega
    have right := decodes index _ (List.getElem?_eq_getElem listed)
    have left := taken index _ (List.getElem?_eq_getElem listed)
    rw [Nat.zero_add] at left
    exact ⟨left.base.symm.trans right.base, left.size.symm.trans right.size,
      left.regionType.symm.trans right.regionType⟩
  · rintro ⟨there, entries, alike⟩
    rw [entries, if_neg (by omega)]
    obtain ⟨regions, parsed⟩ := @parseEntries_total memory info.cmdlinePaddr info.memmapEntries 0
      fun index _ bound => by
        rw [(alike index (by omega)).addr]
        exact inside index (by omega)
    obtain ⟨long, taken⟩ := parseEntries_some parsed
    refine ⟨regions, parsed, long, fun index region listed => ?_⟩
    have bound := (List.getElem?_eq_some_iff.mp listed).1
    have same := alike index (by omega)
    have left := taken index region listed
    rw [Nat.zero_add] at left
    exact ⟨left.base.trans same.addr, left.size.trans same.size, left.regionType.trans same.memType⟩

def startMemory : Lib.Memory :=
  let header := leBytes 4 0x336EC578 ++ leBytes 4 1 ++ zeros 24 ++ leBytes 8 0xF5B40 ++ leBytes 8 0x2000 ++
    leBytes 8 1
  let entry := leBytes 8 0x100000 ++ leBytes 8 0x7F00000 ++ leBytes 8 1
  (Memory.write (fun _ => 0) 0x1000 header).write 0x2000 entry

theorem decodes_map_start : DecodesMap startMemory (.readAt startMemory 0x1000)
      (parseHvmStartInfo startMemory 0x1000) ↔ MapInCmdline startMemory (.readAt startMemory 0x1000) :=
  decodes_map_iff startMemory (by decide) (by decide) (by decide +kernel)

/-- The map has a region of RAM, and the parser returns none. -/
theorem map_not_found : (StartInfo.readAt startMemory 0x1000).version = 1 ∧
    (StartInfo.readAt startMemory 0x1000).memmapPaddr = 0x2000 ∧
    (StartInfo.readAt startMemory 0x1000).memmapEntries = 1 ∧
    (memmapEntry startMemory 0x2000 0).addr = 0x100000 ∧
    parseHvmStartInfo startMemory 0x1000 = some [] ∧
    ¬DecodesMap startMemory (.readAt startMemory 0x1000) (parseHvmStartInfo startMemory 0x1000) := by
  have entries : (StartInfo.readAt startMemory 0x1000).memmapEntries = 1 := by decide
  have empty : parseHvmStartInfo startMemory 0x1000 = some [] := by
    rw [parseHvmStartInfo_eq startMemory (by decide)]
    exact if_pos (.inl (by decide))
  refine ⟨by decide, by decide, entries, by decide +kernel, empty, ?_⟩
  rw [empty]
  rintro ⟨regions, same, long, -⟩
  obtain rfl := Option.some.inj same
  rw [entries] at long
  cases long

end ArcadiaOs.Memory
