import ArcadiaOs.Process.LaunchFailure
import ArcadiaOs.Vmm.PageTable

/-!
The virtual memory manager of `memory/vmm.rs` on the kernel's page tables and the frame
allocator.  The page table mapper of the `x86_64` crate is a parameter.  The release build
is modelled, where sums wrap.
-/

namespace ArcadiaOs.Vmm

open Lib Memory Process

def vmmPageSize : Nat := 4096

/-- `VirtAddr::new` panics on an address that is not canonical. -/
structure VirtAddr where
  asU64 : Nat
  isCanonical : canonical asU64 = true
  deriving DecidableEq

def VirtAddr.new? (value : Nat) : Option VirtAddr :=
  if isCanonical : canonical value = true then some ⟨value, isCanonical⟩ else none

structure PageTableFlags where
  bits : Nat
  noAddress : bits / 4096 % 2 ^ 40 = 0
  inBounds : bits < 2 ^ 64
  deriving DecidableEq

def PageTableFlags.present (flags : PageTableFlags) : Bool := flags.bits.testBit 0

def PageTableFlags.hugePage (flags : PageTableFlags) : Bool := flags.bits.testBit 7

/-- `PageTableEntry::flags`. -/
def flagsOf (entry : PageTableEntry) : PageTableFlags where
  bits := entry.bits % 4096 + entry.bits / 2 ^ 52 % 4096 * 2 ^ 52
  noAddress := by omega
  inBounds := by omega

inductive VmmError
  | notInitialized | alreadyMapped | notMapped | outOfMemory | invalidAddress
  | mapFailed | unmapFailed | parentEntryHugePage
  deriving DecidableEq

inductive UnmapError
  | parentEntryHugePage | pageNotMapped | invalidFrameAddress
  deriving DecidableEq

/-- Why `map_to` maps nothing: one of its errors, or its panic where an entry of an upper table
would be used without PRESENT, or one of a page table with HUGE_PAGE. -/
inductive MapToStop
  | error (reason : MapToError)
  | panic
  deriving DecidableEq

/-- Why a call does not return a value. -/
inductive VmmStop
  | error (reason : VmmError)
  | panic
  deriving DecidableEq

structure VmmStatistics where
  totalMappedPages : Nat
  totalMappedBytes : Nat
  mapCount : Nat
  unmapCount : Nat
  remapCount : Nat
  tlbFlushCount : Nat
  pageTableFrames : Nat

def VmmStatistics.new : VmmStatistics where
  totalMappedPages := 0
  totalMappedBytes := 0
  mapCount := 0
  unmapCount := 0
  remapCount := 0
  tlbFlushCount := 0
  pageTableFrames := 0

structure MappedRegion where
  virtualAddr : Nat
  physicalAddr : Nat
  size : Nat
  flags : PageTableFlags
  description : String

/-- The test of `get_mapping` and of `unmap_page`; the sum wraps. -/
def MappedRegion.contains (region : MappedRegion) (virt : Nat) : Bool :=
  region.virtualAddr ≤ virt && virt < wrap64 (region.virtualAddr + region.size)

structure VirtualMemoryManager where
  pageTable : PageTable 4
  mappedRegions : List MappedRegion
  stats : VmmStatistics
  validationEnabled : Bool

namespace PageTable

def bootDescription : Nat → String
  | 0 => "boot 4 KiB page"
  | 1 => "boot 2 MiB page"
  | _ => "boot 1 GiB page"

def discoveredRegion (level virt : Nat) (entry : PageTableEntry) : MappedRegion where
  virtualAddr := virt
  physicalAddr := entry.addr
  size := pageSize level
  flags := flagsOf entry
  description := bootDescription level

/-- The loops of `discover_existing_mappings` over a table that starts at a virtual address. -/
def discover : {level : Nat} → PageTable level → Nat → List MappedRegion
  | 0, .frame, _ => []
  | level + 1, .table entry next, base =>
      (List.range 512).flatMap fun index =>
        if !(entry index).present then []
        else if mapsPage level (entry index) then
          [discoveredRegion level (base + index * pageSize level) (entry index)]
        else (next index).discover (base + index * pageSize level)

/-- The loops of `count_mapped_pages`: a page above a table of the level stands for `512 ^ level`
pages of 4 KiB. -/
def countMappedPages : {level : Nat} → PageTable level → Nat
  | 0, .frame => 0
  | level + 1, .table entry next =>
      ((List.range 512).map fun index =>
        if !(entry index).present then 0
        else if mapsPage level (entry index) then 512 ^ level
        else (next index).countMappedPages).sum

end PageTable

namespace VirtualMemoryManager

/-- The manager after `discover_existing_mappings`. -/
def discovered (pageTable : PageTable 4) : VirtualMemoryManager :=
  let regions := pageTable.discover 0
  let pages := (regions.map fun region => region.size / vmmPageSize).sum
  { pageTable
    mappedRegions := regions
    stats := { VmmStatistics.new with totalMappedPages := pages, totalMappedBytes := pages * vmmPageSize }
    validationEnabled := true }

/-- `none` when `VirtAddr::new` panics on a mapping above the lower half. -/
def init (pageTable : PageTable 4) : Option VirtualMemoryManager :=
  if (pageTable.discover 0).all fun region => canonical region.virtualAddr then
    some (discovered pageTable)
  else none

def validate (vmm : VirtualMemoryManager) : Bool :=
  vmm.pageTable.countMappedPages == vmm.stats.totalMappedPages

def getMapping (vmm : VirtualMemoryManager) (virt : Nat) : Option MappedRegion :=
  vmm.mappedRegions.find? fun region => region.contains virt

def record (vmm : VirtualMemoryManager) (region : MappedRegion) : VirtualMemoryManager :=
  { vmm with
    mappedRegions := vmm.mappedRegions ++ [region]
    stats := { vmm.stats with
      totalMappedPages := wrap64 (vmm.stats.totalMappedPages + 1)
      totalMappedBytes := wrap64 (vmm.stats.totalMappedBytes + vmmPageSize)
      mapCount := wrap64 (vmm.stats.mapCount + 1)
      tlbFlushCount := wrap64 (vmm.stats.tlbFlushCount + 1) } }

/-- What a successful unmapping forgets; the subtractions saturate. -/
def forget (vmm : VirtualMemoryManager) (virt : Nat) : VirtualMemoryManager :=
  { vmm with
    mappedRegions := vmm.mappedRegions.filter fun region => !region.contains virt
    stats := { vmm.stats with
      totalMappedPages := vmm.stats.totalMappedPages - 1
      totalMappedBytes := vmm.stats.totalMappedBytes - vmmPageSize
      unmapCount := wrap64 (vmm.stats.unmapCount + 1)
      tlbFlushCount := wrap64 (vmm.stats.tlbFlushCount + 1) } }

def countRemap (vmm : VirtualMemoryManager) : VirtualMemoryManager :=
  { vmm with stats := { vmm.stats with remapCount := wrap64 (vmm.stats.remapCount + 1) } }

end VirtualMemoryManager

/-- `map_to`, `unmap` and `translate_addr` of `OffsetPageTable` at offset 0; `map_to` takes frames
from the kernel's allocator. -/
structure Mapper where
  mapTo : PageTable 4 → PhysicalFrameAllocator → Nat → Nat → PageTableFlags →
    Except MapToStop Unit × PageTable 4 × PhysicalFrameAllocator
  unmap : PageTable 4 → Nat → Except UnmapError Nat × PageTable 4
  translateAddr : PageTable 4 → Nat → Option Nat

/-- A frame that is written at its physical address, with the kernel's tables and the regions of
the manager at that moment. -/
structure IdentityWrite where
  address : Nat
  pageTable : PageTable 4
  mappedRegions : List MappedRegion

/-- The kernel with its memory manager.  The list of writes is no part of the source. -/
structure System where
  kernel : Kernel
  vmm : VirtualMemoryManager
  identityWrites : List IdentityWrite

def handedOut (before after : PhysicalFrameAllocator) : List Nat :=
  (List.range before.totalFrames).filter fun frame =>
    !before.isFrameReserved frame && after.isFrameReserved frame

/-- The frames handed out up to a later state of the allocator, written as they are handed out. -/
def System.newWrites (system : System) (pmm : PhysicalFrameAllocator) : List IdentityWrite :=
  (handedOut system.kernel.pmm pmm).map fun frame =>
    { address := frame * frameSize
      pageTable := system.vmm.pageTable
      mappedRegions := system.vmm.mappedRegions }

/-- A call on the memory manager, which keeps what it has done when it stops. -/
abbrev VmmCall (α : Type) := EStateM VmmStop System α

def modifyVmm (change : VirtualMemoryManager → VirtualMemoryManager) : VmmCall Unit :=
  modify fun system => { system with vmm := change system.vmm }

section Mapper

variable (mapper : Mapper)

/-- A call of `map_to` with `PmmFrameAllocator`: the frames it takes become page tables. -/
def mapTo (page frame : Nat) (flags : PageTableFlags) : VmmCall (Except MapToStop Unit) :=
  fun system =>
    match mapper.mapTo system.vmm.pageTable system.kernel.pmm page frame flags with
    | (answer, pageTable, pmm) =>
        .ok answer
          { kernel := { system.kernel with pmm }
            vmm := { system.vmm with pageTable }
            identityWrites := system.identityWrites ++ system.newWrites pmm }

def unmap (page : Nat) : VmmCall (Except UnmapError Nat) := fun system =>
  match mapper.unmap system.vmm.pageTable page with
  | (answer, pageTable) => .ok answer { system with vmm := { system.vmm with pageTable } }

def mapPage (virt : VirtAddr) (phys : PhysAddr) (flags : PageTableFlags) : VmmCall Unit := do
  if virt.asU64 % vmmPageSize ≠ 0 ∨ phys.asU64 % vmmPageSize ≠ 0 then
    throw (.error .invalidAddress)
  else
    match ← mapTo mapper virt.asU64 phys.asU64 flags with
    | .error .panic => throw .panic
    | .error (.error .frameAllocationFailed) => throw (.error .outOfMemory)
    | .error (.error .parentEntryHugePage) => throw (.error .parentEntryHugePage)
    | .error (.error .pageAlreadyMapped) => throw (.error .alreadyMapped)
    | .ok () =>
        modifyVmm fun vmm => vmm.record
          { virtualAddr := virt.asU64
            physicalAddr := phys.asU64
            size := vmmPageSize
            flags
            description := "user mapped" }

def unmapPage (virt : VirtAddr) : VmmCall Nat := do
  if virt.asU64 % vmmPageSize ≠ 0 then throw (.error .invalidAddress)
  else
    match ← unmap mapper virt.asU64 with
    | .error .pageNotMapped => throw (.error .notMapped)
    | .error .parentEntryHugePage => throw (.error .parentEntryHugePage)
    | .error .invalidFrameAddress => throw (.error .unmapFailed)
    | .ok phys => do
        modifyVmm fun vmm => vmm.forget virt.asU64
        pure phys

def remapPage (virt : VirtAddr) (newPhys : PhysAddr) (flags : PageTableFlags) : VmmCall Nat := do
  let oldPhys ← unmapPage mapper virt
  mapPage mapper virt newPhys flags
  modifyVmm VirtualMemoryManager.countRemap
  pure oldPhys

/-- The turns of the loop of `map_region` from page `index` on. -/
def mapRegionFrom (virt phys : Nat) (flags : PageTableFlags) : Nat → Nat → VmmCall Unit
  | 0, _ => pure ()
  | count + 1, index =>
      match VirtAddr.new? (wrap64 (virt + wrap64 (index * vmmPageSize))),
        PhysAddr.new? (wrap64 (phys + wrap64 (index * vmmPageSize))) with
      | some pageVirt, some pagePhys => do
          mapPage mapper pageVirt pagePhys flags
          mapRegionFrom virt phys flags count (index + 1)
      | _, _ => throw .panic

def mapRegion (virt : VirtAddr) (phys : PhysAddr) (count : Nat) (flags : PageTableFlags) :
    VmmCall Unit := do
  if virt.asU64 % vmmPageSize ≠ 0 ∨ phys.asU64 % vmmPageSize ≠ 0 then
    throw (.error .invalidAddress)
  else mapRegionFrom mapper virt.asU64 phys.asU64 flags count 0

/-- The answer of `unmap_page` is dropped. -/
def unmapPageIgnored (virt : VirtAddr) : VmmCall Unit := fun system =>
  .ok () (stateOf (unmapPage mapper virt system))

def unmapRegionFrom (virt : Nat) : Nat → Nat → VmmCall Unit
  | 0, _ => pure ()
  | count + 1, index =>
      match VirtAddr.new? (wrap64 (virt + wrap64 (index * vmmPageSize))) with
      | some pageVirt => do
          unmapPageIgnored mapper pageVirt
          unmapRegionFrom virt count (index + 1)
      | none => throw .panic

def unmapRegion (virt : VirtAddr) (count : Nat) : VmmCall Unit := do
  if virt.asU64 % vmmPageSize ≠ 0 then throw (.error .invalidAddress)
  else unmapRegionFrom mapper virt.asU64 count 0

/-- One turn of the loop of `identity_map`; mapped pages are skipped. -/
def identityMapPage (virt : VirtAddr) (framePhys : PhysAddr) (flags : PageTableFlags) :
    VmmCall Unit := do
  if (mapper.translateAddr (← get).vmm.pageTable virt.asU64).isSome then pure ()
  else
    match ← mapTo mapper virt.asU64 framePhys.asU64 flags with
    | .ok () =>
        modifyVmm fun vmm => vmm.record
          { virtualAddr := virt.asU64
            physicalAddr := framePhys.asU64
            size := vmmPageSize
            flags
            description := "identity map" }
    | .error .panic => throw .panic
    | .error (.error .pageAlreadyMapped) => pure ()
    | .error (.error .frameAllocationFailed) => throw (.error .outOfMemory)
    | .error (.error .parentEntryHugePage) => throw (.error .parentEntryHugePage)

def identityMapFrom (phys : Nat) (flags : PageTableFlags) : Nat → Nat → VmmCall Unit
  | 0, _ => pure ()
  | count + 1, index =>
      match PhysAddr.new? (wrap64 (phys + wrap64 (index * vmmPageSize))) with
      | none => throw .panic
      | some framePhys =>
          match VirtAddr.new? framePhys.asU64 with
          | none => throw .panic
          | some virt => do
              identityMapPage mapper virt framePhys flags
              identityMapFrom phys flags count (index + 1)

def identityMap (phys : PhysAddr) (count : Nat) (flags : PageTableFlags) : VmmCall Unit := do
  if phys.asU64 % vmmPageSize ≠ 0 then throw (.error .invalidAddress)
  else identityMapFrom mapper phys.asU64 flags count 0

end Mapper

/-- The operations that change the kernel's page tables. -/
inductive VmmRequest
  | mapPage (virt : VirtAddr) (phys : PhysAddr) (flags : PageTableFlags)
  | unmapPage (virt : VirtAddr)
  | remapPage (virt : VirtAddr) (newPhys : PhysAddr) (flags : PageTableFlags)
  | mapRegion (virt : VirtAddr) (phys : PhysAddr) (count : Nat) (flags : PageTableFlags)
  | unmapRegion (virt : VirtAddr) (count : Nat)
  | identityMap (phys : PhysAddr) (count : Nat) (flags : PageTableFlags)

def VmmRequest.run (mapper : Mapper) : VmmRequest → VmmCall Unit
  | .mapPage virt phys flags => Vmm.mapPage mapper virt phys flags
  | .unmapPage virt => do
      let _ ← Vmm.unmapPage mapper virt
      pure ()
  | .remapPage virt newPhys flags => do
      let _ ← Vmm.remapPage mapper virt newPhys flags
      pure ()
  | .mapRegion virt phys count flags => Vmm.mapRegion mapper virt phys count flags
  | .unmapRegion virt count => Vmm.unmapRegion mapper virt count
  | .identityMap phys count flags => Vmm.identityMap mapper phys count flags

def outcomeOf : EStateM.Result VmmStop System Unit → Option VmmStop
  | .ok _ _ => none
  | .error stop _ => some stop

def vmmMachine (mapper : Mapper) : Machine System VmmRequest (Option VmmStop) where
  step system request :=
    let result := request.run mapper system
    (outcomeOf result, stateOf result)

end ArcadiaOs.Vmm
