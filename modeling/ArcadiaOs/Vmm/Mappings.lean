import ArcadiaOs.Vmm.RegionUnmapping

/-!
Pages mapped one after the other.  Whether the next page can be mapped is decided before the
first: by its own entry, the entries above it, and the frames that are left when the tables
of the pages before it are open.  A loop that stops keeps what it has mapped.
-/

namespace ArcadiaOs.Vmm

open Lib Memory Process PhysicalFrameAllocator

section Slots

variable (slot : Nat → Slot)

/-- What `map_to` meets on a walk once pages have been mapped to frames, the last of them first. -/
def slotAfter : List (Nat × Nat) → Nat → Slot
  | [], virt => slot virt
  | mapping :: earlier, virt => (slotAfter earlier virt).cap (tablesApart 3 virt mapping.1)

def tablesTaken : List (Nat × Nat) → Nat
  | [] => 0
  | mapping :: earlier => tablesTaken earlier + (slotAfter slot earlier mapping.1).missing

/-- The answer of `map_to` after these mappings, as the state in front of them decides it. -/
def answerAfter (pmm : PhysicalFrameAllocator) (flags : PageTableFlags) (earlier : List (Nat × Nat))
    (virt : Nat) : Except MapToStop Unit :=
  (slotAfter slot earlier virt).answer flags (allocations (tablesTaken slot earlier) pmm)

end Slots

/-- What mappings have done to the translations and to the regions. -/
structure Placed (flags : PageTableFlags) (pages : List (Nat × Nat)) (before after : System) : Prop where
  leaves : ∀ mapping ∈ pages, ∀ virt, SamePage 4 virt mapping.1 →
    after.vmm.pageTable.found virt =
      if mapping.2 + flags.bits ≠ 0 then some ⟨mapping.2, 4096⟩ else none
  kept : ∀ virt, (∀ mapping ∈ pages, ¬SamePage 4 virt mapping.1) →
    after.vmm.pageTable.found virt = before.vmm.pageTable.found virt
  regions : ∃ regions, after.vmm.mappedRegions = before.vmm.mappedRegions ++ regions ∧
    regions.length = pages.length

/-- What mappings that succeeded have done to the walks and to the allocator. -/
structure Opened (tables : PageTable 4 → Prop) (slot : PageTable 4 → Nat → Slot)
    (pages : List (Nat × Nat)) (before after : System) : Prop where
  inside : tables after.vmm.pageTable
  slots : ∀ virt, (∀ mapping ∈ pages, ¬SamePage 4 virt mapping.1) →
    slot after.vmm.pageTable virt = slotAfter (slot before.vmm.pageTable) pages virt
  pmm : after.kernel.pmm =
    allocations (tablesTaken (slot before.vmm.pageTable) pages) before.kernel.pmm

theorem Placed.nil (flags : PageTableFlags) (system : System) : Placed flags [] system system :=
  ⟨fun _ member => absurd member List.not_mem_nil, fun _ _ => rfl, [], by simp, rfl⟩

theorem Opened.nil {tables : PageTable 4 → Prop} (slot : PageTable 4 → Nat → Slot) {system : System}
    (inside : tables system.vmm.pageTable) : Opened tables slot [] system system :=
  ⟨inside, fun _ _ => rfl, rfl⟩

section Step

variable {mapper : Mapper} {tables : PageTable 4 → Prop} (finds : mapper.Finds tables)
  {slot : PageTable 4 → Nat → Slot} (mapsBy : mapper.MapsBy tables slot) {flags : PageTableFlags}
  {pages : List (Nat × Nat)} {before system : System} {virt : VirtAddr} {phys : PhysAddr}
  {table' : PageTable 4} {pmm' : PhysicalFrameAllocator} (aligned : virt.asU64 % 4096 = 0)
  (physAligned : phys.asU64 % 4096 = 0)

section Mapped

variable (done : mapper.mapTo system.vmm.pageTable system.kernel.pmm virt.asU64 phys.asU64 flags =
  (.ok (), table', pmm'))
include aligned physAligned done

include finds in
theorem Placed.push (placed : Placed flags pages before system) (inside : tables system.vmm.pageTable)
    (fresh : ∀ mapping ∈ pages, ¬SamePage 4 virt.asU64 mapping.1) (description : String) :
    Placed flags ((virt.asU64, phys.asU64) :: pages) before
      ((system.took table' pmm').withVmm ((system.took table' pmm').vmm.record
        (pageRegion virt.asU64 phys.asU64 flags description))) := by
  have leaves := finds.maps_page inside aligned physAligned phys.inBounds done
  constructor
  case leaves =>
    intro mapping member place here
    rcases List.mem_cons.mp member with rfl | earlier
    · exact (leaves place).trans (if_pos here)
    · have apart : ¬SamePage 4 place virt.asU64 := fun same =>
        fresh mapping earlier (Eq.trans (Eq.symm same) here)
      exact (leaves place).trans ((if_neg apart).trans (placed.leaves mapping earlier place here))
  case kept =>
    intro place apart
    rw [List.forall_mem_cons] at apart
    exact (leaves place).trans ((if_neg apart.1).trans (placed.kept place apart.2))
  case regions =>
    obtain ⟨regions, listed, count⟩ := placed.regions
    refine ⟨regions ++ [pageRegion virt.asU64 phys.asU64 flags description], ?_, ?_⟩
    · rw [← List.append_assoc, ← listed]
      rfl
    · rw [List.length_append, count]
      rfl

include finds mapsBy in
theorem Opened.push (opened : Opened tables slot pages before system)
    (fresh : ∀ mapping ∈ pages, ¬SamePage 4 virt.asU64 mapping.1) (description : String) :
    Opened tables slot ((virt.asU64, phys.asU64) :: pages) before
      ((system.took table' pmm').withVmm ((system.took table' pmm').vmm.record
        (pageRegion virt.asU64 phys.asU64 flags description))) := by
  constructor
  case inside => exact finds.mapTo_inside opened.inside trivial aligned physAligned phys.inBounds done
  case slots =>
    intro place apart
    rw [List.forall_mem_cons] at apart
    have capped :=
      mapsBy.opens _ _ _ _ _ _ _ opened.inside aligned physAligned phys.inBounds done place apart.1
    rw [opened.slots place apart.2] at capped
    exact capped
  case pmm =>
    have took := mapsBy.takes _ _ _ _ _ _ _ opened.inside aligned physAligned phys.inBounds done
    rw [opened.slots _ fresh, opened.pmm, ← allocations_add] at took
    exact took

end Mapped

include finds aligned physAligned in
theorem Placed.refused {reason : MapToStop} (placed : Placed flags pages before system)
    (inside : tables system.vmm.pageTable)
    (done : mapper.mapTo system.vmm.pageTable system.kernel.pmm virt.asU64 phys.asU64 flags =
      (.error reason, table', pmm')) : Placed flags pages before (system.took table' pmm') := by
  have leaves := finds.refuses _ _ _ _ _ _ _ _ inside trivial aligned physAligned phys.inBounds done
  constructor
  case leaves =>
    intro mapping member place here
    exact (leaves place).trans (placed.leaves mapping member place here)
  case kept =>
    intro place apart
    exact (leaves place).trans (placed.kept place apart)
  case regions => exact placed.regions

include mapsBy aligned physAligned in
theorem Opened.answer (opened : Opened tables slot pages before system)
    (fresh : ∀ mapping ∈ pages, ¬SamePage 4 virt.asU64 mapping.1) :
    (mapper.mapTo system.vmm.pageTable system.kernel.pmm virt.asU64 phys.asU64 flags).1 =
      answerAfter (slot before.vmm.pageTable) before.kernel.pmm flags pages virt.asU64 := by
  rw [mapsBy.answers _ _ _ _ _ opened.inside aligned physAligned phys.inBounds, opened.slots _ fresh,
    opened.pmm, answerAfter]

include finds mapsBy aligned physAligned in
theorem Opened.rejected (opened : Opened tables slot pages before system)
    (done : mapper.mapTo system.vmm.pageTable system.kernel.pmm virt.asU64 phys.asU64 flags =
      (.error (.error .pageAlreadyMapped), table', pmm')) :
    Opened tables slot pages before (system.took table' pmm') := by
  obtain ⟨same, slots⟩ :=
    mapsBy.rejects _ _ _ _ _ _ _ opened.inside aligned physAligned phys.inBounds done
  constructor
  case inside => exact finds.mapTo_inside opened.inside trivial aligned physAligned phys.inBounds done
  case slots =>
    intro place apart
    exact (slots place).trans (opened.slots place apart)
  case pmm => exact same.trans opened.pmm

include finds mapsBy aligned physAligned in
/-- `map_page` after other pages: it answers what was decided in front of them. -/
theorem mapPage_after (placed : Placed flags pages before system)
    (opened : Opened tables slot pages before system)
    (fresh : ∀ mapping ∈ pages, ¬SamePage 4 virt.asU64 mapping.1) :
    (answerAfter (slot before.vmm.pageTable) before.kernel.pmm flags pages virt.asU64 = .ok () ∧
      ∃ last, mapPage mapper virt phys flags system = .ok () last ∧
        Placed flags ((virt.asU64, phys.asU64) :: pages) before last ∧
        Opened tables slot ((virt.asU64, phys.asU64) :: pages) before last) ∨
    ∃ reason last,
      answerAfter (slot before.vmm.pageTable) before.kernel.pmm flags pages virt.asU64 =
        .error reason ∧
      mapPage mapper virt phys flags system = .error reason.stop last ∧
      Placed flags pages before last := by
  rw [← opened.answer mapsBy aligned physAligned fresh, mapPage_aligned aligned physAligned]
  rcases done : mapper.mapTo system.vmm.pageTable system.kernel.pmm virt.asU64 phys.asU64 flags with
    ⟨answer, table', pmm'⟩
  cases answer with
  | ok value =>
      refine .inl ⟨rfl, _, rfl, ?_, ?_⟩
      · exact placed.push finds aligned physAligned done opened.inside fresh "user mapped"
      · exact opened.push finds mapsBy aligned physAligned done fresh "user mapped"
  | error reason =>
      exact .inr ⟨reason, _, rfl, rfl, placed.refused finds aligned physAligned opened.inside done⟩

end Step

end ArcadiaOs.Vmm
