import ArcadiaOs.Vmm.Agreement
import ArcadiaOs.Vmm.MapperAnswers

/-!
Requests to remap that fail.  `remap_page` takes the old page out before it looks at the new
address: an address that is not aligned loses the mapping, and nothing else does.
-/

namespace ArcadiaOs.Vmm

open Lib Memory Process

/-- What a failed request should leave: every translation, the regions and the two totals. -/
structure SameMappings (mapper : Mapper) (before after : VirtualMemoryManager) : Prop where
  translations : ∀ virt : VirtAddr, mapper.translateAddr after.pageTable virt.asU64 =
    mapper.translateAddr before.pageTable virt.asU64
  regions : after.mappedRegions = before.mappedRegions
  pages : after.stats.totalMappedPages = before.stats.totalMappedPages
  bytes : after.stats.totalMappedBytes = before.stats.totalMappedBytes

section Remap

variable {mapper : Mapper} {system : System} {virt : VirtAddr}

theorem SameMappings.refl (vmm : VirtualMemoryManager) : SameMappings mapper vmm vmm :=
  ⟨fun _ => rfl, rfl, rfl, rfl⟩

theorem unmapPage_ok_iff (removes : mapper.Removes) :
    (∃ phys system', unmapPage mapper virt system = .ok phys system') ↔
      virt.asU64 % 4096 = 0 ∧ system.vmm.pageTable.removable virt.asU64 = true := by
  constructor
  · rintro ⟨phys, system', done⟩
    obtain ⟨aligned, table', answered, _⟩ := unmapPage_ok done
    exact ⟨aligned, (removes.removes _ _ aligned).mp ⟨phys, by rw [answered]⟩⟩
  · rintro ⟨aligned, removable⟩
    obtain ⟨phys, answered⟩ := (removes.removes _ _ aligned).mpr removable
    rw [unmapPage_aligned aligned]
    split
    · exact ⟨_, _, rfl⟩
    · rename_i refused
      rw [refused] at answered
      cases answered

section Free

variable {tables : PageTable 4 → Prop} {slot : PageTable 4 → Nat → Slot}
  (mapsBy : mapper.MapsBy tables slot)
include mapsBy

theorem unmapPage_free {phys : Nat} {system' : System}
    (done : unmapPage mapper virt system = .ok phys system') :
    slot system'.vmm.pageTable virt.asU64 = .free 0 := by
  obtain ⟨aligned, table', answered, rfl⟩ := unmapPage_ok done
  exact mapsBy.leaves _ _ _ _ aligned answered

theorem mapPage_of_free (aligned : virt.asU64 % 4096 = 0) {phys : PhysAddr}
    (physAligned : phys.asU64 % 4096 = 0) (flags : PageTableFlags)
    (free : slot system.vmm.pageTable virt.asU64 = .free 0) (reason : VmmError) (system' : System) :
    mapPage mapper virt phys flags system ≠ .error (.error reason) system' := by
  have answer := mapsBy.refills system.vmm.pageTable system.kernel.pmm virt.asU64 phys.asU64 flags
    aligned physAligned phys.inBounds free
  rw [mapPage_aligned aligned physAligned]
  split
  · simp
  · rename_i refused
    rw [refused, fillAnswer] at answer
    split at answer
    · cases answer
      simp [MapToStop.stop]
    · cases answer

end Free

variable {tables : PageTable 4 → Prop} (finds : mapper.Finds tables)
include finds

theorem Mapper.Finds.translate_congr {table table' : PageTable 4} {virt : Nat}
    (same : table'.found virt = table.found virt) :
    mapper.translateAddr table' virt = mapper.translateAddr table virt := by
  rw [finds.translates, finds.translates, PageTable.translateAddr, same, PageTable.translateAddr]

theorem unmapPage_fails {system' : System} {stop : VmmStop}
    (failed : unmapPage mapper virt system = .error stop system') :
    SameMappings mapper system.vmm system'.vmm := by
  by_cases aligned : virt.asU64 % 4096 = 0
  · rw [unmapPage_aligned aligned] at failed
    split at failed
    · cases failed
    · rename_i reason table' refused
      cases failed
      refine ⟨fun place => ?_, rfl, rfl, rfl⟩
      exact finds.translate_congr (finds.keeps _ _ _ _ refused place.asU64)
  · rw [unmapPage_refused aligned] at failed
    cases failed
    exact .refl _

theorem unmapPage_untranslated {phys : Nat} {system' : System}
    (done : unmapPage mapper virt system = .ok phys system') :
    mapper.translateAddr system.vmm.pageTable virt.asU64 ≠ none ∧
      mapper.translateAddr system'.vmm.pageTable virt.asU64 = none := by
  obtain ⟨_, table', answered, rfl⟩ := unmapPage_ok done
  obtain ⟨held, leaves⟩ := finds.unmaps _ _ _ _ answered
  have gone : table'.found virt.asU64 = none := (leaves virt.asU64).trans (if_pos rfl)
  constructor
  · rw [finds.translates, PageTable.translateAddr, held]
    exact Option.some_ne_none _
  · rw [finds.translates, PageTable.translateAddr]
    exact congrArg (Option.map _) gone

end Remap

/-- A failed remapping keeps the old mapping exactly when the new address is aligned, or no page is
there to be taken out. -/
theorem remap_keeps_iff {mapper : Mapper} {tables : PageTable 4 → Prop}
    (finds : mapper.Finds tables) {slot : PageTable 4 → Nat → Slot}
    (mapsBy : mapper.MapsBy tables slot) (removes : mapper.Removes) (system : System) (virt : VirtAddr) (newPhys : PhysAddr) (flags : PageTableFlags) :
    (∀ reason system', remapPage mapper virt newPhys flags system = .error (.error reason) system' →
        SameMappings mapper system.vmm system'.vmm) ↔
      newPhys.asU64 % 4096 = 0 ∨ virt.asU64 % 4096 ≠ 0 ∨
        system.vmm.pageTable.removable virt.asU64 = false := by
  simp only [remapPage, bind_apply]
  cases first : unmapPage mapper virt system with
  | error stop failed =>
      have kept := unmapPage_fails finds first
      have refused : ¬(virt.asU64 % 4096 = 0 ∧
          system.vmm.pageTable.removable virt.asU64 = true) := by
        rw [← unmapPage_ok_iff removes, first]
        exact nofun
      refine iff_of_true ?_ ?_
      · intro reason system' done
        cases done
        exact kept
      · rw [not_and, Bool.not_eq_true] at refused
        exact .inr (Classical.or_iff_not_imp_left.mpr fun aligned => refused (not_not.mp aligned))
  | ok oldPhys middle =>
      obtain ⟨aligned, removable⟩ := (unmapPage_ok_iff removes).mp ⟨oldPhys, middle, first⟩
      obtain ⟨held, lost⟩ := unmapPage_untranslated finds first
      by_cases newAligned : newPhys.asU64 % 4096 = 0
      · have free := unmapPage_free mapsBy first
        refine iff_of_true ?_ (.inl newAligned)
        intro reason system' done
        cases second : mapPage mapper virt newPhys flags middle with
        | ok value last =>
            simp only [second] at done
            cases done
        | error stop last =>
            simp only [second] at done
            cases done
            exact absurd second (mapPage_of_free mapsBy aligned newAligned flags free reason _)
      · refine iff_of_false ?_ ?_
        · intro keeps
          have refused := @mapPage_refused mapper middle virt newPhys flags (.inr newAligned)
          have same := keeps .invalidAddress middle (by simp only [refused])
          exact held ((same.translations virt).symm.trans lost)
        · rintro (now | unaligned | refused)
          · exact newAligned now
          · exact unaligned aligned
          · rw [removable] at refused
            cases refused

theorem remap_keeps_unmapped : ∃ reason system',
    remapPage treeMapper ⟨0x40000000, by decide⟩ ⟨0x600001, by decide⟩ presentFlags bootSystem =
        .error (.error reason) system' ∧
      SameMappings treeMapper bootSystem.vmm system'.vmm := by
  have fixed : bootSystem.vmm.pageTable.removable 0x40000000 = false := by decide
  have keeps := (remap_keeps_iff treeMapper_finds treeMapper_mapsBy treeMapper_removes bootSystem
    ⟨0x40000000, by decide⟩ ⟨0x600001, by decide⟩ presentFlags).mpr (.inr (.inr fixed))
  have answer := treeMapper_removes.removes bootSystem.vmm.pageTable 0x40000000 (by decide)
  have first := @unmapPage_aligned treeMapper bootSystem ⟨0x40000000, by decide⟩ (by decide)
  rcases done : treeMapper.unmap bootSystem.vmm.pageTable 0x40000000 with ⟨reason | phys, table'⟩
  · have ran : remapPage treeMapper ⟨0x40000000, by decide⟩ ⟨0x600001, by decide⟩ presentFlags
        bootSystem = .error (.error reason.reported)
          (bootSystem.withVmm { bootSystem.vmm with pageTable := table' }) := by
      simp only [remapPage, bind_apply, first, done]
    exact ⟨reason.reported, _, ran, keeps _ _ ran⟩
  · rw [done, fixed] at answer
    exact absurd (answer.mp ⟨phys, rfl⟩) Bool.false_ne_true

def mappedSystem : System :=
  stateOf (mapPage treeMapper ⟨0x40000000, by decide⟩ ⟨0x600000, by decide⟩ presentFlags bootSystem)

/-- Remapped to an address that is not aligned, the page is refused and gone. -/
theorem unaligned_remap_loses : ∃ system',
    remapPage treeMapper ⟨0x40000000, by decide⟩ ⟨0x600001, by decide⟩ presentFlags mappedSystem =
        .error (.error .invalidAddress) system' ∧
      treeMapper.translateAddr mappedSystem.vmm.pageTable 0x40000000 = some 0x600000 ∧
      treeMapper.translateAddr system'.vmm.pageTable 0x40000000 = none := by
  have there : mappedSystem.vmm.pageTable.removable 0x40000000 = true := by decide
  have before : treeMapper.translateAddr mappedSystem.vmm.pageTable 0x40000000 = some 0x600000 := by
    decide
  obtain ⟨phys, middle, first⟩ :=
    (@unmapPage_ok_iff treeMapper mappedSystem ⟨0x40000000, by decide⟩ treeMapper_removes).mpr
      ⟨by decide, there⟩
  refine ⟨middle, ?_, before, ?_⟩
  · have refused := @mapPage_refused treeMapper middle ⟨0x40000000, by decide⟩
      ⟨0x600001, by decide⟩ presentFlags (.inr (by decide))
    simp only [remapPage, bind_apply, first, refused]
  · exact (unmapPage_untranslated treeMapper_finds first).2

end ArcadiaOs.Vmm
