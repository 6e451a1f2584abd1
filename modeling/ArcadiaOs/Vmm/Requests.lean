import ArcadiaOs.Vmm.VmmCore

/-!
The rule for the requests to the memory manager.  They work through four elementary
changes, a mapping or an unmapping that succeeds or fails; what these keep, every request
keeps, whatever its outcome.
-/

namespace ArcadiaOs.Vmm

open Lib Memory Process

/-- After a call of the mapper that has left these tables and this allocator behind. -/
def System.took (system : System) (pageTable : PageTable 4) (pmm : PhysicalFrameAllocator) : System :=
  { kernel := { system.kernel with pmm }
    vmm := { system.vmm with pageTable }
    identityWrites := system.identityWrites ++ system.newWrites pmm }

def System.withVmm (system : System) (vmm : VirtualMemoryManager) : System := { system with vmm }

def pageRegion (virt phys : Nat) (flags : PageTableFlags) (description : String) : MappedRegion :=
  { virtualAddr := virt, physicalAddr := phys, size := vmmPageSize, flags, description }

/-- A property of the system that the elementary changes keep, where pages are mapped with flags that
are allowed for them. -/
structure Stable (mapper : Mapper) (allowed : Nat → PageTableFlags → Prop) (inv : System → Prop) :
    Prop where
  mapped : ∀ system (virt : VirtAddr) (phys : PhysAddr) flags description table' pmm', inv system →
    allowed virt.asU64 flags → virt.asU64 % 4096 = 0 → phys.asU64 % 4096 = 0 →
    mapper.mapTo system.vmm.pageTable system.kernel.pmm virt.asU64 phys.asU64 flags =
      (.ok (), table', pmm') →
    inv ((system.took table' pmm').withVmm
      ((system.took table' pmm').vmm.record (pageRegion virt.asU64 phys.asU64 flags description)))
  refused : ∀ system (virt : VirtAddr) (phys : PhysAddr) flags reason table' pmm', inv system →
    allowed virt.asU64 flags → virt.asU64 % 4096 = 0 → phys.asU64 % 4096 = 0 →
    mapper.mapTo system.vmm.pageTable system.kernel.pmm virt.asU64 phys.asU64 flags =
      (.error reason, table', pmm') →
    inv (system.took table' pmm')
  unmapped : ∀ system (virt : VirtAddr) phys table', inv system → virt.asU64 % 4096 = 0 →
    mapper.unmap system.vmm.pageTable virt.asU64 = (.ok phys, table') →
    inv (system.withVmm (({ system.vmm with pageTable := table' } : VirtualMemoryManager).forget virt.asU64))
  kept : ∀ system (virt : VirtAddr) reason table', inv system →
    mapper.unmap system.vmm.pageTable virt.asU64 = (.error reason, table') →
    inv (system.withVmm { system.vmm with pageTable := table' })
  counted : ∀ system, inv system → inv (system.withVmm system.vmm.countRemap)

/-- The page of a region with an index; the sums wrap. -/
def pageAt (start index : Nat) : Nat := wrap64 (start + wrap64 (index * vmmPageSize))

/-- The flags of the request are allowed for each page that it maps. -/
def VmmRequest.Uses (allowed : Nat → PageTableFlags → Prop) : VmmRequest → Prop
  | .mapPage virt _ flags => allowed virt.asU64 flags
  | .remapPage virt _ flags => allowed virt.asU64 flags
  | .mapRegion virt _ count flags => ∀ index < count, allowed (pageAt virt.asU64 index) flags
  | .identityMap phys count flags => ∀ index < count, allowed (pageAt phys.asU64 index) flags
  | .unmapPage _ => True
  | .unmapRegion _ _ => True

theorem VmmRequest.Uses.and {allowed other : Nat → PageTableFlags → Prop} {request : VmmRequest}
    (uses : request.Uses allowed) (usesOther : request.Uses other) :
    request.Uses fun page flags => allowed page flags ∧ other page flags := by
  cases request with
  | mapPage | remapPage => exact ⟨uses, usesOther⟩
  | mapRegion | identityMap => exact fun index bound => ⟨uses index bound, usesOther index bound⟩
  | unmapPage | unmapRegion => trivial

def Keeps (inv : System → Prop) (before after : System) : Prop := inv before → inv after

def MapToStop.stop : MapToStop → VmmStop
  | .panic => .panic
  | .error .frameAllocationFailed => .error .outOfMemory
  | .error .parentEntryHugePage => .error .parentEntryHugePage
  | .error .pageAlreadyMapped => .error .alreadyMapped

def UnmapError.reported : UnmapError → VmmError
  | .pageNotMapped => .notMapped
  | .parentEntryHugePage => .parentEntryHugePage
  | .invalidFrameAddress => .unmapFailed

section Calls

variable {mapper : Mapper} {system : System} {virt : VirtAddr}

theorem mapPage_refused {phys : PhysAddr} {flags : PageTableFlags}
    (unaligned : virt.asU64 % 4096 ≠ 0 ∨ phys.asU64 % 4096 ≠ 0) :
    mapPage mapper virt phys flags system = .error (.error .invalidAddress) system := by
  rw [mapPage, vmmPageSize, if_pos unaligned]
  rfl

theorem mapPage_aligned {phys : PhysAddr} {flags : PageTableFlags} (aligned : virt.asU64 % 4096 = 0)
    (physAligned : phys.asU64 % 4096 = 0) : mapPage mapper virt phys flags system =
      match mapper.mapTo system.vmm.pageTable system.kernel.pmm virt.asU64 phys.asU64 flags with
      | (.ok (), table', pmm') => .ok () ((system.took table' pmm').withVmm
          ((system.took table' pmm').vmm.record (pageRegion virt.asU64 phys.asU64 flags "user mapped")))
      | (.error reason, table', pmm') => .error reason.stop (system.took table' pmm') := by
  rw [mapPage, vmmPageSize, if_neg (by omega), bind_apply, mapTo]
  rcases mapper.mapTo system.vmm.pageTable system.kernel.pmm virt.asU64 phys.asU64 flags with
    ⟨answer, table', pmm'⟩
  cases answer with
  | ok value => rfl
  | error reason =>
      cases reason with
      | panic => rfl
      | error reason => cases reason <;> rfl

theorem unmapPage_refused (unaligned : virt.asU64 % 4096 ≠ 0) :
    unmapPage mapper virt system = .error (.error .invalidAddress) system := by
  rw [unmapPage, vmmPageSize, if_pos unaligned]
  rfl

theorem unmapPage_aligned (aligned : virt.asU64 % 4096 = 0) : unmapPage mapper virt system =
      match mapper.unmap system.vmm.pageTable virt.asU64 with
      | (.ok phys, table') => .ok phys (system.withVmm
          (({ system.vmm with pageTable := table' } : VirtualMemoryManager).forget virt.asU64))
      | (.error reason, table') => .error (.error reason.reported)
          (system.withVmm { system.vmm with pageTable := table' }) := by
  rw [unmapPage, vmmPageSize, if_neg (not_not.mpr aligned), bind_apply, unmap]
  rcases mapper.unmap system.vmm.pageTable virt.asU64 with ⟨answer, table'⟩
  cases answer with
  | ok phys => rfl
  | error reason => cases reason <;> rfl

theorem unmapPage_ok {phys : Nat} {system' : System}
    (done : unmapPage mapper virt system = .ok phys system') : virt.asU64 % 4096 = 0 ∧
      ∃ table', mapper.unmap system.vmm.pageTable virt.asU64 = (.ok phys, table') ∧
        system' = system.withVmm
          (({ system.vmm with pageTable := table' } : VirtualMemoryManager).forget virt.asU64) := by
  by_cases aligned : virt.asU64 % 4096 = 0
  · rw [unmapPage_aligned aligned] at done
    refine ⟨aligned, ?_⟩
    split at done
    · rename_i table' answered
      cases done
      exact ⟨table', answered, rfl⟩
    · cases done
  · rw [unmapPage_refused aligned] at done
    cases done

theorem identityMapPage_skips {phys : PhysAddr} {flags : PageTableFlags}
    (translated : (mapper.translateAddr system.vmm.pageTable virt.asU64).isSome = true) :
    identityMapPage mapper virt phys flags system = .ok () system := by
  rw [identityMapPage, bind_apply]
  simp only [get_apply, translated, if_true]
  rfl

theorem identityMapPage_maps {phys : PhysAddr} {flags : PageTableFlags}
    (untranslated : mapper.translateAddr system.vmm.pageTable virt.asU64 = none) :
    identityMapPage mapper virt phys flags system =
      match mapper.mapTo system.vmm.pageTable system.kernel.pmm virt.asU64 phys.asU64 flags with
      | (.ok (), table', pmm') => .ok () ((system.took table' pmm').withVmm
          ((system.took table' pmm').vmm.record
            (pageRegion virt.asU64 phys.asU64 flags "identity map")))
      | (.error reason, table', pmm') =>
          if reason = .error .pageAlreadyMapped then .ok () (system.took table' pmm')
          else .error reason.stop (system.took table' pmm') := by
  rw [identityMapPage, bind_apply]
  simp only [get_apply, untranslated, Option.isSome_none,
    Bool.false_eq_true, if_false]
  rw [bind_apply, mapTo]
  rcases mapper.mapTo system.vmm.pageTable system.kernel.pmm virt.asU64 phys.asU64 flags with
    ⟨answer, table', pmm'⟩
  cases answer with
  | ok value => rfl
  | error reason =>
      cases reason with
      | panic => rfl
      | error reason => cases reason <;> rfl

end Calls

section Rule

variable {mapper : Mapper} {allowed : Nat → PageTableFlags → Prop} {inv : System → Prop}

theorem Keeps.refl (system : System) : Keeps inv system system := id

theorem Keeps.trans (before middle after : System) (first : Keeps inv before middle)
    (second : Keeps inv middle after) : Keeps inv before after := fun holds => second (first holds)

theorem page_aligned {start : Nat} (index : Nat) (aligned : start % 4096 = 0) :
    pageAt start index % 4096 = 0 := by
  rw [pageAt, wrap64_eq, wrap64_eq, vmmPageSize]
  omega

theorem VirtAddr.of_new? {value : Nat} {virt : VirtAddr} (made : VirtAddr.new? value = some virt) :
    virt.asU64 = value := by
  rw [VirtAddr.new?] at made
  split at made
  · rw [← Option.some.inj made]
  · cases made

theorem physAddr_of_new? {value : Nat} {phys : PhysAddr} (made : PhysAddr.new? value = some phys) :
    phys.asU64 = value := by
  rw [PhysAddr.new?] at made
  split at made
  · rw [← Option.some.inj made]
  · cases made

variable (stable : Stable mapper allowed inv)
include stable

theorem mapPage_keeps (virt : VirtAddr) (phys : PhysAddr) {flags : PageTableFlags}
    (uses : allowed virt.asU64 flags) : Along (Keeps inv) (mapPage mapper virt phys flags) := by
  intro system holds
  by_cases unaligned : virt.asU64 % 4096 ≠ 0 ∨ phys.asU64 % 4096 ≠ 0
  · rw [mapPage_refused unaligned]
    exact holds
  rw [not_or, not_not, not_not] at unaligned
  obtain ⟨aligned, physAligned⟩ := unaligned
  rw [mapPage_aligned aligned physAligned]
  cases done : mapper.mapTo system.vmm.pageTable system.kernel.pmm virt.asU64 phys.asU64 flags with
  | mk answer rest =>
      obtain ⟨table', pmm'⟩ := rest
      cases answer with
      | ok value =>
          exact stable.mapped system virt phys flags "user mapped" table' pmm' holds uses aligned
            physAligned done
      | error reason =>
          exact stable.refused system virt phys flags reason table' pmm' holds uses aligned
            physAligned done

theorem unmapPage_keeps (virt : VirtAddr) : Along (Keeps inv) (unmapPage mapper virt) := by
  intro system holds
  by_cases aligned : virt.asU64 % 4096 = 0
  · rw [unmapPage_aligned aligned]
    cases done : mapper.unmap system.vmm.pageTable virt.asU64 with
    | mk answer table' =>
        cases answer with
        | ok phys => exact stable.unmapped system virt phys table' holds aligned done
        | error reason => exact stable.kept system virt reason table' holds done
  · rw [unmapPage_refused aligned]
    exact holds

theorem remapPage_keeps (virt : VirtAddr) (newPhys : PhysAddr) {flags : PageTableFlags}
    (uses : allowed virt.asU64 flags) : Along (Keeps inv) (remapPage mapper virt newPhys flags) := by
  refine .bind Keeps.trans (unmapPage_keeps stable virt) fun oldPhys => ?_
  refine .bind Keeps.trans (mapPage_keeps stable virt newPhys uses) fun _ => ?_
  refine .bind Keeps.trans (.modify fun system => stable.counted system) fun _ => ?_
  exact .pure Keeps.refl oldPhys

theorem mapRegionFrom_keeps (virt phys : Nat) {flags : PageTableFlags} (count index : Nat)
    (uses : ∀ turn, index ≤ turn → turn < index + count → allowed (pageAt virt turn) flags) :
    Along (Keeps inv) (mapRegionFrom mapper virt phys flags count index) := by
  induction count generalizing index with
  | zero => exact .pure Keeps.refl _
  | succ count ih =>
      rw [mapRegionFrom]
      split
      · rename_i pageVirt pagePhys page frame
        refine .bind Keeps.trans (mapPage_keeps stable _ _ ?_) fun _ => ih _ ?_
        · rw [VirtAddr.of_new? page]
          exact uses index (Nat.le_refl _) (by omega)
        · intro turn above below
          exact uses turn (by omega) (by omega)
      · exact .throw Keeps.refl _

theorem mapRegion_keeps (virt : VirtAddr) (phys : PhysAddr) {count : Nat} {flags : PageTableFlags}
    (uses : ∀ index < count, allowed (pageAt virt.asU64 index) flags) :
    Along (Keeps inv) (mapRegion mapper virt phys count flags) := by
  rw [mapRegion]
  split
  · exact .throw Keeps.refl _
  · refine mapRegionFrom_keeps stable _ _ count 0 fun turn _ below => uses turn ?_
    rwa [Nat.zero_add] at below

theorem unmapRegionFrom_keeps (virt count index : Nat) :
    Along (Keeps inv) (unmapRegionFrom mapper virt count index) := by
  induction count generalizing index with
  | zero => exact .pure Keeps.refl _
  | succ count ih =>
      rw [unmapRegionFrom]
      split
      · refine .bind Keeps.trans ?_ fun _ => ih _
        exact fun system => unmapPage_keeps stable _ system
      · exact .throw Keeps.refl _

theorem unmapRegion_keeps (virt : VirtAddr) (count : Nat) :
    Along (Keeps inv) (unmapRegion mapper virt count) := by
  rw [unmapRegion]
  split
  · exact .throw Keeps.refl _
  · exact unmapRegionFrom_keeps stable _ count 0

theorem identityMapPage_keeps {virt : VirtAddr} {framePhys : PhysAddr} {flags : PageTableFlags}
    (uses : allowed virt.asU64 flags) (virtAligned : virt.asU64 % 4096 = 0)
    (aligned : framePhys.asU64 % 4096 = 0) :
    Along (Keeps inv) (identityMapPage mapper virt framePhys flags) := by
  intro system holds
  cases translated : mapper.translateAddr system.vmm.pageTable virt.asU64 with
  | some frame =>
      rw [identityMapPage_skips (by rw [translated]; rfl)]
      exact holds
  | none =>
      rw [identityMapPage_maps translated]
      split
      · rename_i table' pmm' done
        exact stable.mapped system virt framePhys flags "identity map" table' pmm' holds uses
          virtAligned aligned done
      · rename_i reason table' pmm' done
        have refused := stable.refused system virt framePhys flags reason table' pmm' holds uses
          virtAligned aligned done
        split
        · exact refused
        · exact refused

theorem identityMapFrom_keeps {phys : Nat} {flags : PageTableFlags} (aligned : phys % 4096 = 0)
    (count index : Nat)
    (uses : ∀ turn, index ≤ turn → turn < index + count → allowed (pageAt phys turn) flags) :
    Along (Keeps inv) (identityMapFrom mapper phys flags count index) := by
  induction count generalizing index with
  | zero => exact .pure Keeps.refl _
  | succ count ih =>
      rw [identityMapFrom]
      split
      · exact .throw Keeps.refl _
      rename_i framePhys frame
      split
      · exact .throw Keeps.refl _
      rename_i virt page
      have physOf : framePhys.asU64 = pageAt phys index := physAddr_of_new? frame
      have virtOf : virt.asU64 = pageAt phys index := (VirtAddr.of_new? page).trans physOf
      have whole := page_aligned index aligned
      refine .bind Keeps.trans (identityMapPage_keeps stable ?_ ?_ ?_) fun _ => ih _ ?_
      · rw [virtOf]
        exact uses index (Nat.le_refl _) (by omega)
      · rw [virtOf, whole]
      · rw [physOf, whole]
      · intro turn above below
        exact uses turn (by omega) (by omega)

theorem identityMap_keeps (phys : PhysAddr) {count : Nat} {flags : PageTableFlags}
    (uses : ∀ index < count, allowed (pageAt phys.asU64 index) flags) :
    Along (Keeps inv) (identityMap mapper phys count flags) := by
  rw [identityMap]
  split
  · exact .throw Keeps.refl _
  rename_i aligned
  rw [ne_eq, not_not] at aligned
  refine identityMapFrom_keeps stable aligned count 0 fun turn _ below => uses turn ?_
  rwa [Nat.zero_add] at below

theorem Stable.request {system : System} (holds : inv system) {request : VmmRequest}
    (uses : request.Uses allowed) : inv (stateOf (request.run mapper system)) := by
  have dropped : ∀ {α : Type} {action : VmmCall α}, Along (Keeps inv) action →
      Along (Keeps inv) (action >>= fun _ => (pure () : VmmCall Unit)) :=
    fun keeps => .bind Keeps.trans keeps fun _ => .pure Keeps.refl _
  cases request with
  | mapPage virt phys flags => exact mapPage_keeps stable virt phys uses system holds
  | unmapPage virt => exact dropped (unmapPage_keeps stable virt) system holds
  | remapPage virt newPhys flags => exact dropped (remapPage_keeps stable virt newPhys uses) system holds
  | mapRegion virt phys count flags => exact mapRegion_keeps stable virt phys uses system holds
  | unmapRegion virt count => exact unmapRegion_keeps stable virt count system holds
  | identityMap phys count flags => exact identityMap_keeps stable phys uses system holds

theorem Stable.run {system : System} (holds : inv system) (requests : List VmmRequest)
    (uses : ∀ request ∈ requests, request.Uses allowed) :
    inv ((vmmMachine mapper).final system requests) := by
  refine (vmmMachine mapper).final_invariant inv (fun _ request => request.Uses allowed) ?_ system
    requests holds ((vmmMachine mapper).meets_calls system uses)
  exact fun state request here allowedHere => stable.request here allowedHere

end Rule

end ArcadiaOs.Vmm
