import ArcadiaOs.Vmm.Remapping

/-!
What `unmap_region` leaves mapped.  It drops the answer of every `unmap_page`, so a page that
cannot be taken out, as a part of a larger page, stays behind an answer that says otherwise.
-/

namespace ArcadiaOs.Vmm

open Lib Memory Process

structure RangeUnmapped (mapper : Mapper) (start count : Nat) (before after : PageTable 4) : Prop where
  gone : ∀ virt : VirtAddr, start ≤ virt.asU64 → virt.asU64 < start + count * 4096 →
    mapper.translateAddr after virt.asU64 = none
  others : ∀ virt : VirtAddr, ¬(start ≤ virt.asU64 ∧ virt.asU64 < start + count * 4096) →
    mapper.translateAddr after virt.asU64 = mapper.translateAddr before virt.asU64

theorem pageAt_inside {start index : Nat} (bound : start + index * 4096 < 2 ^ 64) :
    pageAt start index = start + index * 4096 := by
  rw [pageAt, wrap64_eq, wrap64_eq, vmmPageSize]
  omega

/-- The pages of a range that have been taken out in a number of turns. -/
structure TakenOut (start turns : Nat) (before after : PageTable 4) : Prop where
  gone : ∀ turn < turns, before.removable (pageAt start turn) = true →
    ∀ virt, SamePage 4 virt (pageAt start turn) → after.found virt = none
  kept : ∀ virt, (∀ turn < turns, SamePage 4 virt (pageAt start turn) →
      before.removable (pageAt start turn) = false) → after.found virt = before.found virt
  later : ∀ virt, (∀ turn < turns, ¬SamePage 4 virt (pageAt start turn)) →
    after.removable virt = before.removable virt

theorem TakenOut.none (start : Nat) (table : PageTable 4) : TakenOut start 0 table table :=
  ⟨fun _ bound => absurd bound (Nat.not_lt_zero _), fun _ _ => rfl, fun _ _ => rfl⟩

section Turns

variable {mapper : Mapper} {tables : PageTable 4 → Prop} (finds : mapper.Finds tables)
  (removes : mapper.Removes)
include finds removes

theorem unmapPageIgnored_takes {virt : VirtAddr} (aligned : virt.asU64 % 4096 = 0) (system : System) :
    ∃ system', unmapPageIgnored mapper virt system = .ok () system' ∧
      (∀ place, system'.vmm.pageTable.found place =
        if SamePage 4 place virt.asU64 ∧ system.vmm.pageTable.removable virt.asU64 = true then none
        else system.vmm.pageTable.found place) ∧
      ∀ place, ¬SamePage 4 place virt.asU64 →
        system'.vmm.pageTable.removable place = system.vmm.pageTable.removable place := by
  have answer := removes.removes system.vmm.pageTable virt.asU64 aligned
  have spared := removes.spares system.vmm.pageTable virt.asU64
  refine ⟨_, rfl, ?_⟩
  rw [unmapPage_aligned aligned]
  cases done : mapper.unmap system.vmm.pageTable virt.asU64 with
  | mk result table' =>
      rw [done] at answer
      simp only [done] at spared
      cases result with
      | ok phys =>
          have removable := answer.mp ⟨phys, rfl⟩
          obtain ⟨_, leaves⟩ := finds.unmaps _ _ _ _ done
          refine ⟨fun place => ?_, fun place other => spared place aligned other⟩
          simp only [removable, and_true]
          exact leaves place
      | error reason =>
          have fixed : system.vmm.pageTable.removable virt.asU64 = false := by
            rw [Bool.eq_false_iff]
            intro removable
            obtain ⟨phys, given⟩ := answer.mpr removable
            cases given
          refine ⟨fun place => ?_, fun place other => spared place aligned other⟩
          rw [fixed, if_neg (fun both => Bool.false_ne_true both.2)]
          exact finds.keeps _ _ _ _ done place

theorem TakenOut.step {start turns : Nat} {before : PageTable 4} {system : System} {virt : VirtAddr}
    (taken : TakenOut start turns before system.vmm.pageTable) (aligned : virt.asU64 % 4096 = 0)
    (page : virt.asU64 = pageAt start turns)
    (fresh : ∀ turn < turns, ¬SamePage 4 virt.asU64 (pageAt start turn)) :
    ∃ system', unmapPageIgnored mapper virt system = .ok () system' ∧
      TakenOut start (turns + 1) before system'.vmm.pageTable := by
  obtain ⟨system', ran, leaves, others⟩ :=
    unmapPageIgnored_takes finds removes aligned system
  have same := taken.later virt.asU64 fresh
  rw [page] at leaves same others
  refine ⟨system', ran, ?_, ?_, ?_⟩
  · intro turn bound removable place here
    rw [leaves]
    split
    · rfl
    rename_i other
    rcases Nat.lt_succ_iff_lt_or_eq.mp bound with earlier | rfl
    · exact taken.gone turn earlier removable place here
    · exact absurd ⟨here, same.trans removable⟩ other
  · intro place fixed
    rw [leaves]
    split
    · rename_i both
      have stuck := fixed turns (Nat.lt_succ_self _) both.1
      rw [← same, both.2] at stuck
      cases stuck
    · exact taken.kept place fun turn bound => fixed turn (Nat.lt_succ_of_lt bound)
  · intro place apart
    rw [others place (apart turns (Nat.lt_succ_self _))]
    exact taken.later place fun turn bound => apart turn (Nat.lt_succ_of_lt bound)

end Turns

/-! A range of canonical addresses. -/

def CanonicalRange (start count : Nat) : Prop :=
  ∀ address, start ≤ address → address < start + count * 4096 → canonical address = true

section Range

variable {start count index : Nat} (range : CanonicalRange start count) (bound : index < count)
include range bound

theorem CanonicalRange.page : pageAt start index = start + index * 4096 ∧
    canonical (start + index * 4096) = true := by
  have isCanonical := range (start + index * 4096) (by omega) (by omega)
  have small := canonical_cases isCanonical
  exact ⟨pageAt_inside (by omega), isCanonical⟩

theorem CanonicalRange.page_made : ∃ virt : VirtAddr, virt.asU64 = pageAt start index ∧
    virt.asU64 = start + index * 4096 ∧ VirtAddr.new? (pageAt start index) = some virt := by
  obtain ⟨page, isCanonical⟩ := range.page bound
  refine ⟨⟨start + index * 4096, isCanonical⟩, page.symm, rfl, ?_⟩
  rw [page, VirtAddr.new?, dif_pos isCanonical]

theorem CanonicalRange.samePage_iff (aligned : start % 4096 = 0) {virt : Nat}
    (isCanonical : canonical virt = true) : SamePage 4 virt (pageAt start index) ↔
      start + index * 4096 ≤ virt ∧ virt < start + index * 4096 + 4096 := by
  obtain ⟨page, pageCanonical⟩ := range.page bound
  rw [page, samePage_canonical isCanonical pageCanonical]
  omega

end Range

theorem page_of_address {start count address : Nat} (above : start ≤ address)
    (below : address < start + count * 4096) : ∃ index < count,
      start + index * 4096 ≤ address ∧ address < start + index * 4096 + 4096 := by
  refine ⟨(address - start) / 4096, ?_, ?_, ?_⟩
  all_goals omega

section Range

variable {mapper : Mapper} {tables : PageTable 4 → Prop} (finds : mapper.Finds tables)
  (removes : mapper.Removes)
  {start total : Nat} (aligned : start % 4096 = 0) (range : CanonicalRange start total)
include finds removes aligned range

theorem unmapRegionFrom_takes {before : PageTable 4} (count index : Nat) {system : System}
    (inside : index + count ≤ total) (taken : TakenOut start index before system.vmm.pageTable) :
    ∃ system', unmapRegionFrom mapper start count index system = .ok () system' ∧
      TakenOut start (index + count) before system'.vmm.pageTable := by
  induction count generalizing index system with
  | zero => exact ⟨system, rfl, taken⟩
  | succ count ih =>
      obtain ⟨virt, page, value, made⟩ := range.page_made (show index < total by omega)
      have fresh : ∀ turn < index, ¬SamePage 4 virt.asU64 (pageAt start turn) := by
        intro turn earlier
        rw [range.samePage_iff (show turn < total by omega) aligned virt.isCanonical, value]
        omega
      obtain ⟨middle, ran, next⟩ := taken.step finds removes (by omega) page fresh
      obtain ⟨system', rest, done⟩ := ih (index + 1) (by omega) next
      refine ⟨system', ?_, ?_⟩
      · rw [unmapRegionFrom, show wrap64 (start + wrap64 (index * vmmPageSize)) = pageAt start index
          from rfl, made]
        simp only [bind_apply, ran, rest]
      · rwa [Nat.add_right_comm, Nat.add_assoc] at done

end Range

theorem unmapRegion_takes {mapper : Mapper} {tables : PageTable 4 → Prop} (finds : mapper.Finds tables)
    (removes : mapper.Removes) (system : System) {virt : VirtAddr} {count : Nat}
    (aligned : virt.asU64 % 4096 = 0) (range : CanonicalRange virt.asU64 count) :
    ∃ last, unmapRegion mapper virt count system = .ok () last ∧
      TakenOut virt.asU64 count system.vmm.pageTable last.vmm.pageTable := by
  obtain ⟨last, ran, taken⟩ := unmapRegionFrom_takes finds removes aligned range count 0
    (by omega) (.none virt.asU64 system.vmm.pageTable)
  rw [Nat.zero_add] at taken
  refine ⟨last, ?_, taken⟩
  rw [unmapRegion, vmmPageSize, if_neg (not_not.mpr aligned)]
  exact ran

/-- A canonical range is unmapped exactly when each of its pages is not mapped, or is one that can be
taken out alone. -/
theorem unmapRegion_unmaps_iff {mapper : Mapper} {tables : PageTable 4 → Prop} (finds : mapper.Finds tables)
    (removes : mapper.Removes) (system : System) (virt : VirtAddr) (count : Nat)
    (aligned : virt.asU64 % 4096 = 0) (range : CanonicalRange virt.asU64 count) :
    (∀ system', unmapRegion mapper virt count system = .ok () system' →
        RangeUnmapped mapper virt.asU64 count system.vmm.pageTable system'.vmm.pageTable) ↔
      ∀ index < count,
        mapper.translateAddr system.vmm.pageTable (virt.asU64 + index * 4096) = none ∨
          system.vmm.pageTable.removable (virt.asU64 + index * 4096) = true := by
  obtain ⟨last, answered, taken⟩ := unmapRegion_takes finds removes system aligned range
  have translated (table : PageTable 4) (place : Nat) :
      mapper.translateAddr table place = none ↔ table.found place = none := by
    rw [finds.translates, PageTable.translateAddr, Option.map_eq_none_iff]
  constructor
  · intro unmaps index bound
    have unmapped := unmaps last answered
    obtain ⟨page, isCanonical⟩ := range.page bound
    cases removable : system.vmm.pageTable.removable (virt.asU64 + index * 4096) with
    | true => exact .inr rfl
    | false =>
        have gone := unmapped.gone ⟨virt.asU64 + index * 4096, isCanonical⟩
          (Nat.le_add_right _ _) (by simp only; omega)
        refine .inl ((translated _ _).mpr ?_)
        rw [← taken.kept]
        · exact (translated _ _).mp gone
        · intro turn turnBound here
          rw [range.samePage_iff turnBound aligned isCanonical] at here
          have same : turn = index := by omega
          rw [same, page, removable]
  · intro clean system' done
    rw [answered] at done
    cases done
    constructor
    · intro place above below
      obtain ⟨index, bound, inPage⟩ := page_of_address above below
      have here := (range.samePage_iff bound aligned place.isCanonical).mpr inPage
      obtain ⟨page, _⟩ := range.page bound
      rw [translated]
      cases removable : system.vmm.pageTable.removable (pageAt virt.asU64 index) with
      | true => exact taken.gone index bound removable _ here
      | false =>
          rw [taken.kept]
          · rw [system.vmm.pageTable.found_congr here, page, ← translated]
            rw [page] at removable
            exact (clean index bound).resolve_right (by rw [removable]; exact Bool.false_ne_true)
          · intro turn turnBound turnHere
            rw [range.samePage_iff turnBound aligned place.isCanonical] at turnHere
            have same : turn = index := by omega
            rw [same, removable]
    · intro place outside
      apply finds.translate_congr
      apply taken.kept
      intro turn turnBound here
      rw [range.samePage_iff turnBound aligned place.isCanonical] at here
      exact absurd ⟨by omega, by omega⟩ outside

theorem canonicalRange_lower {start count : Nat} (lower : start + count * 4096 ≤ 2 ^ 47) :
    CanonicalRange start count := by
  intro address _ below
  simp only [canonical, Bool.or_eq_true, decide_eq_true_eq]
  exact .inl (Nat.lt_of_lt_of_le below lower)

theorem unmapRegion_unmaps_mapped : ∃ system',
    unmapRegion treeMapper ⟨0x40000000, by decide⟩ 2 mappedSystem = .ok () system' ∧
      RangeUnmapped treeMapper 0x40000000 2 mappedSystem.vmm.pageTable system'.vmm.pageTable := by
  have range : CanonicalRange 0x40000000 2 := canonicalRange_lower (by decide)
  obtain ⟨system', ran, _⟩ := @unmapRegion_takes treeMapper PageTable.Tidy treeMapper_finds
    treeMapper_removes mappedSystem ⟨0x40000000, by decide⟩ 2 (by decide) range
  exact ⟨system', ran, (unmapRegion_unmaps_iff treeMapper_finds treeMapper_removes mappedSystem
    ⟨0x40000000, by decide⟩ 2 (by decide) range).mpr (by decide) system' ran⟩

/-- Unmapping a page of the first 2 MiB succeeds, and the page is still mapped. -/
theorem huge_page_stays : ∃ system',
    unmapRegion treeMapper ⟨0x1000, by decide⟩ 1 bootSystem = .ok () system' ∧
      treeMapper.translateAddr system'.vmm.pageTable 0x1000 = some 0x1000 := by
  have range : CanonicalRange 0x1000 1 := canonicalRange_lower (by decide)
  obtain ⟨system', ran, taken⟩ := @unmapRegion_takes treeMapper PageTable.Tidy treeMapper_finds
    treeMapper_removes bootSystem ⟨0x1000, by decide⟩ 1 (by decide) range
  refine ⟨system', ran, ?_⟩
  have kept := taken.kept 0x1000 fun turn bound _ => by
    obtain rfl : turn = 0 := by omega
    decide +kernel
  change (PageTable.found _ _).map _ = _
  rw [kept]
  decide

end ArcadiaOs.Vmm
