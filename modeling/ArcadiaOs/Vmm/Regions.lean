import ArcadiaOs.Lib.Coverage
import ArcadiaOs.Process.UserPointer
import ArcadiaOs.Vmm.Discovery
import ArcadiaOs.Vmm.Requests
import ArcadiaOs.Vmm.TableMapper

/-!
The list of regions against the page tables.  A region stands for a leaf; recording a page
and forgetting one keep the list in step with the tables, except at the last page of the
address space, where the sum of start and size wraps and a region contains nothing.
-/

namespace ArcadiaOs.Vmm

open Lib Memory Process

def Inner (virt : Nat) : Prop := canonical virt = true ∧ virt < 2 ^ 64 - 4096

instance : DecidablePred Inner := fun _ => inferInstanceAs (Decidable (_ ∧ _))

def lastPage : Nat := 0xFFFFFFFFFFFFF000

/-- The start of a region and the leaf it stands for.  The processor ignores the low bits in the
address of a large page, as `translate` does; the region keeps them. -/
def MappedRegion.block (region : MappedRegion) : Nat × Leaf :=
  (region.virtualAddr, ⟨region.physicalAddr / region.size * region.size, region.size⟩)

def Covers (region : MappedRegion) (virt : Nat) : Prop :=
  Inner virt ∧ region.flags.present = true ∧ region.contains virt = true

/-- The start of the page around an address and its leaf. -/
def blockAt (table : PageTable 4) (virt : Nat) : Option (Nat × Leaf) :=
  if Inner virt then (table.leaf virt).map fun leaf => (virt / leaf.size * leaf.size, leaf) else none

/-- Below the last page the regions that are present describe the tables. -/
def Matches (regions : List MappedRegion) (table : PageTable 4) : Prop :=
  Describes Covers MappedRegion.block regions (blockAt table)

theorem canonical_cases {virt : Nat} (isCanonical : canonical virt = true) :
    virt < 2 ^ 47 ∨ 2 ^ 64 - 2 ^ 47 ≤ virt ∧ virt < 2 ^ 64 := by
  simp only [canonical, Bool.or_eq_true, Bool.and_eq_true, decide_eq_true_eq] at isCanonical
  exact isCanonical

theorem samePage_canonical {virt page : Nat} (isCanonical : canonical virt = true)
    (pageCanonical : canonical page = true) : SamePage 4 virt page ↔ virt / 4096 = page / 4096 := by
  have bounds := canonical_cases isCanonical
  have pageBounds := canonical_cases pageCanonical
  rw [SamePage]
  omega

theorem blockAt_some {table : PageTable 4} {virt start : Nat} {leaf : Leaf} :
    blockAt table virt = some (start, leaf) ↔
      Inner virt ∧ table.leaf virt = some leaf ∧ virt / leaf.size * leaf.size = start := by
  by_cases inner : Inner virt
  · rw [blockAt, if_pos inner, Option.map_eq_some_iff]
    constructor
    · rintro ⟨found, leads, same⟩
      rw [Prod.mk.injEq] at same
      obtain ⟨here, rfl⟩ := same
      exact ⟨inner, leads, here⟩
    · rintro ⟨_, leads, here⟩
      exact ⟨leaf, leads, by rw [here]⟩
  · rw [blockAt, if_neg inner]
    exact iff_of_false nofun fun covered => inner covered.1

theorem blockAt_congr {table table' : PageTable 4} {virt : Nat} (same : table'.leaf virt = table.leaf virt) :
    blockAt table' virt = blockAt table virt := by
  rw [blockAt, blockAt, same]

theorem blockAt_none {table : PageTable 4} {virt : Nat} (absent : table.leaf virt = none) :
    blockAt table virt = none := by
  rw [blockAt, absent]
  split <;> rfl

theorem contains_iff {region : MappedRegion} {virt : Nat} : region.contains virt = true ↔
    region.virtualAddr ≤ virt ∧ virt < wrap64 (region.virtualAddr + region.size) := by
  rw [MappedRegion.contains, Bool.and_eq_true, decide_eq_true_eq, decide_eq_true_eq]

theorem leaf_size_page {level virt : Nat} {table : PageTable level} {found : Leaf}
    (leads : table.leaf virt = some found) : 4096 ∣ found.size := by
  obtain ⟨height, _, size, _⟩ := PageTable.leaf_size leads
  rw [size]
  exact page_dvd height

theorem not_contains_last {region : MappedRegion} {virt : Nat}
    (shaped : (region.virtualAddr + region.size) % 4096 = 0) (last : lastPage ≤ virt) :
    region.contains virt = false := by
  rw [Bool.eq_false_iff, ne_eq, contains_iff, wrap64_eq]
  simp only [lastPage] at last
  omega

section Page

variable {page : Nat} (aligned : page % 4096 = 0) (pageCanonical : canonical page = true)
include aligned pageCanonical

theorem contains_page {phys : Nat} {flags : PageTableFlags} {description : String} {virt : Nat}
    (inner : Inner virt) :
    (pageRegion page phys flags description).contains virt = true ↔ virt / 4096 = page / 4096 := by
  have bounds := canonical_cases pageCanonical
  obtain ⟨_, below⟩ := inner
  rw [contains_iff]
  simp only [pageRegion, vmmPageSize, wrap64_eq]
  omega

variable {regions : List MappedRegion} {table table' : PageTable 4}

theorem Matches.record (fits : Matches regions table) {phys : Nat} (physAligned : phys % 4096 = 0)
    {flags : PageTableFlags} (description : String) (unused : table.leaf page = none)
    (leaves : ∀ virt, table'.leaf virt = if SamePage 4 virt page then
      if flags.present then some ⟨phys, 4096⟩ else none else table.leaf virt) :
    Matches (regions ++ [pageRegion page phys flags description]) table' := by
  have inPage : ∀ virt, Inner virt →
      ((pageRegion page phys flags description).contains virt = true ↔ SamePage 4 virt page) := by
    intro virt inner
    rw [contains_page aligned pageCanonical inner, samePage_canonical inner.1 pageCanonical]
  refine Describes.push fits _ ?_ ?_ ?_
  · rintro virt ⟨inner, _, contains⟩
    have same := (inPage virt inner).mp contains
    exact blockAt_none ((table.leaf_congr same).trans unused)
  · rintro virt ⟨inner, present, contains⟩
    have same := (inPage virt inner).mp contains
    have number := (samePage_canonical inner.1 pageCanonical).mp same
    have present : flags.present = true := present
    refine blockAt_some.mpr ⟨inner, ?_, ?_⟩
    · rw [leaves, if_pos same, present]
      simp only [pageRegion, vmmPageSize, Nat.div_mul_cancel (Nat.dvd_of_mod_eq_zero physAligned)]
      rfl
    · simp only [pageRegion, vmmPageSize]
      omega
  · intro virt apart
    by_cases inner : Inner virt
    · by_cases same : SamePage 4 virt page
      · have absent : flags.present = false := by
          rw [Bool.eq_false_iff]
          exact fun present => apart ⟨inner, present, (inPage virt inner).mpr same⟩
        refine (blockAt_none ?_).trans (blockAt_none ((table.leaf_congr same).trans unused)).symm
        rw [leaves, if_pos same, absent]
        rfl
      · exact blockAt_congr (by rw [leaves, if_neg same])
    · rw [blockAt, blockAt, if_neg inner, if_neg inner]

/-- A page that was mapped by itself is unmapped, and the regions that contain it are dropped. -/
theorem Matches.forget (fits : Matches regions table) {phys : Nat}
    (mapped : table.leaf page = some ⟨phys, 4096⟩)
    (leaves : ∀ virt, table'.leaf virt = if SamePage 4 virt page then none else table.leaf virt) :
    Matches (regions.filter fun region => !region.contains page) table' := by
  refine Describes.drop fits _ (fun virt => SamePage 4 virt page) ?_ ?_ ?_
  · intro virt same
    exact blockAt_none (by rw [leaves, if_pos same])
  · intro virt apart
    exact blockAt_congr (by rw [leaves, if_neg apart])
  · intro region member virt covered
    obtain ⟨inner, present, contains⟩ := covered
    obtain ⟨_, leads, start⟩ := blockAt_some.mp (fits.sound region member virt ⟨inner, present, contains⟩)
    simp only at start leads
    have whole : 4096 ∣ region.size := leaf_size_page leads
    rw [Bool.not_eq_true', Bool.eq_false_iff, ne_eq, not_iff_not,
      samePage_canonical inner.1 pageCanonical]
    rw [contains_iff] at contains ⊢
    constructor
    · intro around
      by_cases last : page < 2 ^ 64 - 4096
      · have pageCovered : Covers region page :=
          ⟨⟨pageCanonical, last⟩, present, contains_iff.mpr around⟩
        obtain ⟨_, leadsPage, startPage⟩ := blockAt_some.mp (fits.sound region member page pageCovered)
        simp only at startPage
        rw [mapped, Option.some.injEq, Leaf.mk.injEq] at leadsPage
        rw [← leadsPage.2] at start startPage
        omega
      · obtain ⟨count, size⟩ := whole
        have multiple : (region.virtualAddr + region.size) % 4096 = 0 := by
          rw [← start, size, Nat.mul_left_comm, ← Nat.mul_add, Nat.mul_mod_right]
        have none : region.contains page = false :=
          not_contains_last multiple (by simp only [lastPage]; omega)
        rw [contains_iff.mpr around] at none
        cases none
    · intro same
      have samePage := (samePage_canonical inner.1 pageCanonical).mpr same
      rw [table.leaf_congr samePage, mapped, Option.some.injEq, Leaf.mk.injEq] at leads
      rw [← leads.2] at start contains ⊢
      omega

end Page

theorem Matches.same {regions : List MappedRegion} {table table' : PageTable 4}
    (fits : Matches regions table) (leaves : ∀ virt, table'.leaf virt = table.leaf virt) :
    Matches regions table' :=
  Describes.congr fits fun virt => blockAt_congr (leaves virt)

section Init

variable {table : PageTable 4} {vmm : VirtualMemoryManager}
  (started : VirtualMemoryManager.init table = some vmm)
include started

theorem init_discovered : vmm = .discovered table ∧
    ∀ region ∈ table.discover 0, canonical region.virtualAddr = true := by
  rw [VirtualMemoryManager.init] at started
  split at started
  · rename_i all
    exact ⟨(Option.some.inj started).symm, List.all_eq_true.mp all⟩
  · cases started

theorem init_lower {region : MappedRegion} (member : region ∈ table.discover 0) :
    region.virtualAddr + region.size ≤ 2 ^ 47 := by
  have isCanonical := (init_discovered started).2 region member
  have listed := table.discover_sound (Nat.zero_mod _) member
  have below := listed.below
  have start := listed.start
  obtain ⟨height, lower, size⟩ := listed.size
  have bounds := canonical_cases isCanonical
  have span : pageSize 4 = 2 ^ 48 := rfl
  rw [span] at below
  have sizes : pageSize height ∣ 2 ^ 47 := by
    have sorted : height = 0 ∨ height = 1 ∨ height = 2 ∨ height = 3 := by omega
    rcases sorted with rfl | rfl | rfl | rfl <;> decide
  rw [← size] at sizes
  obtain ⟨count, total⟩ := sizes
  obtain ⟨index, place⟩ := Nat.dvd_of_mod_eq_zero start
  have inside : index < count := by
    refine Nat.lt_of_mul_lt_mul_left (a := region.size) ?_
    omega
  have next := Nat.mul_le_mul_left region.size (Nat.succ_le_of_lt inside)
  rw [Nat.mul_succ] at next
  omega

theorem init_found {virt : Nat} (isCanonical : canonical virt = true) {leaf : Leaf}
    (leads : table.leaf virt = some leaf) :
    virt < 2 ^ 47 ∧ ∃ region ∈ table.discover 0, region.contains virt = true := by
  -- an upper address has the walk of a lower one that is not canonical
  have same : SamePage 4 virt (virt % 2 ^ 48) := by
    rw [SamePage]
    omega
  rw [table.leaf_congr same] at leads
  obtain ⟨region, member, above, below⟩ := table.discover_complete leads
  have root : virt % 2 ^ 48 / pageSize 4 * pageSize 4 = 0 := by
    rw [show pageSize 4 = 2 ^ 48 from rfl, Nat.div_eq_of_lt (Nat.mod_lt _ (by decide)), Nat.zero_mul]
  rw [root] at member
  have lower := init_lower started member
  have bounds := canonical_cases isCanonical
  have low : virt % 2 ^ 48 = virt := by omega
  rw [low] at above below
  refine ⟨by omega, region, member, ?_⟩
  rw [contains_iff, wrap64_eq, Nat.mod_eq_of_lt (by omega)]
  exact ⟨above, below⟩

theorem init_sound {region : MappedRegion} (member : region ∈ table.discover 0) {virt : Nat} (covered : Covers region virt) :
    blockAt table virt = some region.block := by
  obtain ⟨inner, present, contains⟩ := covered
  have listed := table.discover_sound (Nat.zero_mod _) member
  have lower := init_lower started member
  rw [contains_iff, wrap64_eq, Nat.mod_eq_of_lt (by omega)] at contains
  refine blockAt_some.mpr ⟨inner, listed.leaves virt contains.1 contains.2, ?_⟩
  · obtain ⟨count, place⟩ := Nat.dvd_of_mod_eq_zero listed.start
    simp only
    rw [Nat.div_eq_of_lt_le (k := count), Nat.mul_comm, place]
    · rw [Nat.mul_comm]
      omega
    · rw [Nat.succ_mul, Nat.mul_comm]
      omega

theorem init_matches : Matches (table.discover 0) table := by
  refine ⟨fun region member virt covered => init_sound started member covered, ?_⟩
  rintro virt ⟨start, leaf⟩ mapped
  obtain ⟨inner, leads, _⟩ := blockAt_some.mp mapped
  obtain ⟨lower, region, member, contains⟩ := init_found started inner.1 leads
  have covered : Covers region virt :=
    ⟨inner, (table.discover_sound (Nat.zero_mod _) member).present, contains⟩
  refine ⟨region, member, covered, ?_⟩
  have found := init_sound started member covered
  rw [mapped, Option.some.injEq] at found
  exact found.symm

end Init

/-! The whole life of a list whose regions are all present. -/

/-- Besides describing the tables, the regions are present, end at page boundaries and share no
address, and those that start inside a frame contain their own start. -/
structure Tracked (vmm : VirtualMemoryManager) : Prop where
  fits : Matches vmm.mappedRegions vmm.pageTable
  present : ∀ region ∈ vmm.mappedRegions, region.flags.present = true
  shaped : ∀ region ∈ vmm.mappedRegions, (region.virtualAddr + region.size) % 4096 = 0
  apart : Apartness Covers vmm.mappedRegions
  started : ∀ region ∈ vmm.mappedRegions,
    region.physicalAddr % region.size = 0 ∨ Covers region region.virtualAddr

theorem discovered_tracked {table : PageTable 4} {vmm : VirtualMemoryManager}
    (started : VirtualMemoryManager.init table = some vmm) : Tracked vmm := by
  obtain ⟨rfl, lowerHalf⟩ := init_discovered started
  constructor
  · exact init_matches started
  · exact fun region member => (table.discover_sound (Nat.zero_mod _) member).present
  · intro region member
    have listed := table.discover_sound (Nat.zero_mod _) member
    obtain ⟨height, _, size⟩ := listed.size
    have divides : 4096 ∣ region.size := size ▸ page_dvd height
    exact Nat.mod_eq_zero_of_dvd (Nat.dvd_add
      (Nat.dvd_trans divides (Nat.dvd_of_mod_eq_zero listed.start)) divides)
  · refine List.Pairwise.imp_of_mem ?_ (table.discover_apart (Nat.zero_mod _))
    rintro left right memberLeft memberRight apart virt ⟨_, _, containsLeft⟩ ⟨_, _, containsRight⟩
    have lowerLeft := init_lower started memberLeft
    have lowerRight := init_lower started memberRight
    rw [contains_iff, wrap64_eq, Nat.mod_eq_of_lt (by omega)] at containsLeft containsRight
    exact apart virt containsLeft containsRight
  · intro region member
    have listed := table.discover_sound (Nat.zero_mod _) member
    have lower := init_lower started member
    obtain ⟨height, _, size⟩ := listed.size
    have positive : 0 < region.size := size ▸ pageSize_pos height
    refine .inr ⟨⟨lowerHalf region member, by omega⟩, listed.present, ?_⟩
    rw [contains_iff, wrap64_eq, Nat.mod_eq_of_lt (by omega)]
    omega

theorem Tracked.stable {mapper : Mapper} {tables : PageTable 4 → Prop}
    (documented : mapper.Documented tables fun flags => flags.present = true) :
    Stable mapper (fun _ flags => flags.present = true) fun system =>
      tables system.vmm.pageTable ∧ Tracked system.vmm := by
  constructor
  · rintro system virt phys flags description table' pmm' ⟨inside, tracked⟩ present aligned physAligned
      done
    obtain ⟨unused, leaves⟩ :=
      documented.maps _ _ _ _ _ _ _ inside present aligned physAligned phys.inBounds done
    refine ⟨documented.mapTo_inside inside present aligned physAligned phys.inBounds done, ?_⟩
    have divides : (virt.asU64 + vmmPageSize) % 4096 = 0 := by
      rw [vmmPageSize]
      omega
    constructor
    · exact tracked.fits.record aligned virt.isCanonical physAligned description unused leaves
    · intro region member
      rcases List.mem_append.mp member with old | new
      · exact tracked.present region old
      · obtain rfl := List.mem_singleton.mp new
        exact present
    · intro region member
      rcases List.mem_append.mp member with old | new
      · exact tracked.shaped region old
      · obtain rfl := List.mem_singleton.mp new
        exact divides
    · refine Apartness.push tracked.apart fun region member address covered fresh => ?_
      have number := (contains_page aligned virt.isCanonical fresh.1).mp fresh.2.2
      have same := (samePage_canonical fresh.1.1 virt.isCanonical).mpr number
      obtain ⟨_, leads, _⟩ := blockAt_some.mp (tracked.fits.sound region member address covered)
      rw [PageTable.leaf_congr _ same, unused] at leads
      cases leads
    · intro region member
      rcases List.mem_append.mp member with old | new
      · exact tracked.started region old
      · obtain rfl := List.mem_singleton.mp new
        exact .inl physAligned
  · rintro system virt phys flags reason table' pmm' ⟨inside, tracked⟩ present aligned physAligned done
    have leaves :=
      documented.refuses _ _ _ _ _ _ _ _ inside present aligned physAligned phys.inBounds done
    refine ⟨documented.mapTo_inside inside present aligned physAligned phys.inBounds done, ?_⟩
    exact ⟨tracked.fits.same leaves, tracked.present, tracked.shaped, tracked.apart, tracked.started⟩
  · rintro system virt phys table' ⟨inside, tracked⟩ aligned done
    obtain ⟨mapped, leaves⟩ := documented.unmaps _ _ _ _ done
    refine ⟨documented.unmap_inside inside done, ?_⟩
    constructor
    · exact tracked.fits.forget aligned virt.isCanonical mapped leaves
    · exact fun region member => tracked.present region (List.mem_filter.mp member).1
    · exact fun region member => tracked.shaped region (List.mem_filter.mp member).1
    · exact List.Pairwise.filter _ tracked.apart
    · exact fun region member => tracked.started region (List.mem_filter.mp member).1
  · rintro system virt reason table' ⟨inside, tracked⟩ done
    have leaves := documented.keeps _ _ _ _ done
    refine ⟨documented.unmap_inside inside done, ?_⟩
    exact ⟨tracked.fits.same leaves, tracked.present, tracked.shaped, tracked.apart, tracked.started⟩
  · rintro system ⟨inside, tracked⟩
    exact ⟨inside, tracked.fits, tracked.present, tracked.shaped, tracked.apart, tracked.started⟩

end ArcadiaOs.Vmm
