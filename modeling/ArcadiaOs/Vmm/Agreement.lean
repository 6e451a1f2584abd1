import ArcadiaOs.Process.Lifecycle
import ArcadiaOs.Vmm.Regions

/-!
The answers of the memory manager against the page tables, over every run of requests.
`get_mapping` and `translate` agree on every canonical address exactly while the last page
of the address space is not mapped and the address of each region is a multiple of its size.
-/

namespace ArcadiaOs.Vmm

open Lib Memory Process

/-- At most one region contains an address, one does exactly when the tables map it, and it tells
where they map it to. -/
structure Agrees (mapper : Mapper) (vmm : VirtualMemoryManager) : Prop where
  unique : ∀ virt : VirtAddr,
    (vmm.mappedRegions.filter fun region => region.contains virt.asU64).length ≤ 1
  mapped : ∀ virt : VirtAddr, (vmm.getMapping virt.asU64).isSome = true ↔
    (mapper.translateAddr vmm.pageTable virt.asU64).isSome = true
  address : ∀ (virt : VirtAddr) region phys, vmm.getMapping virt.asU64 = some region →
    mapper.translateAddr vmm.pageTable virt.asU64 = some phys →
    phys = region.physicalAddr + (virt.asU64 - region.virtualAddr)

/-- The processor finds each region where the region says. -/
def Exact (regions : List MappedRegion) : Prop :=
  ∀ region ∈ regions, region.physicalAddr % region.size = 0

theorem inner_or_last (virt : VirtAddr) : Inner virt.asU64 ∨ lastPage ≤ virt.asU64 := by
  rcases Nat.lt_or_ge virt.asU64 (2 ^ 64 - 4096) with below | last
  · exact .inl ⟨virt.isCanonical, below⟩
  · exact .inr last

theorem translate_isSome (table : PageTable 4) (virt : Nat) :
    (table.translate virt).isSome = (table.leaf virt).isSome := by
  rw [PageTable.translate, Option.isSome_map]

theorem leaf_last {virt : VirtAddr} (table : PageTable 4) (last : lastPage ≤ virt.asU64) :
    table.leaf virt.asU64 = table.leaf lastPage := by
  apply table.leaf_congr
  have bounds := canonical_cases virt.isCanonical
  rw [samePage_canonical virt.isCanonical (by decide)]
  simp only [lastPage] at last ⊢
  omega

theorem getMapping_some {vmm : VirtualMemoryManager} {virt : Nat} {region : MappedRegion}
    (found : vmm.getMapping virt = some region) :
    region ∈ vmm.mappedRegions ∧ region.contains virt = true :=
  ⟨List.mem_of_find?_eq_some found,
    List.find?_some (p := fun region : MappedRegion => region.contains virt) found⟩

section Tracked

variable {vmm : VirtualMemoryManager} (tracked : Tracked vmm)
include tracked

theorem Tracked.last {region : MappedRegion} (member : region ∈ vmm.mappedRegions) {virt : Nat}
    (last : lastPage ≤ virt) : region.contains virt = false :=
  not_contains_last (tracked.shaped region member) last

theorem Tracked.covers {region : MappedRegion} (member : region ∈ vmm.mappedRegions) {virt : Nat}
    (inner : Inner virt) (contains : region.contains virt = true) : Covers region virt :=
  ⟨inner, tracked.present region member, contains⟩

theorem Tracked.leaf {region : MappedRegion} (member : region ∈ vmm.mappedRegions) {virt : Nat}
    (inner : Inner virt) (contains : region.contains virt = true) :
    vmm.pageTable.leaf virt =
        some ⟨region.physicalAddr / region.size * region.size, region.size⟩ ∧
      virt / region.size * region.size = region.virtualAddr := by
  have covered := tracked.covers member inner contains
  have found := tracked.fits.sound region member virt covered
  exact (blockAt_some.mp found).2

theorem Tracked.unique (virt : VirtAddr) :
    (vmm.mappedRegions.filter fun region => region.contains virt.asU64).length ≤ 1 := by
  rcases inner_or_last virt with inner | last
  · have apart : Apartness (fun region place => Inner place ∧ region.contains place = true)
        vmm.mappedRegions := by
      refine List.Pairwise.imp_of_mem ?_ tracked.apart
      intro left right memberLeft memberRight apart place covered other
      exact apart place (tracked.covers memberLeft covered.1 covered.2)
        (tracked.covers memberRight other.1 other.2)
    exact apart.at_most_one _ fun region contains => ⟨inner, contains⟩
  · have none : (vmm.mappedRegions.filter fun region => region.contains virt.asU64) = [] := by
      apply List.filter_eq_nil_iff.mpr
      intro region member contains
      rw [tracked.last member last] at contains
      cases contains
    rw [none]
    exact Nat.zero_le 1

/-- Below the last page a region contains what is mapped. -/
theorem Tracked.mapped {virt : VirtAddr} (inner : Inner virt.asU64) :
    (vmm.getMapping virt.asU64).isSome = true ↔ (vmm.pageTable.leaf virt.asU64).isSome = true := by
  rw [VirtualMemoryManager.getMapping, List.find?_isSome]
  constructor
  · rintro ⟨region, member, contains⟩
    rw [(tracked.leaf member inner contains).1]
    rfl
  · intro leads
    obtain ⟨leaf, leads⟩ := Option.isSome_iff_exists.mp leads
    have block := blockAt_some.mpr ⟨inner, leads, rfl⟩
    obtain ⟨region, member, covered, _⟩ := tracked.fits.complete _ _ block
    exact ⟨region, member, covered.2.2⟩

theorem Tracked.not_found {virt : Nat} (last : lastPage ≤ virt) : vmm.getMapping virt = none := by
  apply List.find?_eq_none.mpr
  intro region member contains
  rw [tracked.last member last] at contains
  cases contains

theorem Tracked.found_start {region : MappedRegion} (member : region ∈ vmm.mappedRegions)
    (covered : Covers region region.virtualAddr) :
    vmm.getMapping region.virtualAddr = some region := by
  have some : (vmm.getMapping region.virtualAddr).isSome = true :=
    List.find?_isSome.mpr ⟨region, member, covered.2.2⟩
  obtain ⟨found, leads⟩ := Option.isSome_iff_exists.mp some
  obtain ⟨foundMember, contains⟩ := getMapping_some leads
  by_cases same : found = region
  · rw [leads, same]
  · have symmetric : Std.Symm fun left right : MappedRegion => ∀ place, Covers left place → ¬Covers right place :=
      ⟨fun left right apart place covers other => apart place other covers⟩
    have apart := List.Pairwise.forall tracked.apart foundMember member same
    exact absurd covered (apart _ (tracked.covers foundMember covered.1 contains))

theorem Tracked.agrees_iff {mapper : Mapper}
    (translates : ∀ virt, mapper.translateAddr vmm.pageTable virt = vmm.pageTable.translate virt) :
    Agrees mapper vmm ↔
      mapper.translateAddr vmm.pageTable lastPage = none ∧ Exact vmm.mappedRegions := by
  constructor
  · intro agrees
    constructor
    · have none := tracked.not_found (Nat.le_refl lastPage)
      have same := agrees.mapped ⟨lastPage, by decide⟩
      rw [none] at same
      exact Option.not_isSome_iff_eq_none.mp fun leads => Bool.false_ne_true (same.mpr leads)
    · intro region member
      rcases tracked.started region member with whole | covered
      · exact whole
      have found := tracked.found_start member covered
      obtain ⟨leads, own⟩ := tracked.leaf member covered.1 covered.2.2
      have start := agrees.address ⟨region.virtualAddr, covered.1.1⟩ region _ found
        (by rw [translates, PageTable.translate, leads]; rfl)
      have parts := Nat.div_add_mod' region.virtualAddr region.size
      have rest := Nat.mod_add_div' region.physicalAddr region.size
      simp only [Nat.sub_self, Nat.add_zero] at start
      omega
  · rintro ⟨lastUnused, precise⟩
    rw [translates] at lastUnused
    constructor
    · exact tracked.unique
    · intro virt
      rw [translates, translate_isSome]
      rcases inner_or_last virt with inner | last
      · exact tracked.mapped inner
      · rw [tracked.not_found last, leaf_last vmm.pageTable last, ← translate_isSome, lastUnused]
        rfl
    · intro virt region phys found translated
      obtain ⟨member, contains⟩ := getMapping_some found
      rcases inner_or_last virt with inner | last
      · obtain ⟨leads, start⟩ := tracked.leaf member inner contains
        have whole := Nat.div_mul_cancel (Nat.dvd_of_mod_eq_zero (precise region member))
        have parts := Nat.div_add_mod' virt.asU64 region.size
        rw [translates, PageTable.translate, leads, Option.map_some, Option.some.injEq,
          whole] at translated
        simp only at translated
        omega
      · rw [tracked.not_found last] at found
        cases found

end Tracked

/-! Where no page is mapped at the end of the address space. -/

/-- The last page is not mapped, and the processor finds each region. -/
def Clear (system : System) : Prop :=
  system.vmm.pageTable.leaf lastPage = none ∧ Exact system.vmm.mappedRegions

theorem not_samePage_last {virt : VirtAddr} (aligned : virt.asU64 % 4096 = 0)
    (other : virt.asU64 ≠ lastPage) : ¬SamePage 4 lastPage virt.asU64 := by
  rw [samePage_canonical (by decide) virt.isCanonical]
  simp only [lastPage] at other ⊢
  omega

theorem clear_stable {mapper : Mapper} {tables : PageTable 4 → Prop}
    (documented : mapper.Documented tables fun flags => flags.present = true) :
    Stable mapper (fun page flags => flags.present = true ∧ page ≠ lastPage) fun system =>
      tables system.vmm.pageTable ∧ Clear system := by
  constructor
  · rintro system virt phys flags description table' pmm' ⟨inside, clear⟩ ⟨present, other⟩ aligned
      physAligned done
    obtain ⟨_, leaves⟩ :=
      documented.maps _ _ _ _ _ _ _ inside present aligned physAligned phys.inBounds done
    refine ⟨documented.mapTo_inside inside present aligned physAligned phys.inBounds done, ?_, ?_⟩
    · refine (leaves lastPage).trans ?_
      rw [if_neg (not_samePage_last aligned other)]
      exact clear.1
    · intro region member
      rcases List.mem_append.mp member with old | new
      · exact clear.2 region old
      · obtain rfl := List.mem_singleton.mp new
        exact physAligned
  · rintro system virt phys flags reason table' pmm' ⟨inside, clear⟩ ⟨present, _⟩ aligned physAligned
      done
    have leaves :=
      documented.refuses _ _ _ _ _ _ _ _ inside present aligned physAligned phys.inBounds done
    refine ⟨documented.mapTo_inside inside present aligned physAligned phys.inBounds done, ?_, clear.2⟩
    exact (leaves lastPage).trans clear.1
  · rintro system virt phys table' ⟨inside, clear⟩ aligned done
    obtain ⟨_, leaves⟩ := documented.unmaps _ _ _ _ done
    refine ⟨documented.unmap_inside inside done, ?_, ?_⟩
    · refine (leaves lastPage).trans ?_
      split
      · rfl
      · exact clear.1
    · exact fun region member => clear.2 region (List.mem_filter.mp member).1
  · rintro system virt reason table' ⟨inside, clear⟩ done
    refine ⟨documented.unmap_inside inside done, ?_, clear.2⟩
    exact (documented.keeps _ _ _ _ done lastPage).trans clear.1
  · exact fun system holds => holds

theorem init_clear {table : PageTable 4} {vmm : VirtualMemoryManager}
    (started : VirtualMemoryManager.init table = some vmm) (precise : Exact (table.discover 0)) :
    vmm.pageTable.leaf lastPage = none ∧ Exact vmm.mappedRegions := by
  obtain ⟨rfl, _⟩ := init_discovered started
  refine ⟨?_, precise⟩
  cases leads : table.leaf lastPage with
  | none => exact leads
  | some leaf =>
      obtain ⟨lower, _⟩ := init_found started (show canonical lastPage = true by decide) leads
      exact absurd lower (by decide)

theorem bootTables_exact (memory : Memory) : Exact ((bootTables memory).discover 0) := by
  rw [bootTables_discover, Exact]
  decide

/-- In every state that a run of requests leads to, the regions and the tables agree exactly when the
last page is not mapped and each region starts at a multiple of its size; they agree all along a
run that never maps the last page. -/
theorem regions_agree_iff {mapper : Mapper} {tables : PageTable 4 → Prop}
    (documented : mapper.Documented tables fun flags => flags.present = true)
    (translates : ∀ table, tables table → ∀ virt, mapper.translateAddr table virt = table.translate virt)
    {table : PageTable 4} (inside : tables table) {system : System}
    (started : VirtualMemoryManager.init table = some system.vmm) (requests : List VmmRequest)
    (uses : ∀ request ∈ requests, request.Uses fun _ flags => flags.present = true) :
    (Agrees mapper ((vmmMachine mapper).final system requests).vmm ↔
      mapper.translateAddr ((vmmMachine mapper).final system requests).vmm.pageTable lastPage = none ∧
        Exact ((vmmMachine mapper).final system requests).vmm.mappedRegions) ∧
    (Exact (table.discover 0) →
      (∀ request ∈ requests, request.Uses fun page _ => page ≠ lastPage) →
      Agrees mapper ((vmmMachine mapper).final system requests).vmm) := by
  have start : tables system.vmm.pageTable := by
    rw [(init_discovered started).1]
    exact inside
  obtain ⟨reached, tracked⟩ :=
    (Tracked.stable documented).run ⟨start, discovered_tracked started⟩ requests uses
  have agrees := tracked.agrees_iff (translates _ reached)
  refine ⟨agrees, fun precise avoids => ?_⟩
  obtain ⟨_, unused, kept⟩ := (clear_stable documented).run ⟨start, init_clear started precise⟩ requests
    fun request member => (uses request member).and (avoids request member)
  refine agrees.mpr ⟨?_, kept⟩
  rw [translates _ reached, PageTable.translate, unused]
  rfl

def presentFlags : PageTableFlags where
  bits := 1
  noAddress := rfl
  inBounds := by decide

def bootSystem : System where
  kernel := idleKernel 20
  vmm := .discovered (bootTables idleMemory)
  identityWrites := []

/-- Tidy tables in which `translate_addr` finds what the processor finds. -/
def Plain (table : PageTable 4) : Prop := table.Tidy ∧ ∀ virt, table.found virt = table.leaf virt

theorem treeMapper_plain : treeMapper.Documented Plain fun flags => flags.present = true :=
  treeMapper_finds.agreeing treeMapper_documented

theorem Plain.translates {table : PageTable 4} (plain : Plain table) (virt : Nat) :
    treeMapper.translateAddr table virt = table.translate virt := by
  change (table.found virt).map _ = (table.leaf virt).map _
  rw [plain.2]

theorem bootTables_plain : Plain (bootTables idleMemory) :=
  ⟨bootTables_tidy idleMemory, PageTable.found_eq_leaf (bootTables_present idleMemory)⟩

theorem regions_agree_iff_boot :
    Agrees treeMapper ((vmmMachine treeMapper).final bootSystem
      [.mapPage ⟨0x40000000, by decide⟩ ⟨0x600000, by decide⟩ presentFlags]).vmm := by
  refine (regions_agree_iff treeMapper_plain (fun _ => Plain.translates) bootTables_plain
    (bootTables_init idleMemory) _ ?_).2 (bootTables_exact idleMemory) ?_
  · intro request member
    obtain rfl := List.mem_singleton.mp member
    exact (by decide : presentFlags.present = true)
  · intro request member
    obtain rfl := List.mem_singleton.mp member
    exact (by decide : 0x40000000 ≠ lastPage)

/-- A page mapped at the end of the address space is translated, but no region contains it. -/
theorem last_page_disagrees :
    VirtualMemoryManager.init (bootTables idleMemory) = some bootSystem.vmm ∧
    ¬Agrees treeMapper ((vmmMachine treeMapper).final bootSystem
      [.mapPage ⟨lastPage, by decide⟩ ⟨0x600000, by decide⟩ presentFlags]).vmm := by
  refine ⟨bootTables_init idleMemory, fun agrees => ?_⟩
  obtain ⟨plain, tracked⟩ := (Tracked.stable treeMapper_plain).run
    (show Plain bootSystem.vmm.pageTable ∧ Tracked bootSystem.vmm from
      ⟨bootTables_plain, discovered_tracked (bootTables_init idleMemory)⟩)
    [.mapPage ⟨lastPage, by decide⟩ ⟨0x600000, by decide⟩ presentFlags] (by
      intro request member
      obtain rfl := List.mem_singleton.mp member
      exact (by decide : presentFlags.present = true))
  have unused := ((tracked.agrees_iff plain.translates).mp agrees).1
  revert unused
  decide

end ArcadiaOs.Vmm
