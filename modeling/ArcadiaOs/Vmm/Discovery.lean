import ArcadiaOs.Lib.Coverage
import ArcadiaOs.Lib.Tally
import ArcadiaOs.Vmm.VmmCore
import Mathlib.Algebra.BigOperators.Group.List.Basic

/-!
The walks of the memory manager over whole tables against the walk of the processor: what
`discover_existing_mappings` lists is what the tables map, and `count_mapped_pages` counts
the pages that are mapped.
-/

namespace ArcadiaOs.Vmm

open Lib Memory Process

namespace PageTable

/-- The region stands for the leaf that the table gives every address in it. -/
structure Listed {level : Nat} (table : PageTable level) (base : Nat) (region : MappedRegion) :
    Prop where
  present : region.flags.present = true
  size : ∃ height < level, region.size = pageSize height
  start : region.virtualAddr % region.size = 0
  above : base ≤ region.virtualAddr
  below : region.virtualAddr + region.size ≤ base + pageSize level
  leaves : ∀ virt, region.virtualAddr ≤ virt → virt < region.virtualAddr + region.size →
    table.leaf virt = some ⟨region.physicalAddr / region.size * region.size, region.size⟩

theorem flagsOf_present (entry : PageTableEntry) : (flagsOf entry).present = entry.present := by
  simp only [PageTableFlags.present, flagsOf, PageTableEntry.present, Nat.testBit_zero,
    decide_eq_decide]
  omega

theorem tableIndex_part {level base index virt : Nat} (start : base % pageSize (level + 1) = 0)
    (bound : index < 512) (above : base + index * pageSize level ≤ virt)
    (below : virt < base + index * pageSize level + pageSize level) :
    tableIndex level virt = index := by
  obtain ⟨count, rfl⟩ := Nat.dvd_of_mod_eq_zero start
  rw [pageSize_succ] at above below
  have quotient : virt / pageSize level = 512 * count + index := by
    have high : (512 * count + index + 1) * pageSize level =
        pageSize level * 512 * count + index * pageSize level + pageSize level := by
      rw [Nat.add_mul, Nat.add_mul, Nat.one_mul, Nat.mul_comm (pageSize level) 512, Nat.mul_assoc,
        Nat.mul_assoc, Nat.mul_comm (pageSize level) count]
    have low : (512 * count + index) * pageSize level =
        pageSize level * 512 * count + index * pageSize level := by
      rw [Nat.add_mul, Nat.mul_comm (pageSize level) 512, Nat.mul_assoc, Nat.mul_assoc,
        Nat.mul_comm (pageSize level) count]
    refine Nat.div_eq_of_lt_le ?_ ?_
    · omega
    · rw [high]
      omega
  rw [tableIndex, quotient]
  omega

theorem part_aligned {level base : Nat} (index : Nat) (start : base % pageSize (level + 1) = 0) :
    (base + index * pageSize level) % pageSize level = 0 := by
  have divides : pageSize level ∣ base := by
    rw [pageSize_succ] at start
    exact Nat.dvd_trans (Nat.dvd_mul_right _ _) (Nat.dvd_of_mod_eq_zero start)
  exact Nat.mod_eq_zero_of_dvd (Nat.dvd_add divides (Nat.dvd_mul_left _ _))

theorem part_inside {level base index : Nat} (bound : index < 512) :
    base + index * pageSize level + pageSize level ≤ base + pageSize (level + 1) := by
  rw [pageSize_succ, Nat.add_assoc, ← Nat.succ_mul, Nat.mul_comm (pageSize level) 512]
  exact Nat.add_le_add_left (Nat.mul_le_mul_right _ bound) base

theorem discover_sound {level : Nat} (table : PageTable level) {base : Nat} {region : MappedRegion}
    (start : base % pageSize level = 0) (member : region ∈ table.discover base) :
    table.Listed base region := by
  induction table generalizing base with
  | frame => cases member
  | @table level entry next ih =>
      rw [discover, List.mem_flatMap] at member
      obtain ⟨index, inside, listed⟩ := member
      have bound := List.mem_range.mp inside
      have within : base + index * pageSize level + pageSize level ≤ base + pageSize (level + 1) :=
        part_inside bound
      split at listed
      · cases listed
      rename_i present
      rw [Bool.not_eq_true', Bool.not_eq_false] at present
      split at listed
      · rename_i maps
        obtain rfl := List.mem_singleton.mp listed
        refine ⟨(flagsOf_present _).trans present, ⟨level, Nat.lt_succ_self level, rfl⟩,
          part_aligned index start, Nat.le_add_right _ _, within, fun virt above below => ?_⟩
        have here := tableIndex_part start bound above below
        rw [leaf, here, present, maps]
        rfl
      · rename_i leads
        have below := ih index (part_aligned index start) listed
        obtain ⟨height, lower, size⟩ := below.size
        have low := below.above
        have high := below.below
        refine ⟨below.present, ⟨height, Nat.lt_succ_of_lt lower, size⟩, below.start, by omega,
          by omega, fun virt above under => ?_⟩
        have here := tableIndex_part start bound (show _ ≤ virt by omega) (by omega)
        rw [leaf, here, present, if_neg leads]
        exact below.leaves virt above under

theorem discover_complete {level virt : Nat} (table : PageTable level) {found : Leaf}
    (leads : table.leaf virt = some found) :
    ∃ region ∈ table.discover (virt / pageSize level * pageSize level),
      region.virtualAddr ≤ virt ∧ virt < region.virtualAddr + region.size := by
  induction table with
  | frame => cases leads
  | @table level entry next ih =>
      have positive := pageSize_pos level
      have part : virt / pageSize (level + 1) * pageSize (level + 1) +
          tableIndex level virt * pageSize level = virt / pageSize level * pageSize level := by
        rw [tableIndex, pageSize_succ, ← Nat.div_div_eq_div_mul, Nat.mul_comm (pageSize level) 512,
          ← Nat.mul_assoc, ← Nat.add_mul]
        congr 1
        omega
      have inPart := Nat.div_add_mod' virt (pageSize level)
      have rest := Nat.mod_lt virt positive
      rw [leaf] at leads
      split at leads
      · cases leads
      rename_i present
      simp only [discover, List.mem_flatMap, List.mem_range]
      split at leads
      · rename_i maps
        refine ⟨discoveredRegion level (virt / pageSize level * pageSize level)
          (entry (tableIndex level virt)), ⟨tableIndex level virt, tableIndex_lt level virt, ?_⟩, ?_⟩
        · rw [if_neg present, if_pos maps, part]
          exact List.mem_singleton_self _
        · simp only [discoveredRegion]
          omega
      · rename_i leadsOn
        obtain ⟨region, member, covers⟩ := ih _ leads
        refine ⟨region, ⟨tableIndex level virt, tableIndex_lt level virt, ?_⟩, covers⟩
        rw [if_neg present, if_neg leadsOn, part]
        exact member

theorem discover_apart {level : Nat} (table : PageTable level) {base : Nat}
    (start : base % pageSize level = 0) :
    Apartness (fun (region : MappedRegion) virt =>
      region.virtualAddr ≤ virt ∧ virt < region.virtualAddr + region.size) (table.discover base) := by
  induction table generalizing base with
  | frame => exact List.Pairwise.nil
  | @table level entry next ih =>
      rw [discover, Apartness, List.pairwise_flatMap]
      refine ⟨fun index inside => ?_, ?_⟩
      · split
        · exact List.Pairwise.nil
        split
        · exact List.pairwise_singleton _ _
        · exact ih index (part_aligned index start)
      · have spans : ∀ {index : Nat} {region : MappedRegion},
            region ∈ (if !(entry index).present then []
              else if mapsPage level (entry index) then
                [discoveredRegion level (base + index * pageSize level) (entry index)]
              else (next index).discover (base + index * pageSize level)) →
            base + index * pageSize level ≤ region.virtualAddr ∧
              region.virtualAddr + region.size ≤ base + (index + 1) * pageSize level := by
          intro index region listed
          rw [Nat.add_mul, Nat.one_mul, ← Nat.add_assoc]
          split at listed
          · cases listed
          split at listed
          · obtain rfl := List.mem_singleton.mp listed
            exact ⟨Nat.le_refl _, Nat.le_refl _⟩
          · have found := discover_sound _ (part_aligned index start) listed
            exact ⟨found.above, found.below⟩
        refine List.Pairwise.imp ?_ (List.pairwise_lt_range (n := 512))
        intro index later before left listed right listedLater virt covered other
        have low := spans listed
        have high := spans listedLater
        have between := Nat.mul_le_mul_right (pageSize level) (Nat.succ_le_of_lt before)
        rw [Nat.succ_eq_add_one] at between
        omega

/-! The number of mapped pages. -/

theorem discover_pages {level : Nat} (table : PageTable level) (base : Nat) :
    ((table.discover base).map fun region => region.size / vmmPageSize).sum =
      table.countMappedPages := by
  induction table generalizing base with
  | frame => rfl
  | @table level entry next ih =>
      rw [discover, countMappedPages, List.flatMap_def, List.map_flatten, List.sum_flatten,
        List.map_map, List.map_map]
      refine congrArg List.sum (List.map_congr_left fun index _ => ?_)
      simp only [Function.comp_apply]
      split
      · rfl
      split
      · rw [List.map_singleton, List.sum_singleton, discoveredRegion, pageSize, vmmPageSize,
          Nat.mul_div_cancel_left _ (by decide)]
      · exact ih index _

def Mapped {level : Nat} (table : PageTable level) (number : Nat) : Prop :=
  (table.leaf (number * 4096)).isSome = true

instance {level : Nat} (table : PageTable level) : DecidablePred table.Mapped :=
  fun _ => inferInstanceAs (Decidable (_ = true))

theorem countMappedPages_eq {level : Nat} (table : PageTable level) :
    table.countMappedPages = Nat.count table.Mapped (512 ^ level) := by
  induction table with
  | frame => rfl
  | @table level entry next ih =>
      have positive : 0 < 512 ^ level := Nat.pow_pos (by decide)
      rw [countMappedPages, Nat.pow_succ, Nat.mul_comm, count_blocks]
      refine congrArg List.sum (List.map_congr_left fun index inside => ?_)
      have bound := List.mem_range.mp inside
      have here : ∀ offset < 512 ^ level,
          tableIndex level ((index * 512 ^ level + offset) * 4096) = index := by
        intro offset below
        rw [tableIndex_eq, Nat.mul_div_cancel _ (by decide), Nat.mul_comm index,
          Nat.mul_add_div positive, Nat.div_eq_of_lt below, Nat.add_zero, Nat.mod_eq_of_lt bound]
      split
      · rename_i absent
        symm
        refine Nat.count_iff_forall_not.mpr fun offset below => ?_
        rw [Mapped, leaf, here offset below, if_pos absent]
        exact Bool.false_ne_true
      rename_i present
      split
      · rename_i maps
        symm
        refine Nat.count_iff_forall.mpr fun offset below => ?_
        rw [Mapped, leaf, here offset below, if_neg present, if_pos maps]
        rfl
      · rename_i leads
        rw [ih index]
        refine count_congr fun offset below => ?_
        have same : SamePage level ((index * 512 ^ level + offset) * 4096) (offset * 4096) := by
          rw [SamePage, Nat.mul_div_cancel _ (by decide), Nat.mul_div_cancel _ (by decide),
            Nat.mul_comm index, Nat.mul_add_mod]
        rw [Mapped, Mapped, leaf, here offset below, if_neg present, if_neg leads,
          (next index).leaf_congr same]

end PageTable

/-! The boot tables. -/

theorem flatMap_range_short {α : Type} {part : Nat → List α} {count total : Nat} (le : count ≤ total)
    (short : ∀ index, count ≤ index → index < total → part index = []) :
    (List.range total).flatMap part = (List.range count).flatMap part := by
  obtain ⟨rest, rfl⟩ := Nat.exists_eq_add_of_le le
  rw [List.range_add, List.flatMap_append]
  refine List.append_right_eq_self.mpr (List.flatMap_eq_nil_iff.mpr fun index member => ?_)
  obtain ⟨offset, inside, rfl⟩ := List.mem_map.mp member
  exact short _ (Nat.le_add_right _ _) (by have := List.mem_range.mp inside; omega)

theorem discover_read (memory : Memory) (level address base : Nat) :
    (PageTable.read memory (level + 1) address).discover base =
      (List.range 512).flatMap fun index =>
        if !(tableEntry memory address index).present then []
        else if mapsPage level (tableEntry memory address index) then
          [PageTable.discoveredRegion level (base + index * pageSize level)
            (tableEntry memory address index)]
        else (PageTable.read memory level (tableEntry memory address index).addr).discover
          (base + index * pageSize level) := by
  rw [PageTable.read, PageTable.discover]

/-- The three 2 MiB pages of `boot64.asm`. -/
def bootRegions : List MappedRegion :=
  [PageTable.discoveredRegion 1 0 ⟨0x83⟩,
   PageTable.discoveredRegion 1 0x200000 ⟨0x200083⟩,
   PageTable.discoveredRegion 1 0x400000 ⟨0x400083⟩]

theorem bootTables_discover (memory : Memory) : (bootTables memory).discover 0 = bootRegions := by
  have unused : ∀ {address index : Nat}, address ∈ [0x1000, 0x2000, 0x3000] → index < 512 →
      (∀ write ∈ bootEntries, write.1 ≠ address + 8 * index) →
      (!(tableEntry (bootMemory memory) address index).present) = true := by
    intro address index known bound other
    rw [bootEntry_unused memory known bound other]
    rfl
  have entry4 : tableEntry (bootMemory memory) 0x1000 0 = ⟨0x2003⟩ := bootEntry_used memory (by decide)
  have entry3 : tableEntry (bootMemory memory) 0x2000 0 = ⟨0x3003⟩ := bootEntry_used memory (by decide)
  have first2 : tableEntry (bootMemory memory) 0x3000 0 = ⟨0x83⟩ := bootEntry_used memory (by decide)
  have second2 : tableEntry (bootMemory memory) 0x3000 1 = ⟨0x200083⟩ :=
    bootEntry_used memory (by decide)
  have third2 : tableEntry (bootMemory memory) 0x3000 2 = ⟨0x400083⟩ :=
    bootEntry_used memory (by decide)
  have root : (bootTables memory).discover 0 =
      (PageTable.read (bootMemory memory) 3 0x2000).discover 0 := by
    rw [bootTables, discover_read, flatMap_range_short (show 1 ≤ 512 by decide)]
    · rw [List.range_one, List.flatMap_singleton, entry4, if_neg (by decide), if_neg (by decide),
        Nat.zero_mul, Nat.add_zero, show (PageTableEntry.mk 0x2003).addr = 0x2000 from rfl]
    · intro index above below
      rw [if_pos (unused (by simp) below ?_)]
      simp only [bootEntries, List.forall_mem_cons, List.not_mem_nil, IsEmpty.forall_iff,
        implies_true, and_true]
      omega
  have middle : (PageTable.read (bootMemory memory) 3 0x2000).discover 0 =
      (PageTable.read (bootMemory memory) 2 0x3000).discover 0 := by
    rw [discover_read, flatMap_range_short (show 1 ≤ 512 by decide)]
    · rw [List.range_one, List.flatMap_singleton, entry3, if_neg (by decide), if_neg (by decide),
        Nat.zero_mul, Nat.add_zero, show (PageTableEntry.mk 0x3003).addr = 0x3000 from rfl]
    · intro index above below
      rw [if_pos (unused (by simp) below ?_)]
      simp only [bootEntries, List.forall_mem_cons, List.not_mem_nil, IsEmpty.forall_iff,
        implies_true, and_true]
      omega
  rw [root, middle, discover_read, flatMap_range_short (show 3 ≤ 512 by decide)]
  · rw [show List.range 3 = [0, 1, 2] from rfl, List.flatMap_cons, List.flatMap_cons,
      List.flatMap_singleton, first2, second2, third2]
    rfl
  · intro index above below
    rw [if_pos (unused (by simp) below ?_)]
    simp only [bootEntries, List.forall_mem_cons, List.not_mem_nil, IsEmpty.forall_iff,
      implies_true, and_true]
    omega

theorem bootTables_init (memory : Memory) : VirtualMemoryManager.init (bootTables memory) =
    some (.discovered (bootTables memory)) := by
  rw [VirtualMemoryManager.init, bootTables_discover, if_pos (by decide)]

end ArcadiaOs.Vmm
