import ArcadiaOs.Vmm.Agreement

/-!
The page statistics of the memory manager.  The counters of `record` and `forget` follow
the number of mapped pages in the tables, whatever a request does and however it ends.
-/

namespace ArcadiaOs.Vmm

open Lib Memory Process

/-- The statistics count the mapped pages of the tables. -/
structure Accounted (vmm : VirtualMemoryManager) : Prop where
  pages : vmm.stats.totalMappedPages = vmm.pageTable.countMappedPages
  bytes : vmm.stats.totalMappedBytes = 4096 * vmm.pageTable.countMappedPages

namespace PageTable

theorem countMappedPages_le {level : Nat} (table : PageTable level) :
    table.countMappedPages ≤ 512 ^ level := by
  rw [countMappedPages_eq]
  exact Nat.count_le _

theorem countMappedPages_congr {level : Nat} {table table' : PageTable level}
    (same : ∀ virt, table'.leaf virt = table.leaf virt) :
    table'.countMappedPages = table.countMappedPages := by
  rw [countMappedPages_eq, countMappedPages_eq]
  apply count_congr
  intro number inside
  rw [Mapped, Mapped, same]

theorem samePage_number {level number page : Nat} (inside : number < 512 ^ level) :
    SamePage level (number * 4096) page ↔ number = page / 4096 % 512 ^ level := by
  rw [SamePage, Nat.mul_div_cancel _ (by decide), Nat.mod_eq_of_lt inside]

theorem countMappedPages_joined {level page : Nat} {table table' : PageTable level} {leaf : Leaf}
    (unused : table.leaf page = none)
    (leaves : ∀ virt, table'.leaf virt = if SamePage level virt page then some leaf else table.leaf virt) :
    table'.countMappedPages = table.countMappedPages + 1 := by
  have bound : page / 4096 % 512 ^ level < 512 ^ level := Nat.mod_lt _ (Nat.pow_pos (by decide))
  rw [countMappedPages_eq, countMappedPages_eq]
  refine count_gain {page / 4096 % 512 ^ level} ?_ ?_
  · intro number inside
    rw [Finset.mem_singleton, Mapped, Mapped, leaves, ← samePage_number inside]
    by_cases same : SamePage level (number * 4096) page
    · rw [if_pos same]
      exact iff_of_true rfl (.inl same)
    · rw [if_neg same]
      exact ⟨.inr, fun holds => holds.resolve_left same⟩
  · intro number member
    obtain rfl := Finset.mem_singleton.mp member
    refine ⟨bound, ?_⟩
    rw [Mapped, table.leaf_congr ((samePage_number bound).mpr rfl), unused]
    exact Bool.false_ne_true

theorem countMappedPages_left {level page : Nat} {table table' : PageTable level} {leaf : Leaf}
    (mapped : table.leaf page = some leaf)
    (leaves : ∀ virt, table'.leaf virt = if SamePage level virt page then none else table.leaf virt) :
    table.countMappedPages = table'.countMappedPages + 1 := by
  refine @countMappedPages_joined level page table' table leaf ?_ ?_
  · exact (leaves page).trans (if_pos (Eq.refl _))
  · intro virt
    split
    · rename_i same
      exact (table.leaf_congr same).trans mapped
    · rename_i apart
      rw [leaves, if_neg apart]

end PageTable

theorem discovered_accounted (table : PageTable 4) : Accounted (.discovered table) := by
  have pages := table.discover_pages 0
  constructor
  · exact pages
  · exact (Nat.mul_comm _ _).trans (congrArg (4096 * ·) pages)

theorem count_small (table : PageTable 4) :
    wrap64 table.countMappedPages = table.countMappedPages ∧
      wrap64 (4096 * table.countMappedPages) = 4096 * table.countMappedPages := by
  have bound := table.countMappedPages_le
  rw [wrap64_eq, wrap64_eq]
  omega

theorem Accounted.stable {mapper : Mapper} {tables : PageTable 4 → Prop}
    (documented : mapper.Documented tables fun flags => flags.present = true) :
    Stable mapper (fun _ flags => flags.present = true) fun system =>
      tables system.vmm.pageTable ∧ Accounted system.vmm := by
  constructor
  · rintro system virt phys flags description table' pmm' ⟨inside, accounted⟩ present aligned
      physAligned done
    obtain ⟨unused, leaves⟩ :=
      documented.maps _ _ _ _ _ _ _ inside present aligned physAligned phys.inBounds done
    have joined : table'.countMappedPages = system.vmm.pageTable.countMappedPages + 1 := by
      apply @PageTable.countMappedPages_joined _ _ _ _ ⟨phys.asU64, 4096⟩ unused
      intro virt
      rw [leaves, present]
      rfl
    obtain ⟨pages, bytes⟩ := count_small table'
    refine ⟨documented.mapTo_inside inside present aligned physAligned phys.inBounds done, ?_, ?_⟩
    · change wrap64 (system.vmm.stats.totalMappedPages + 1) = table'.countMappedPages
      rw [accounted.pages, ← joined, pages]
    · change wrap64 (system.vmm.stats.totalMappedBytes + vmmPageSize) = 4096 * table'.countMappedPages
      rw [accounted.bytes, ← bytes, joined]
      rfl
  · rintro system virt phys flags reason table' pmm' ⟨inside, accounted⟩ present aligned physAligned
      done
    have leaves :=
      documented.refuses _ _ _ _ _ _ _ _ inside present aligned physAligned phys.inBounds done
    have same := PageTable.countMappedPages_congr leaves
    refine ⟨documented.mapTo_inside inside present aligned physAligned phys.inBounds done, ?_⟩
    exact ⟨accounted.pages.trans same.symm, accounted.bytes.trans (congrArg (4096 * ·) same.symm)⟩
  · rintro system virt phys table' ⟨inside, accounted⟩ aligned done
    obtain ⟨mapped, leaves⟩ := documented.unmaps _ _ _ _ done
    have left := PageTable.countMappedPages_left mapped leaves
    refine ⟨documented.unmap_inside inside done, ?_, ?_⟩
    · change system.vmm.stats.totalMappedPages - 1 = table'.countMappedPages
      rw [accounted.pages, left, Nat.add_sub_cancel]
    · change system.vmm.stats.totalMappedBytes - vmmPageSize = 4096 * table'.countMappedPages
      rw [accounted.bytes, left, Nat.mul_succ, vmmPageSize, Nat.add_sub_cancel]
  · rintro system virt reason table' ⟨inside, accounted⟩ done
    have same := PageTable.countMappedPages_congr (documented.keeps _ _ _ _ done)
    refine ⟨documented.unmap_inside inside done, ?_⟩
    exact ⟨accounted.pages.trans same.symm, accounted.bytes.trans (congrArg (4096 * ·) same.symm)⟩
  · rintro system ⟨inside, accounted⟩
    exact ⟨inside, accounted.pages, accounted.bytes⟩

/-- In every state that a run of requests leads to, successful or not, the statistics are the number
of mapped pages and their size, and `validate` finds them right. -/
theorem page_accounting {mapper : Mapper} {tables : PageTable 4 → Prop}
    (documented : mapper.Documented tables fun flags => flags.present = true) {table : PageTable 4}
    (inside : tables table) {system : System} (started : VirtualMemoryManager.init table = some system.vmm)
    (requests : List VmmRequest)
    (uses : ∀ request ∈ requests, request.Uses fun _ flags => flags.present = true) :
    Accounted ((vmmMachine mapper).final system requests).vmm ∧
      ((vmmMachine mapper).final system requests).vmm.validate = true := by
  have initially : tables system.vmm.pageTable ∧ Accounted system.vmm := by
    obtain ⟨discovered, _⟩ := init_discovered started
    rw [discovered]
    exact ⟨inside, discovered_accounted table⟩
  obtain ⟨_, accounted⟩ := (Accounted.stable documented).run initially requests uses
  exact ⟨accounted, beq_iff_eq.mpr accounted.pages.symm⟩

theorem page_accounting_boot :
    Accounted ((vmmMachine treeMapper).final bootSystem
      [.mapPage ⟨0x40000000, by decide⟩ ⟨0x600000, by decide⟩ presentFlags,
        .unmapPage ⟨0x200000, by decide⟩]).vmm := by
  refine (page_accounting (treeMapper_documented.restrict fun _ _ => trivial)
    (bootTables_tidy idleMemory) (bootTables_init idleMemory) _ ?_).1
  simp only [List.forall_mem_cons]
  exact ⟨(by decide : presentFlags.present = true), trivial, fun _ member => absurd member List.not_mem_nil⟩

end ArcadiaOs.Vmm
