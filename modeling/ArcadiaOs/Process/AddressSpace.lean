import ArcadiaOs.Process.Mapper

/-!
Well-formed page tables under `map_to`: every table is used at one level, lies in a
reserved frame and keeps its entries, up to flags, when another page is mapped.
-/

namespace ArcadiaOs.Process

open Lib Memory PhysicalFrameAllocator

namespace PageTableEntry

theorem addr_or {bits flags : Nat} (small : flags < 4096) :
    (PageTableEntry.mk (bits ||| flags)).addr = (PageTableEntry.mk bits).addr := by
  have split : (bits ||| flags) >>> 12 = bits >>> 12 ||| flags >>> 12 :=
    Nat.shiftRight_or_distrib
  simp only [Nat.shiftRight_eq_div_pow, Nat.div_eq_of_lt (show flags < 2 ^ 12 from small),
    Nat.or_zero] at split
  simp only [addr, show (4096 : Nat) = 2 ^ 12 from rfl, split]

theorem present_or (bits flags : Nat) (present : (PageTableEntry.mk bits).present = true) :
    (PageTableEntry.mk (bits ||| flags)).present = true := by
  simp only [PageTableEntry.present] at present ⊢
  rw [Nat.testBit_or, present, Bool.true_or]

theorem hugePage_or {bits flags : Nat} (small : flags < 8) :
    (PageTableEntry.mk (bits ||| flags)).hugePage = (PageTableEntry.mk bits).hugePage := by
  simp only [hugePage]
  rw [Nat.testBit_or, Nat.testBit_lt_two_pow (x := flags) (by omega), Bool.or_false]

theorem bits_ne_zero {entry : PageTableEntry} (present : entry.present = true) :
    entry.bits ≠ 0 := by
  intro zero
  rw [PageTableEntry.present, zero, Nat.zero_testBit] at present
  cases present

end PageTableEntry

theorem add_eq_or {table flags : Nat} (aligned : table % 4096 = 0) (small : flags < 4096) :
    table + flags = table ||| flags := by
  obtain ⟨frame, rfl⟩ := Nat.dvd_of_mod_eq_zero aligned
  exact Nat.two_pow_add_eq_or_of_lt (i := 12) small frame

theorem testBit_aligned {table bit : Nat} (aligned : table % 4096 = 0) (low : bit < 12) :
    table.testBit bit = false := by
  obtain ⟨frame, rfl⟩ := Nat.dvd_of_mod_eq_zero aligned
  rw [show 4096 * frame = 2 ^ 12 * frame from rfl, Nat.testBit_two_pow_mul]
  simp only [ge_iff_le, Nat.not_le.mpr low, decide_false, Bool.false_and]

theorem p4Index_lt (addr : Nat) : p4Index addr < 512 := Nat.mod_lt _ (by decide)
theorem p3Index_lt (addr : Nat) : p3Index addr < 512 := Nat.mod_lt _ (by decide)
theorem p2Index_lt (addr : Nat) : p2Index addr < 512 := Nat.mod_lt _ (by decide)
theorem p1Index_lt (addr : Nat) : p1Index addr < 512 := Nat.mod_lt _ (by decide)

/-- The entry maps or leads to the target, for Ring 3 too. -/
structure Open (entry : PageTableEntry) (target : Nat) : Prop where
  present : entry.present = true
  user : entry.userAccessible = true
  small : entry.hugePage = false
  addr : entry.addr = target

structure Leads (memory : Memory) (pml4 page frame table3 table2 table1 : Nat) : Prop where
  entry4 : Open (entryAt memory (slot4 pml4 page)) table3
  entry3 : Open (entryAt memory (slot3 table3 page)) table2
  entry2 : Open (entryAt memory (slot2 table2 page)) table1
  entry1 : Open (entryAt memory (slot1 table1 page)) frame

theorem slot_apart {table other index index' : Nat} (aligned : table % 4096 = 0)
    (otherAligned : other % 4096 = 0) (bound : index < 512) (bound' : index' < 512) :
    (table = other ∧ index = index') ∨ table + 8 * index + 8 ≤ other + 8 * index' ∨
      other + 8 * index' + 8 ≤ table + 8 * index := by omega

theorem slot_frame {table index place : Nat} (aligned : table % 4096 = 0) (bound : index < 512)
    (above : table + 8 * index ≤ place) (inside : place < table + 8 * index + 8) :
    place / 4096 * 4096 = table := by omega

theorem cleared_taken (memory : Memory) {taken : List Nat} {table index : Nat}
    (aligned : table % 4096 = 0) (bound : index < 512) (member : table ∈ taken) :
    (cleared memory taken).readU64 (table + 8 * index) = 0 :=
  Memory.readU64_zero fun place above inside => by
    rw [cleared, slot_frame aligned bound above inside, if_pos member]

theorem cleared_other (memory : Memory) {taken : List Nat} {table index : Nat}
    (aligned : table % 4096 = 0) (bound : index < 512) (apart : table ∉ taken) :
    (cleared memory taken).readU64 (table + 8 * index) = memory.readU64 (table + 8 * index) :=
  Memory.readU64_congr fun place above inside => by
    rw [cleared, slot_frame aligned bound above inside, if_neg apart]

section Link

variable {before after : Memory} {taken : List Nat} {flags slot table : Nat}

theorem open_new {flags : Nat} (aligned : table % 4096 = 0) (bound : table < 2 ^ 52)
    (small : flags < 8) (present : flags.testBit 0 = true) :
    (PageTableEntry.mk (table + flags)).present = true ∧
      (PageTableEntry.mk (table + flags)).hugePage = false ∧
      (PageTableEntry.mk (table + flags)).addr = table ∧
      (PageTableEntry.mk (table + flags)).userAccessible = flags.testBit 2 := by
  rw [add_eq_or aligned (by omega)]
  refine ⟨?_, ?_, ?_, ?_⟩
  · simp only [PageTableEntry.present]
    rw [Nat.testBit_or, present, Bool.or_true]
  · rw [PageTableEntry.hugePage_or small, PageTableEntry.hugePage,
      testBit_aligned aligned (by omega)]
  · rw [PageTableEntry.addr_or (by omega)]
    simp only [PageTableEntry.addr]
    omega
  · simp only [PageTableEntry.userAccessible]
    rw [Nat.testBit_or, testBit_aligned aligned (by omega), Bool.false_or]

theorem Link.opens (link : Link before taken after flags slot table) (small : flags < 8)
    (present : flags.testBit 0 = true)
    (fresh : table ∈ taken → table % 4096 = 0 ∧ table < 2 ^ 52) :
    (entryAt after slot).present = true ∧ (entryAt after slot).hugePage = false ∧
      (entryAt after slot).addr = table ∧
      (flags.testBit 2 = true → (entryAt after slot).userAccessible = true) := by
  rcases link with ⟨_, member, entry⟩ | ⟨held, small', addr, entry⟩
  · obtain ⟨aligned, bound⟩ := fresh member
    have opened := open_new aligned bound small present
    rw [entryAt, entry]
    exact ⟨opened.1, opened.2.1, opened.2.2.1, fun user => opened.2.2.2.trans user⟩
  · rw [entryAt, entry]
    refine ⟨PageTableEntry.present_or _ _ held, ?_, ?_, fun user => ?_⟩
    · rw [PageTableEntry.hugePage_or small]
      exact small'
    · rw [PageTableEntry.addr_or (by omega)]
      exact addr
    · simp only [PageTableEntry.userAccessible]
      rw [Nat.testBit_or, user, Bool.or_true]

theorem Link.keeps (link : Link before taken after flags slot table)
    (used : before.readU64 slot ≠ 0) : after.readU64 slot = before.readU64 slot ||| flags := by
  rcases link with ⟨zero, _⟩ | ⟨_, _, _, entry⟩
  · exact absurd zero used
  · exact entry

end Link

section Map

variable {covers : Nat → Prop} {level : Nat → Nat} {pml4 page : Nat} {memory memory' : Memory}
  {pmm pmm' : PhysicalFrameAllocator}

theorem Tables.not_taken (tables : Tables covers level pml4 memory pmm) (count : Nat) {table : Nat}
    (known : level table ≠ 0) : table ∉ grants count pmm := by
  intro member
  obtain ⟨_, _, _, _, _, free⟩ := mem_grants member
  have held := tables.reserved table known
  rw [show table / 4096 = table / frameSize from rfl, free tables.sound] at held
  cases held

/-- The levels after a page has been mapped: the new tables on its path have theirs. -/
def extended (level : Nat → Nat) (taken : List Nat) (table3 table2 table1 : Nat) : Nat → Nat :=
  fun table =>
    if table ∈ taken then
      if table = table3 then 3 else if table = table2 then 2 else if table = table1 then 1 else 0
    else level table

/-- What mapping a page does to an address space. -/
structure Mapped (covers : Nat → Prop) (level : Nat → Nat) (pml4 : Nat) (memory : Memory)
    (pmm : PhysicalFrameAllocator) (page frame flags : Nat) (memory' : Memory)
    (pmm' : PhysicalFrameAllocator) (level' : Nat → Nat) : Prop where
  tables : Tables covers level' pml4 memory' pmm'
  grown : Grown pmm pmm'
  levels : ∀ table, level table ≠ 0 → level' table = level table
  fresh : ∀ table, level table = 0 → level' table ≠ 0 → pmm.nextFree ≤ table / 4096 ∧
    table / 4096 < pmm'.nextFree ∧ pmm.isFrameReserved (table / 4096) = false
  slots : ∀ table index, level table ≠ 0 → index < 512 → memory.readU64 (table + 8 * index) ≠ 0 →
    ∃ added < 8, memory'.readU64 (table + 8 * index) = memory.readU64 (table + 8 * index) ||| added
  root : ∀ index, index < 512 → index ≠ p4Index page →
    memory'.readU64 (pml4 + 8 * index) = memory.readU64 (pml4 + 8 * index)
  quiet : ∀ place, pmm.isFrameReserved (place / 4096) = true → level (place / 4096 * 4096) = 0 →
    memory' place = memory place
  leads : flags.testBit 2 = true → ∃ table3 table2 table1,
    (level' table3 ≠ 0 ∧ level' table2 ≠ 0 ∧ level' table1 ≠ 0) ∧
    Leads memory' pml4 page frame table3 table2 table1

theorem Tables.step (tables : Tables covers level pml4 memory pmm) {count : Nat}
    {flags table index next height : Nat} {memory' : Memory}
    (here : table ∈ grants count pmm ∨ table ∉ grants count pmm ∧ level table = height + 1)
    (low : 1 ≤ height) (bound : index < 512) (scope : table = pml4 → covers index)
    (link : Link (cleared memory (grants count pmm)) (grants count pmm) memory' flags
      (table + 8 * index) next) :
    next ∈ grants count pmm ∨ next ∉ grants count pmm ∧ level next = height := by
  rcases link with ⟨_, member, _⟩ | ⟨held, small, addr, _⟩
  · exact .inl member
  rcases here with new | ⟨old, high⟩
  · have zero := cleared_taken memory (mem_grants new).1 bound new
    rw [entryAt, zero, PageTableEntry.present, Nat.zero_testBit] at held
    cases held
  · have aligned := tables.aligned table (by omega)
    have same := cleared_other memory aligned bound old
    rw [entryAt, same] at held small addr
    rcases tables.entries table index (by omega) bound scope with unused | ⟨_, huge | typed⟩
    · exact absurd unused (PageTableEntry.bits_ne_zero held)
    · rw [entryAt, small] at huge
      cases huge
    · rw [entryAt, addr, high] at typed
      exact .inr ⟨tables.not_taken count (by omega), by omega⟩

section Maps

variable {count frame flags table3 table2 table1 : Nat}
  (tables : Tables covers level pml4 memory pmm) (covered : covers (p4Index page))
  (maps : Maps memory (grants count pmm) memory' pml4 page frame flags table3 table2 table1)
include tables covered maps

theorem Tables.path_levels :
    (table3 ∈ grants count pmm ∨ table3 ∉ grants count pmm ∧ level table3 = 3) ∧
      (table2 ∈ grants count pmm ∨ table2 ∉ grants count pmm ∧ level table2 = 2) ∧
      (table1 ∈ grants count pmm ∨ table1 ∉ grants count pmm ∧ level table1 = 1) := by
  have root := (tables.root pml4).mpr rfl
  have inner : ∀ {table height index : Nat}, height ≠ 4 →
      (table ∈ grants count pmm ∨ table ∉ grants count pmm ∧ level table = height) →
      table = pml4 → covers index := by
    intro table height index other here same
    subst same
    rcases here with new | ⟨_, high⟩
    · exact absurd new (tables.not_taken count (by omega))
    · omega
  have step3 : table3 ∈ grants count pmm ∨ table3 ∉ grants count pmm ∧ level table3 = 3 :=
    tables.step (.inr ⟨tables.not_taken count (by omega), root⟩) (by decide) (p4Index_lt page)
      (fun _ => covered) maps.link4
  have step2 : table2 ∈ grants count pmm ∨ table2 ∉ grants count pmm ∧ level table2 = 2 :=
    tables.step step3 (by decide) (p3Index_lt page) (inner (by decide) step3) maps.link3
  have step1 : table1 ∈ grants count pmm ∨ table1 ∉ grants count pmm ∧ level table1 = 1 :=
    tables.step step2 (by decide) (p2Index_lt page) (inner (by decide) step2) maps.link2
  exact ⟨step3, step2, step1⟩

theorem Tables.extended_levels :
    extended level (grants count pmm) table3 table2 table1 table3 = 3 ∧
      extended level (grants count pmm) table3 table2 table1 table2 = 2 ∧
      extended level (grants count pmm) table3 table2 table1 table1 = 1 := by
  obtain ⟨step3, step2, step1⟩ := tables.path_levels covered maps
  refine ⟨?_, ?_, ?_⟩
  · rcases step3 with new | ⟨old, high⟩
    · rw [extended, if_pos new, if_pos rfl]
    · rw [extended, if_neg old, high]
  · rcases step2 with new | ⟨old, high⟩
    · have apart : table2 ≠ table3 := fun same => (maps.own3 (same ▸ new)).1 same.symm
      rw [extended, if_pos new, if_neg apart, if_pos rfl]
    · rw [extended, if_neg old, high]
  · rcases step1 with new | ⟨old, high⟩
    · have apart3 : table1 ≠ table3 := fun same => (maps.own3 (same ▸ new)).2 same.symm
      have apart2 : table1 ≠ table2 := fun same => maps.own2 (same ▸ new) same.symm
      rw [extended, if_pos new, if_neg apart3, if_neg apart2, if_pos rfl]
    · rw [extended, if_neg old, high]

omit maps covered in
theorem Tables.extended_old {table : Nat} (known : level table ≠ 0) :
    extended level (grants count pmm) table3 table2 table1 table = level table := by
  rw [extended, if_neg (tables.not_taken count known)]

theorem Tables.path_aligned :
    pml4 % 4096 = 0 ∧ table3 % 4096 = 0 ∧ table2 % 4096 = 0 ∧ table1 % 4096 = 0 := by
  obtain ⟨step3, step2, step1⟩ := tables.path_levels covered maps
  have aligned : ∀ {table height : Nat}, height ≠ 0 →
      (table ∈ grants count pmm ∨ table ∉ grants count pmm ∧ level table = height) →
      table % 4096 = 0 := by
    intro table height some here
    rcases here with new | ⟨_, high⟩
    · exact (mem_grants new).1
    · exact tables.aligned table (by omega)
  have root := (tables.root pml4).mpr rfl
  exact ⟨tables.aligned pml4 (by omega), aligned (by decide) step3, aligned (by decide) step2,
    aligned (by decide) step1⟩

theorem Tables.off_path {table index : Nat} (aligned : table % 4096 = 0) (bound : index < 512)
    (off4 : ¬(table = pml4 ∧ index = p4Index page)) (off3 : ¬(table = table3 ∧ index = p3Index page))
    (off2 : ¬(table = table2 ∧ index = p2Index page))
    (off1 : ¬(table = table1 ∧ index = p1Index page)) :
    memory'.readU64 (table + 8 * index) =
      (cleared memory (grants count pmm)).readU64 (table + 8 * index) := by
  obtain ⟨aligned4, aligned3, aligned2, aligned1⟩ := tables.path_aligned covered maps
  refine Memory.readU64_congr fun place above inside => ?_
  have outside : ∀ {other index' : Nat}, other % 4096 = 0 → index' < 512 →
      ¬(table = other ∧ index = index') → Outside (other + 8 * index') place := by
    intro other index' otherAligned bound' different
    rcases slot_apart aligned otherAligned bound bound' with same | before | behind
    · exact absurd same different
    · exact .inl (by omega)
    · exact .inr (by omega)
  exact maps.others place (outside aligned4 (p4Index_lt page) off4)
    (outside aligned3 (p3Index_lt page) off3) (outside aligned2 (p2Index_lt page) off2)
    (outside aligned1 (p1Index_lt page) off1)

theorem Tables.mapped_entry (small : flags < 8) (present : flags.testBit 0 = true)
    {table index : Nat}
    (high : 2 ≤ extended level (grants count pmm) table3 table2 table1 table) (bound : index < 512)
    (scope : table = pml4 → covers index) :
    Typed (extended level (grants count pmm) table3 table2 table1)
      (extended level (grants count pmm) table3 table2 table1 table)
      (entryAt memory' (table + 8 * index)) := by
  obtain ⟨level3, level2, level1⟩ := tables.extended_levels covered maps
  have root := (tables.root pml4).mpr rfl
  have level4 : extended level (grants count pmm) table3 table2 table1 pml4 = 4 := by
    rw [tables.extended_old (by omega), root]
  have fresh : ∀ table, table ∈ grants count pmm → table % 4096 = 0 ∧ table < 2 ^ 52 :=
    fun table member => ⟨(mem_grants member).1, (mem_grants member).2.1⟩
  have linked : ∀ {next : Nat}, Link (cleared memory (grants count pmm)) (grants count pmm) memory'
      flags (table + 8 * index) next →
      extended level (grants count pmm) table3 table2 table1 next + 1 =
        extended level (grants count pmm) table3 table2 table1 table →
      Typed (extended level (grants count pmm) table3 table2 table1)
        (extended level (grants count pmm) table3 table2 table1 table)
        (entryAt memory' (table + 8 * index)) := by
    intro next link height
    obtain ⟨held, _, addr, _⟩ := link.opens small present (fresh next)
    exact .inr ⟨held, .inr (by rw [addr, height])⟩
  by_cases on4 : table = pml4 ∧ index = p4Index page
  · obtain ⟨rfl, rfl⟩ := on4
    exact linked maps.link4 (by rw [level3, level4])
  by_cases on3 : table = table3 ∧ index = p3Index page
  · obtain ⟨rfl, rfl⟩ := on3
    exact linked maps.link3 (by rw [level2, level3])
  by_cases on2 : table = table2 ∧ index = p2Index page
  · obtain ⟨rfl, rfl⟩ := on2
    exact linked maps.link2 (by rw [level1, level2])
  have on1 : ¬(table = table1 ∧ index = p1Index page) := by
    rintro ⟨rfl, _⟩
    omega
  by_cases new : table ∈ grants count pmm
  · have aligned := (mem_grants new).1
    have off := tables.off_path covered maps aligned bound on4 on3 on2 on1
    exact .inl (by rw [entryAt, off, cleared_taken memory aligned bound new])
  · have known : extended level (grants count pmm) table3 table2 table1 table = level table := by
      rw [extended, if_neg new]
    rw [known] at high ⊢
    have aligned := tables.aligned table (by omega)
    have off := tables.off_path covered maps aligned bound on4 on3 on2 on1
    rw [entryAt, off, cleared_other memory aligned bound new]
    rcases tables.entries table index high bound scope with unused | ⟨held, huge | next⟩
    · exact .inl unused
    · exact .inr ⟨held, .inl huge⟩
    · refine .inr ⟨held, .inr ?_⟩
      rw [entryAt] at next
      rw [tables.extended_old (by omega)]
      exact next

theorem Tables.mapped_slot (small : flags < 8) {table index : Nat} (known : level table ≠ 0)
    (bound : index < 512) (used : memory.readU64 (table + 8 * index) ≠ 0) :
    ∃ added < 8, memory'.readU64 (table + 8 * index) =
      memory.readU64 (table + 8 * index) ||| added := by
  have aligned := tables.aligned table known
  have same := cleared_other memory aligned bound (tables.not_taken count known)
  have linked : ∀ {next : Nat}, Link (cleared memory (grants count pmm)) (grants count pmm) memory'
      flags (table + 8 * index) next → ∃ added < 8, memory'.readU64 (table + 8 * index) =
        memory.readU64 (table + 8 * index) ||| added := by
    intro next link
    refine ⟨flags, small, ?_⟩
    rw [link.keeps (by rw [same]; exact used), same]
  by_cases on4 : table = pml4 ∧ index = p4Index page
  · obtain ⟨rfl, rfl⟩ := on4
    exact linked maps.link4
  by_cases on3 : table = table3 ∧ index = p3Index page
  · obtain ⟨rfl, rfl⟩ := on3
    exact linked maps.link3
  by_cases on2 : table = table2 ∧ index = p2Index page
  · obtain ⟨rfl, rfl⟩ := on2
    exact linked maps.link2
  by_cases on1 : table = table1 ∧ index = p1Index page
  · obtain ⟨rfl, rfl⟩ := on1
    have unused := maps.unused
    rw [slot1, same] at unused
    exact absurd unused used
  · have off := tables.off_path covered maps aligned bound on4 on3 on2 on1
    exact ⟨0, by decide, by rw [off, same, Nat.or_zero]⟩

omit tables covered maps in
theorem extended_taken {table : Nat} (unknown : level table = 0)
    (some : extended level (grants count pmm) table3 table2 table1 table ≠ 0) :
    table ∈ grants count pmm := by
  by_contra other
  rw [extended, if_neg other] at some
  exact some unknown

omit covered maps in
theorem Tables.extended_root (table : Nat) :
    extended level (grants count pmm) table3 table2 table1 table = 4 ↔ table = pml4 := by
  have root := (tables.root pml4).mpr rfl
  by_cases member : table ∈ grants count pmm
  · have other : table ≠ pml4 := fun same =>
      tables.not_taken count (show level pml4 ≠ 0 by omega) (same ▸ member)
    rw [extended, if_pos member]
    refine iff_of_false (fun four => ?_) other
    split_ifs at four <;> cases four
  · rw [extended, if_neg member, tables.root]

theorem Tables.extended_tables (small : flags < 8) (present : flags.testBit 0 = true) :
    Tables covers (extended level (grants count pmm) table3 table2 table1) pml4 memory'
      (allocations count pmm) := by
  refine ⟨tables.extended_root, fun table index high bound scope =>
    tables.mapped_entry covered maps small present high bound scope, fun table some => ?_,
    fun table some => ?_, allocations_sound count tables.sound⟩
  · by_cases known : level table = 0
    · exact (mem_grants (extended_taken known some)).1
    · exact tables.aligned table known
  · by_cases known : level table = 0
    · exact (mem_grants (extended_taken known some)).2.2.2.2.1
    · exact (allocations_grown count pmm).reserved _ (tables.reserved table known)

theorem Tables.mapped_root {index : Nat} (inside : index < 512) (other : index ≠ p4Index page) :
    memory'.readU64 (pml4 + 8 * index) = memory.readU64 (pml4 + 8 * index) := by
  have root := (tables.root pml4).mpr rfl
  have rootAligned := tables.aligned pml4 (by omega)
  obtain ⟨step3, step2, step1⟩ := tables.path_levels covered maps
  have apart : ∀ {table height : Nat}, height ≠ 4 →
      (table ∈ grants count pmm ∨ table ∉ grants count pmm ∧ level table = height) →
      pml4 ≠ table := by
    rintro table height other here rfl
    rcases here with new | ⟨_, high⟩
    · exact tables.not_taken count (show level pml4 ≠ 0 by omega) new
    · omega
  have off := tables.off_path covered maps rootAligned inside (fun same => other same.2)
    (fun same => apart (by decide) step3 same.1) (fun same => apart (by decide) step2 same.1)
    (fun same => apart (by decide) step1 same.1)
  rw [off, cleared_other memory rootAligned inside (tables.not_taken count (by omega))]

/-- A frame that was reserved and is no table keeps its bytes. -/
theorem Tables.mapped_quiet {place : Nat} (held : pmm.isFrameReserved (place / 4096) = true)
    (unknown : level (place / 4096 * 4096) = 0) : memory' place = memory place := by
  have root := (tables.root pml4).mpr rfl
  have notTaken : place / 4096 * 4096 ∉ grants count pmm := by
    intro member
    obtain ⟨_, _, _, _, _, free⟩ := mem_grants member
    have frameOf : place / 4096 * 4096 / frameSize = place / 4096 :=
      Nat.mul_div_cancel _ (by decide)
    rw [frameOf] at free
    rw [free tables.sound] at held
    cases held
  obtain ⟨step3, step2, step1⟩ := tables.path_levels covered maps
  obtain ⟨aligned4, aligned3, aligned2, aligned1⟩ := tables.path_aligned covered maps
  have outside : ∀ {table height index : Nat}, height ≠ 0 → table % 4096 = 0 → index < 512 →
      (table ∈ grants count pmm ∨ table ∉ grants count pmm ∧ level table = height) →
      Outside (table + 8 * index) place := by
    intro table height index some aligned bound here
    by_contra inside
    rw [Outside, not_or] at inside
    have same : place / 4096 * 4096 = table := slot_frame aligned bound (by omega) (by omega)
    rw [same] at unknown notTaken
    rcases here with new | ⟨_, high⟩
    · exact notTaken new
    · omega
  have untouched := maps.others place
    (outside (by decide) aligned4 (p4Index_lt page)
      (.inr ⟨tables.not_taken count (by omega), root⟩))
    (outside (by decide) aligned3 (p3Index_lt page) step3)
    (outside (by decide) aligned2 (p2Index_lt page) step2)
    (outside (by decide) aligned1 (p1Index_lt page) step1)
  rw [untouched, cleared, if_neg notTaken]

omit tables covered in
theorem Maps.leads (frameAligned : frame % 4096 = 0) (bound : frame < 2 ^ 52) (small : flags < 8)
    (present : flags.testBit 0 = true) (user : flags.testBit 2 = true) :
    Leads memory' pml4 page frame table3 table2 table1 := by
  have opens : ∀ {slot table : Nat}, Link (cleared memory (grants count pmm)) (grants count pmm)
      memory' flags slot table → Open (entryAt memory' slot) table := by
    intro slot table link
    obtain ⟨held, small', addr, open3⟩ := link.opens small present fun member =>
      ⟨(mem_grants member).1, (mem_grants member).2.1⟩
    exact ⟨held, open3 user, small', addr⟩
  have leaf := open_new frameAligned bound small present
  refine ⟨opens maps.link4, opens maps.link3, opens maps.link2, ?_⟩
  rw [entryAt, maps.leaf]
  exact ⟨leaf.1, leaf.2.2.2.trans user, leaf.2.1, leaf.2.2.1⟩

theorem Tables.mapped (frameAligned : frame % 4096 = 0) (bound : frame < 2 ^ 52) (small : flags < 8)
    (present : flags.testBit 0 = true) :
    Mapped covers level pml4 memory pmm page frame flags memory' (allocations count pmm)
      (extended level (grants count pmm) table3 table2 table1) := by
  obtain ⟨level3, level2, level1⟩ := tables.extended_levels covered maps
  refine ⟨tables.extended_tables covered maps small present, allocations_grown count pmm,
    fun table known => tables.extended_old known, fun table unknown some => ?_,
    fun table index known inside used => tables.mapped_slot covered maps small known inside used,
    fun index inside other => tables.mapped_root covered maps inside other,
    fun place held unknown => tables.mapped_quiet covered maps held unknown, fun user => ?_⟩
  · obtain ⟨_, _, above, below, _, free⟩ := mem_grants (extended_taken unknown some)
    exact ⟨above, below, free tables.sound⟩
  · exact ⟨table3, table2, table1, ⟨by omega, by omega, by omega⟩,
      maps.leads frameAligned bound small present user⟩

end Maps

theorem MapTo.Documented.mapped {mapTo : MapTo} (documented : mapTo.Documented)
    (tables : Tables covers level pml4 memory pmm) (covered : covers (p4Index page))
    {frame flags : Nat}
    (done : mapTo memory pmm pml4 page frame flags = (.ok (), memory', pmm'))
    (pageAligned : page % 4096 = 0) (frameAligned : frame % 4096 = 0) (bound : frame < 2 ^ 52)
    (small : flags < 8) (present : flags.testBit 0 = true) :
    ∃ level', Mapped covers level pml4 memory pmm page frame flags memory' pmm' level' := by
  obtain ⟨count, _, rfl, table3, table2, table1, maps⟩ := documented.maps covers level memory pmm
    pml4 page frame flags memory' pmm' tables covered pageAligned frameAligned bound small present
    done
  exact ⟨_, tables.mapped covered maps frameAligned bound small present⟩

end Map

end ArcadiaOs.Process
