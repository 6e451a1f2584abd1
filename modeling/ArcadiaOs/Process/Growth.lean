import ArcadiaOs.Process.AddressSpace

/-!
How an address space grows.  The PML4 is divided into parts with tables of their own;
when a frame is taken or a page is mapped, tables and pages that were there stay.
-/

namespace ArcadiaOs.Process

open Lib Memory PhysicalFrameAllocator

section Space

variable {ι : Type}

/-- Well-formed tables for each part of the PML4; the parts share no table below it. -/
structure Space (covers : ι → Nat → Prop) (level : ι → Nat → Nat) (pml4 : Nat) (kernel : Kernel) :
    Prop where
  part : ∀ part, Tables (covers part) (level part) pml4 kernel.memory kernel.pmm
  divided : ∀ part other index, covers part index → covers other index → part = other
  apart : ∀ part other table, part ≠ other → table ≠ pml4 → level part table ≠ 0 →
    level other table = 0

/-- What was there stays: tables keep their level and their entries up to flags, reserved frames
that are no tables keep their bytes, new tables are in frames that were free, and the PML4 keeps the
entries of no part. -/
structure Grows (covers : ι → Nat → Prop) (pml4 : Nat) (level : ι → Nat → Nat) (kernel : Kernel)
    (level' : ι → Nat → Nat) (kernel' : Kernel) : Prop where
  grown : Grown kernel.pmm kernel'.pmm
  levels : ∀ part table, level part table ≠ 0 → level' part table = level part table
  fresh : ∀ part table, level part table = 0 → level' part table ≠ 0 →
    table / 4096 < kernel'.pmm.nextFree ∧ kernel.pmm.isFrameReserved (table / 4096) = false
  slots : ∀ part table index, level part table ≠ 0 → index < 512 →
    kernel.memory.readU64 (table + 8 * index) ≠ 0 → ∃ added < 8,
      kernel'.memory.readU64 (table + 8 * index) =
        kernel.memory.readU64 (table + 8 * index) ||| added
  quiet : ∀ place, kernel.pmm.isFrameReserved (place / 4096) = true →
    (∀ part, level part (place / 4096 * 4096) = 0) → kernel'.memory place = kernel.memory place
  root : ∀ index, index < 512 → (∀ part, ¬covers part index) →
    kernel'.memory.readU64 (pml4 + 8 * index) = kernel.memory.readU64 (pml4 + 8 * index)

variable {covers : ι → Nat → Prop} {level level' level'' : ι → Nat → Nat} {pml4 : Nat}
  {kernel kernel' kernel'' : Kernel}

theorem Space.sound (space : Space covers level pml4 kernel) (part : ι) :
    kernel.pmm.NextFreeSound := (space.part part).sound

theorem Space.root (space : Space covers level pml4 kernel) (part : ι) : level part pml4 = 4 :=
  ((space.part part).root pml4).mpr rfl

theorem Space.unreserved (space : Space covers level pml4 kernel) {table : Nat}
    (free : kernel.pmm.isFrameReserved (table / 4096) = false) (part : ι) :
    level part table = 0 := by
  by_contra known
  have reserved := (space.part part).reserved table known
  rw [free] at reserved
  cases reserved

theorem Grows.refl (covers : ι → Nat → Prop) (pml4 : Nat) (level : ι → Nat → Nat)
    (kernel : Kernel) : Grows covers pml4 level kernel level kernel where
  grown := .refl _
  levels := fun _ _ _ => rfl
  fresh := fun _ _ unknown known => absurd unknown known
  slots := fun _ _ _ _ _ _ => ⟨0, by decide, (Nat.or_zero _).symm⟩
  quiet := fun _ _ _ => rfl
  root := fun _ _ _ => rfl

theorem Grows.still (grows : Grows covers pml4 level kernel level' kernel') {table : Nat}
    (reserved : kernel.pmm.isFrameReserved (table / 4096) = true)
    (unknown : ∀ part, level part table = 0) (part : ι) : level' part table = 0 := by
  by_contra known
  have free := (grows.fresh part table (unknown part) known).2
  rw [reserved] at free
  cases free

theorem Grows.trans (first : Grows covers pml4 level kernel level' kernel')
    (second : Grows covers pml4 level' kernel' level'' kernel'') : Grows covers pml4 level kernel level'' kernel'' where
  grown := first.grown.trans second.grown
  levels := fun part table known => by
    have kept := first.levels part table known
    rw [second.levels part table (kept ▸ known), kept]
  fresh := fun part table unknown known => by
    by_cases later : level' part table = 0
    · obtain ⟨below, free⟩ := second.fresh part table later known
      refine ⟨below, ?_⟩
      by_contra reserved
      rw [first.grown.reserved _ (by simpa using reserved)] at free
      cases free
    · obtain ⟨below, free⟩ := first.fresh part table unknown later
      exact ⟨Nat.lt_of_lt_of_le below second.grown.nextFree, free⟩
  slots := fun part table index known bound used => by
    obtain ⟨added, small, wrote⟩ := first.slots part table index known bound used
    have stillUsed : kernel'.memory.readU64 (table + 8 * index) ≠ 0 := by
      rw [wrote]
      exact fun zero => used (Nat.or_eq_zero_iff.mp zero).1
    obtain ⟨more, smallMore, wroteMore⟩ := second.slots part table index
      (first.levels part table known ▸ known) bound stillUsed
    refine ⟨added ||| more, Nat.or_lt_two_pow (n := 3) small smallMore, ?_⟩
    rw [wroteMore, wrote, Nat.or_assoc]
  quiet := fun place reserved unknown => by
    have frame : place / 4096 * 4096 / 4096 = place / 4096 := Nat.mul_div_cancel _ (by decide)
    have still := fun part => first.still (frame.symm ▸ reserved) unknown part
    rw [second.quiet place (first.grown.reserved _ reserved) still,
      first.quiet place reserved unknown]
  root := fun index bound outside => (second.root index bound outside).trans
    (first.root index bound outside)

theorem Space.untouched (space : Space covers level pml4 kernel) {memory : Memory}
    (others : ∀ place, kernel.pmm.isFrameReserved (place / 4096) = true →
      memory place = kernel.memory place) {part : ι} {table index : Nat}
    (known : level part table ≠ 0) (bound : index < 512) :
    memory.readU64 (table + 8 * index) = kernel.memory.readU64 (table + 8 * index) := by
  have aligned := (space.part part).aligned table known
  refine Memory.readU64_congr fun place above inside => others place ?_
  have frame := slot_frame aligned bound above inside
  have reserved := (space.part part).reserved table known
  rwa [show table / 4096 = place / 4096 by omega] at reserved

theorem Space.claimed (space : Space covers level pml4 kernel) (part : ι)
    (grown : Grown kernel.pmm kernel'.pmm) (sound : kernel'.pmm.NextFreeSound)
    (others : ∀ place, kernel.pmm.isFrameReserved (place / 4096) = true →
      kernel'.memory place = kernel.memory place) :
    Space covers level pml4 kernel' ∧ Grows covers pml4 level kernel level kernel' := by
  refine ⟨⟨fun part => ?_, space.divided, space.apart⟩, ⟨grown, fun _ _ _ => rfl,
    fun _ _ unknown known => absurd unknown known, ?_, fun place reserved _ => others place reserved,
    fun index bound _ =>
      space.untouched others (show level part pml4 ≠ 0 by rw [space.root part]; decide) bound⟩⟩
  · have tables := space.part part
    refine ⟨tables.root, ?_, tables.aligned, fun table known =>
      grown.reserved _ (tables.reserved table known), sound⟩
    intro table index high bound scope
    rw [entryAt, space.untouched others (show level part table ≠ 0 by omega) bound]
    exact tables.entries table index high bound scope
  · intro part table index known bound _
    exact ⟨0, by decide, by rw [space.untouched others known bound, Nat.or_zero]⟩

theorem Space.mapped_same (space : Space covers level pml4 kernel) {part other : ι} {page frame flags : Nat}
    {level₁ : Nat → Nat} {memory : Memory} {pmm : PhysicalFrameAllocator}
    (covered : covers part (p4Index page)) (different : part ≠ other)
    (mapped : Mapped (covers part) (level part) pml4 kernel.memory kernel.pmm page frame flags memory
      pmm level₁) {table index : Nat} (known : level other table ≠ 0) (bound : index < 512)
    (scope : table = pml4 → covers other index) :
    memory.readU64 (table + 8 * index) = kernel.memory.readU64 (table + 8 * index) := by
  by_cases top : table = pml4
  · subst top
    refine mapped.root index bound fun onPath => different ?_
    exact space.divided part other _ covered (onPath ▸ scope rfl)
  · have unknown := space.apart other part table different.symm top known
    have aligned := (space.part other).aligned table known
    refine Memory.readU64_congr fun place above inside => ?_
    have frame := slot_frame aligned bound above inside
    refine mapped.quiet place ?_ (by rw [frame]; exact unknown)
    rw [show place / 4096 = table / 4096 by omega]
    exact (space.part other).reserved table known

theorem Space.mapped_other (space : Space covers level pml4 kernel) {part other : ι} {page frame flags : Nat}
    {level₁ : Nat → Nat} {memory : Memory} {pmm : PhysicalFrameAllocator}
    (covered : covers part (p4Index page)) (different : part ≠ other)
    (mapped : Mapped (covers part) (level part) pml4 kernel.memory kernel.pmm page frame flags memory
      pmm level₁) :
    Tables (covers other) (level other) pml4 memory pmm := by
  have tables := space.part other
  refine ⟨tables.root, ?_, tables.aligned, fun table known =>
    mapped.grown.reserved _ (tables.reserved table known), mapped.tables.sound⟩
  intro table index high bound scope
  rw [entryAt, space.mapped_same covered different mapped (show level other table ≠ 0 by omega) bound scope]
  exact tables.entries table index high bound scope

section Map

variable [DecidableEq ι]

def withPart (level : ι → Nat → Nat) (part : ι) (changed : Nat → Nat) : ι → Nat → Nat :=
  fun other => if other = part then changed else level other

theorem withPart_same (level : ι → Nat → Nat) (part : ι) (changed : Nat → Nat) :
    withPart level part changed part = changed := if_pos rfl

theorem withPart_other (level : ι → Nat → Nat) {part other : ι} (changed : Nat → Nat)
    (different : other ≠ part) : withPart level part changed other = level other :=
  if_neg different

theorem Space.mapped (space : Space covers level pml4 kernel) {part : ι} {page frame flags : Nat}
    {level₁ : Nat → Nat} (covered : covers part (p4Index page))
    (mapped : Mapped (covers part) (level part) pml4 kernel.memory kernel.pmm page frame flags
      kernel'.memory kernel'.pmm level₁) :
    Space covers (withPart level part level₁) pml4 kernel' ∧
      Grows covers pml4 level kernel (withPart level part level₁) kernel' := by
  have keeps : ∀ {other table}, level₁ table ≠ 0 → other ≠ part → table ≠ pml4 →
      level other table = 0 := by
    intro other table known different top
    by_cases old : level part table = 0
    · exact space.unreserved (mapped.fresh table old known).2.2 other
    · exact space.apart part other table different.symm top old
  constructor
  · refine ⟨fun other => ?_, space.divided, fun first second table different top known => ?_⟩
    · by_cases same : other = part
      · subst same
        rw [withPart_same]
        exact mapped.tables
      · rw [withPart_other level level₁ same]
        exact space.mapped_other covered (fun equal => same equal.symm) mapped
    · by_cases left : first = part
      · subst left
        rw [withPart_same] at known
        rw [withPart_other level level₁ fun equal => different equal.symm]
        exact keeps known (fun equal => different equal.symm) top
      · rw [withPart_other level level₁ left] at known
        by_cases right : second = part
        · subst right
          rw [withPart_same]
          by_contra also
          exact known (keeps also left top)
        · rw [withPart_other level level₁ right]
          exact space.apart first second table different top known
  · refine ⟨mapped.grown, fun other table known => ?_, fun other table unknown known => ?_,
      fun other table index known bound used => ?_, fun place reserved unknown =>
        mapped.quiet place reserved (unknown part), fun index bound outside =>
        mapped.root index bound fun onPath => outside part (onPath ▸ covered)⟩
    · by_cases same : other = part
      · subst same
        rw [withPart_same]
        exact mapped.levels table known
      · rw [withPart_other level level₁ same]
    · by_cases same : other = part
      · subst same
        rw [withPart_same] at known
        exact (mapped.fresh table unknown known).2
      · rw [withPart_other level level₁ same] at known
        exact absurd unknown known
    · by_cases here : level part table = 0
      · refine ⟨0, by decide, ?_⟩
        rw [Nat.or_zero]
        have aligned := (space.part other).aligned table known
        refine Memory.readU64_congr fun place above inside => ?_
        have frame := slot_frame aligned bound above inside
        refine mapped.quiet place ?_ (by rw [frame]; exact here)
        rw [show place / 4096 = table / 4096 by omega]
        exact (space.part other).reserved table known
      · exact mapped.slots table index here bound used

end Map

theorem Grows.open (grows : Grows covers pml4 level kernel level' kernel') {part : ι} {table index target : Nat}
    (known : level part table ≠ 0) (bound : index < 512)
    (entry : Open (entryAt kernel.memory (table + 8 * index)) target) :
    Open (entryAt kernel'.memory (table + 8 * index)) target := by
  obtain ⟨added, small, wrote⟩ := grows.slots part table index known bound
    (PageTableEntry.bits_ne_zero entry.present)
  rw [entryAt, wrote]
  refine ⟨PageTableEntry.present_or _ _ entry.present, ?_, ?_, ?_⟩
  · have user := entry.user
    simp only [PageTableEntry.userAccessible, entryAt] at user ⊢
    rw [Nat.testBit_or, user, Bool.true_or]
  · rw [PageTableEntry.hugePage_or small]
    exact entry.small
  · rw [PageTableEntry.addr_or (by omega)]
    exact entry.addr

structure Reaches (level : ι → Nat → Nat) (part : ι) (pml4 : Nat) (kernel : Kernel)
    (page frame table3 table2 table1 : Nat) : Prop where
  leads : Leads kernel.memory pml4 page frame table3 table2 table1
  top : level part pml4 ≠ 0
  known3 : level part table3 ≠ 0
  known2 : level part table2 ≠ 0
  known1 : level part table1 ≠ 0

theorem Grows.known (grows : Grows covers pml4 level kernel level' kernel') {part : ι} {table : Nat}
    (known : level part table ≠ 0) : level' part table ≠ 0 := by
  rw [grows.levels part table known]
  exact known

theorem Reaches.grows {part : ι} {page frame table3 table2 table1 : Nat}
    (reaches : Reaches level part pml4 kernel page frame table3 table2 table1)
    (grows : Grows covers pml4 level kernel level' kernel') :
    Reaches level' part pml4 kernel' page frame table3 table2 table1 := by
  obtain ⟨⟨entry4, entry3, entry2, entry1⟩, top, known3, known2, known1⟩ := reaches
  refine ⟨⟨?_, ?_, ?_, ?_⟩, grows.known top, grows.known known3, grows.known known2,
    grows.known known1⟩
  · exact grows.open top (p4Index_lt page) entry4
  · exact grows.open known3 (p3Index_lt page) entry3
  · exact grows.open known2 (p2Index_lt page) entry2
  · exact grows.open known1 (p1Index_lt page) entry1

def Low (level : ι → Nat → Nat) (part : ι) (kernel : Kernel) : Prop :=
  ∀ table, level part table ≠ 0 → table / 4096 < kernel.pmm.nextFree

theorem Low.grows {part : ι} (low : Low level part kernel)
    (grows : Grows covers pml4 level kernel level' kernel') : Low level' part kernel' := by
  intro table known
  by_cases old : level part table = 0
  · exact (grows.fresh part table old known).1
  · exact Nat.lt_of_lt_of_le (low table old) grows.grown.nextFree

end Space

end ArcadiaOs.Process
