import ArcadiaOs.Vmm.TableMapper

/-!
What decides the answers of the page table mapper: the entries on the walk of the page and
the frames that the allocator has left.  `map_to` opens the tables that are missing on the
walk, and `unmap` closes none.
-/

namespace ArcadiaOs.Vmm

open Lib Memory Process PhysicalFrameAllocator

/-- What `map_to` meets on the walk of a page: its entry in use, an upper entry that leads to no
table, or a number of tables that are missing. -/
inductive Slot
  | used
  | huge
  | free (missing : Nat)
  deriving DecidableEq

namespace Slot

def missing : Slot → Nat
  | .free missing => missing
  | _ => 0

/-- At most so many tables are missing now. -/
def cap (bound : Nat) : Slot → Slot
  | .free missing => .free (min missing bound)
  | slot => slot

end Slot

/-- The allocator hands out so many frames, one after the other. -/
def supplies : Nat → PhysicalFrameAllocator → Bool
  | 0, _ => true
  | count + 1, pmm => pmm.allocateFrame.1.isSome && supplies count pmm.allocateFrame.2

/-- An entry of a page table can be filled, but not with HUGE_PAGE. -/
def fillAnswer (flags : PageTableFlags) : Except MapToStop Unit :=
  if flags.hugePage then .error .panic else .ok ()

/-- The answer of `map_to`.  Without PRESENT no table can be opened. -/
def Slot.answer (flags : PageTableFlags) (pmm : PhysicalFrameAllocator) : Slot → Except MapToStop Unit
  | .used => .error (.error .pageAlreadyMapped)
  | .huge => .error (.error .parentEntryHugePage)
  | .free 0 => fillAnswer flags
  | .free (missing + 1) =>
      if !pmm.allocateFrame.1.isSome then .error (.error .frameAllocationFailed)
      else if !flags.present then .error .panic
      else if supplies missing pmm.allocateFrame.2 then fillAnswer flags
      else .error (.error .frameAllocationFailed)

def tablesApart : Nat → Nat → Nat → Nat
  | 0, _, _ => 0
  | level + 1, virt, page =>
      if tableIndex (level + 1) virt = tableIndex (level + 1) page then tablesApart level virt page
      else level + 1

namespace PageTable

/-- What the walk of a page meets. -/
def slot : {level : Nat} → PageTable level → Nat → Slot
  | 0, .frame, _ => .used
  | 1, .table entry _, page => if (entry (tableIndex 0 page)).bits = 0 then .free 0 else .used
  | level + 2, .table entry next, page =>
      if (entry (tableIndex (level + 1) page)).bits = 0 then .free (level + 1)
      else if !(entry (tableIndex (level + 1) page)).present then .huge
      else if (entry (tableIndex (level + 1) page)).hugePage then .huge
      else (next (tableIndex (level + 1) page)).slot page

/-- Every entry of the walk is present, and none has HUGE_PAGE: `unmap` can take the page out. -/
def removable : {level : Nat} → PageTable level → Nat → Bool
  | 0, .frame, _ => true
  | level + 1, .table entry next, page =>
      (entry (tableIndex level page)).present && !(entry (tableIndex level page)).hugePage &&
        (next (tableIndex level page)).removable page

end PageTable

/-- What the documentation says about the answers of `map_to` on a class of tables, for a function
that tells what it meets on the walk of a page. -/
structure Mapper.MapsBy (mapper : Mapper) (tables : PageTable 4 → Prop)
    (slot : PageTable 4 → Nat → Slot) : Prop where
  answers : ∀ table pmm page frame flags, tables table → page % 4096 = 0 → frame % 4096 = 0 →
    frame < 2 ^ 52 →
    (mapper.mapTo table pmm page frame flags).1 = (slot table page).answer flags pmm
  takes : ∀ table pmm page frame flags table' pmm', tables table → page % 4096 = 0 →
    frame % 4096 = 0 → frame < 2 ^ 52 →
    mapper.mapTo table pmm page frame flags = (.ok (), table', pmm') →
    pmm' = allocations (slot table page).missing pmm
  opens : ∀ table pmm page frame flags table' pmm', tables table → page % 4096 = 0 →
    frame % 4096 = 0 → frame < 2 ^ 52 →
    mapper.mapTo table pmm page frame flags = (.ok (), table', pmm') →
    ∀ virt, ¬SamePage 4 virt page →
      slot table' virt = (slot table virt).cap (tablesApart 3 virt page)
  rejects : ∀ table pmm page frame flags table' pmm', tables table → page % 4096 = 0 →
    frame % 4096 = 0 → frame < 2 ^ 52 →
    mapper.mapTo table pmm page frame flags = (.error (.error .pageAlreadyMapped), table', pmm') →
    pmm' = pmm ∧ ∀ virt, slot table' virt = slot table virt
  -- no page table is deallocated
  leaves : ∀ table page frame table', page % 4096 = 0 →
    mapper.unmap table page = (.ok frame, table') → slot table' page = .free 0
  refills : ∀ table pmm page frame flags, page % 4096 = 0 → frame % 4096 = 0 → frame < 2 ^ 52 →
    slot table page = .free 0 → (mapper.mapTo table pmm page frame flags).1 = fillAnswer flags

/-- What the documentation says about the answers of `unmap`. -/
structure Mapper.Removes (mapper : Mapper) : Prop where
  removes : ∀ table page, page % 4096 = 0 →
    ((∃ frame, (mapper.unmap table page).1 = .ok frame) ↔ table.removable page = true)
  spares : ∀ table page virt, page % 4096 = 0 → ¬SamePage 4 virt page →
    (mapper.unmap table page).2.removable virt = table.removable virt

theorem tablesApart_le (level virt page : Nat) : tablesApart level virt page ≤ level := by
  induction level with
  | zero => exact Nat.le_refl 0
  | succ level ih =>
      rw [tablesApart]
      split
      · exact Nat.le_succ_of_le ih
      · exact Nat.le_refl _

theorem fillAnswer_other (flags : PageTableFlags) :
    fillAnswer flags ≠ .error (.error .pageAlreadyMapped) := by
  rw [fillAnswer]
  split <;> simp

theorem Slot.used_of_answer {flags : PageTableFlags} {pmm : PhysicalFrameAllocator} {slot : Slot}
    (answered : slot.answer flags pmm = .error (.error .pageAlreadyMapped)) : slot = .used := by
  cases slot with
  | used => rfl
  | huge => cases answered
  | free missing =>
      cases missing with
      | zero => exact absurd answered (fillAnswer_other flags)
      | succ missing =>
          rw [answer] at answered
          split at answered
          · cases answered
          split at answered
          · cases answered
          split at answered
          · exact absurd answered (fillAnswer_other flags)
          · cases answered

theorem Slot.cap_of_le {slot : Slot} {bound : Nat} (small : slot.missing ≤ bound) :
    slot.cap bound = slot := by
  cases slot with
  | used => rfl
  | huge => rfl
  | free missing =>
      have fits : missing ≤ bound := small
      rw [cap, Nat.min_eq_left fits]

namespace PageTable

theorem slot_empty (level page : Nat) : (empty (level + 1)).slot page = .free level := by
  cases level with
  | zero => rfl
  | succ level => rfl

theorem slot_missing_le {level : Nat} (table : PageTable (level + 1)) (page : Nat) :
    (table.slot page).missing ≤ level := by
  induction level with
  | zero =>
      cases table
      rw [slot]
      split <;> exact Nat.le_refl 0
  | succ level ih =>
      cases table with
      | table entry next =>
          rw [slot]
          split
          · exact Nat.le_refl _
          split
          · exact Nat.zero_le _
          split
          · exact Nat.zero_le _
          · exact Nat.le_succ_of_le (ih _)

theorem slot_through {level page : Nat} {entry : Nat → PageTableEntry}
    {next : Nat → PageTable (level + 1)}
    (present : (entry (tableIndex (level + 1) page)).present = true)
    (small : (entry (tableIndex (level + 1) page)).hugePage = false) :
    (PageTable.table entry next).slot page = (next (tableIndex (level + 1) page)).slot page := by
  have some : (entry (tableIndex (level + 1) page)).bits ≠ 0 := by
    intro unused
    rw [absent_of_unused unused] at present
    cases present
  rw [slot, if_neg some, present, small]
  rfl

theorem slot_replace_other {level page : Nat} {entry : Nat → PageTableEntry}
    {next : Nat → PageTable (level + 1)} {index : Nat} {newEntry : PageTableEntry}
    {newNext : PageTable (level + 1)} (other : tableIndex (level + 1) page ≠ index) :
    (replace entry next index newEntry newNext).slot page = (PageTable.table entry next).slot page := by
  simp only [replace, slot, Function.update_of_ne other]

theorem insert_answer {level : Nat} {table : PageTable (level + 1)} (tidy : table.Tidy)
    (pmm : PhysicalFrameAllocator) (page phys : Nat) (flags : PageTableFlags) :
    (table.insert pmm page phys flags).1 = (table.slot page).answer flags pmm := by
  induction level generalizing pmm with
  | zero =>
      cases table
      rw [insert, slot]
      split
      · rw [Slot.answer, fillAnswer]
        split <;> rfl
      · rfl
  | succ level ih =>
      cases table with
      | table entry next =>
          rw [insert, slot]
          split
          · rw [Slot.answer]
            split
            · rename_i given
              simp [given]
            rename_i taken pmmTaken given
            simp only [given, Option.isSome_some, Bool.not_true, Bool.false_eq_true, if_false]
            split
            · rfl
            rename_i present
            rw [Bool.not_eq_true', Bool.not_eq_false] at present
            rw [ih (tidy_empty (level + 1)), slot_empty]
            cases level with
            | zero => simp [Slot.answer, supplies]
            | succ level =>
                rw [Slot.answer, supplies, present]
                cases pmmTaken.allocateFrame.1 <;> simp
          · rename_i used
            obtain ⟨present, behind⟩ := tidy.entry page used
            obtain ⟨live, huge, _, _⟩ := linked_facts (level + 1)
              (Nat.mod_lt flags.bits (by decide) : flags.bits % 8 < 8) present
            simp only [live, huge, present, Bool.not_true, Bool.false_eq_true, if_false]
            split
            · rfl
            · rename_i small
              rw [Bool.not_eq_true] at small
              refine ih (behind.resolve_left ?_) pmm
              simp [leads_of_small level small]

theorem insert_refills {level : Nat} (table : PageTable (level + 1)) (pmm : PhysicalFrameAllocator)
    (page phys : Nat) (flags : PageTableFlags) (free : table.slot page = .free 0) :
    (table.insert pmm page phys flags).1 = fillAnswer flags := by
  induction level with
  | zero =>
      cases table
      rw [slot] at free
      split at free
      · rename_i unused
        rw [insert, if_pos unused, fillAnswer]
        split <;> rfl
      · cases free
  | succ level ih =>
      cases table with
      | table entry next =>
          rw [slot] at free
          split at free
          · cases free
          rename_i used
          split at free
          · cases free
          rename_i present
          rw [Bool.not_eq_true', Bool.not_eq_false] at present
          split at free
          · cases free
          rename_i small
          rw [Bool.not_eq_true] at small
          obtain ⟨live, huge, _, _⟩ := linked_facts (level + 1)
            (Nat.mod_lt flags.bits (by decide) : flags.bits % 8 < 8) present
          rw [insert, if_neg used]
          simp only [live, huge, small, Bool.not_true, Bool.false_eq_true, if_false]
          exact ih _ free

theorem slot_behind {level page : Nat} {entry : Nat → PageTableEntry}
    {next : Nat → PageTable (level + 1)} {newEntry : PageTableEntry}
    {below : PageTable (level + 1)} (present : newEntry.present = true)
    (small : newEntry.hugePage = false) {virt : Nat}
    (here : tableIndex (level + 1) virt = tableIndex (level + 1) page) :
    (replace entry next (tableIndex (level + 1) page) newEntry below).slot virt = below.slot virt := by
  rw [replace, slot_through]
  · rw [here, Function.update_self]
  · rw [here, Function.update_self, present]
  · rw [here, Function.update_self, small]

theorem insert_takes {level : Nat} {table table' : PageTable (level + 1)} (tidy : table.Tidy)
    {pmm pmm' : PhysicalFrameAllocator} {page phys : Nat} {flags : PageTableFlags}
    (done : table.insert pmm page phys flags = (.ok (), table', pmm')) :
    pmm' = allocations (table.slot page).missing pmm := by
  induction level generalizing pmm pmm' with
  | zero =>
      cases table
      rw [insert] at done
      rw [slot]
      split at done
      · rename_i unused
        split at done
        · cases done
        cases done
        rw [if_pos unused]
        rfl
      · cases done
  | succ level ih =>
      cases table with
      | table entry next =>
          have inserts := insert_inserts pmm page phys flags tidy
          generalize (PageTable.table entry next).insert pmm page phys flags = result at inserts done
          cases inserts with
          | stops => cases done
          | opens newEntry live small unused =>
              simp only [Prod.mk.injEq] at done
              obtain ⟨inserted, rfl, rfl⟩ := done
              rw [ih (tidy_empty (level + 1)) (Prod.ext inserted rfl), slot_empty, slot, if_pos unused]
              rfl
          | follows newEntry live small present leads tidyBelow =>
              simp only [Prod.mk.injEq] at done
              obtain ⟨inserted, rfl, rfl⟩ := done
              rw [ih tidyBelow (Prod.ext inserted rfl), slot_through present leads]

theorem insert_opens {level : Nat} {table table' : PageTable (level + 1)} (tidy : table.Tidy)
    {pmm pmm' : PhysicalFrameAllocator} {page phys : Nat} {flags : PageTableFlags}
    (done : table.insert pmm page phys flags = (.ok (), table', pmm')) {virt : Nat}
    (other : ¬SamePage (level + 1) virt page) :
    table'.slot virt = (table.slot virt).cap (tablesApart level virt page) := by
  have bounded := table.slot_missing_le virt
  induction level generalizing pmm pmm' with
  | zero =>
      have apart : tableIndex 0 virt ≠ tableIndex 0 page := fun same =>
        other ((samePage_succ _ _ _).mpr ⟨samePage_zero virt page, same⟩)
      cases table
      rw [insert] at done
      split at done
      · split at done
        · cases done
        cases done
        rw [tablesApart, Slot.cap_of_le bounded, replace, slot, slot, Function.update_of_ne apart]
      · cases done
  | succ level ih =>
      cases table with
      | table entry next =>
          have inserts := insert_inserts pmm page phys flags tidy
          generalize (PageTable.table entry next).insert pmm page phys flags = result at inserts done
          by_cases here : tableIndex (level + 1) virt = tableIndex (level + 1) page
          · have apart : ¬SamePage (level + 1) virt page := fun same =>
              other ((samePage_succ _ _ _).mpr ⟨same, here⟩)
            rw [tablesApart, if_pos here]
            cases inserts with
            | stops => cases done
            | opens newEntry live small unused =>
                simp only [Prod.mk.injEq] at done
                obtain ⟨inserted, rfl, rfl⟩ := done
                have after := ih (tidy_empty (level + 1)) (Prod.ext inserted rfl) apart
                  (slot_missing_le _ virt)
                have near := tablesApart_le level virt page
                rw [slot_behind live small here, after, slot_empty, slot, here, if_pos unused, Slot.cap,
                  Slot.cap, Nat.min_eq_right near, Nat.min_eq_right (Nat.le_succ_of_le near)]
            | follows newEntry live small present leads tidyBelow =>
                simp only [Prod.mk.injEq] at done
                obtain ⟨inserted, rfl, rfl⟩ := done
                have after := ih tidyBelow (Prod.ext inserted rfl) apart (slot_missing_le _ virt)
                rw [slot_behind live small here, after, slot_through (here ▸ present) (here ▸ leads),
                  here]
          · rw [tablesApart, if_neg here, Slot.cap_of_le bounded]
            cases inserts with
            | stops => cases done
            | opens => exact (Prod.mk.inj (Prod.mk.inj done).2).1 ▸ slot_replace_other here
            | follows => exact (Prod.mk.inj (Prod.mk.inj done).2).1 ▸ slot_replace_other here

theorem insert_rejects {level : Nat} {table table' : PageTable (level + 1)} (tidy : table.Tidy)
    {pmm pmm' : PhysicalFrameAllocator} {page phys : Nat} {flags : PageTableFlags}
    (done : table.insert pmm page phys flags =
      (.error (.error .pageAlreadyMapped), table', pmm')) :
    pmm' = pmm ∧ ∀ virt, table'.slot virt = table.slot virt := by
  have used : table.slot page = .used := by
    have answer := insert_answer tidy pmm page phys flags
    rw [done] at answer
    exact Slot.used_of_answer answer.symm
  induction level generalizing pmm pmm' with
  | zero =>
      cases table
      rw [insert] at done
      split at done
      · split at done
        · cases done
        · cases done
      · cases done
        exact ⟨rfl, fun _ => rfl⟩
  | succ level ih =>
      cases table with
      | table entry next =>
          have inserts := insert_inserts pmm page phys flags tidy
          generalize (PageTable.table entry next).insert pmm page phys flags = result at inserts done
          cases inserts with
          | stops reason newEntry count few other same =>
              simp only [Prod.mk.injEq, Except.error.injEq] at done
              exact absurd done.1 other
          | opens newEntry live small unused =>
              rw [slot, if_pos unused] at used
              cases used
          | follows newEntry live small present leads tidyBelow =>
              rw [slot_through present leads] at used
              simp only [Prod.mk.injEq] at done
              obtain ⟨inserted, rfl, rfl⟩ := done
              obtain ⟨same, slots⟩ := ih tidyBelow (Prod.ext inserted rfl) used
              refine ⟨same, fun virt => ?_⟩
              by_cases here : tableIndex (level + 1) virt = tableIndex (level + 1) page
              · rw [slot_behind live small here, slots, slot_through (here ▸ present) (here ▸ leads),
                  here]
              · exact slot_replace_other here

theorem removable_frame (table : PageTable 0) (page : Nat) : table.removable page = true := by
  cases table
  rfl

theorem erase_removes {level : Nat} (table : PageTable (level + 1)) (page : Nat) :
    (∃ frame, (table.erase page).1 = .ok frame) ↔ table.removable page = true := by
  induction level with
  | zero =>
      cases table with
      | table entry next =>
          rw [erase, removable, removable_frame]
          cases present : (entry (tableIndex 0 page)).present <;>
            cases huge : (entry (tableIndex 0 page)).hugePage <;> simp
  | succ level ih =>
      cases table with
      | table entry next =>
          rw [erase, removable]
          cases present : (entry (tableIndex (level + 1) page)).present <;>
            cases huge : (entry (tableIndex (level + 1) page)).hugePage <;> simp [ih]

theorem erase_spares {level : Nat} (table : PageTable level) {page virt : Nat}
    (other : ¬SamePage level virt page) :
    (table.erase page).2.removable virt = table.removable virt := by
  induction table with
  | frame => rfl
  | @table level entry next ih =>
      rw [erase]
      split
      · rfl
      split
      · rfl
      by_cases here : tableIndex level virt = tableIndex level page
      · have below : ¬SamePage level virt page := fun same =>
          other ((samePage_succ _ _ _).mpr ⟨same, here⟩)
        split
        · rename_i last
          subst last
          exact absurd (samePage_zero virt page) below
        · simp only [replace, removable, here, Function.update_self, ih _ below]
      · split
        · simp only [replace, removable, Function.update_of_ne here]
        · simp only [replace, removable, Function.update_of_ne here]

theorem erase_slot {level : Nat} {table table' : PageTable (level + 1)} {page frame : Nat}
    (done : table.erase page = (.ok frame, table')) : table'.slot page = .free 0 := by
  induction level with
  | zero =>
      cases table
      rw [erase] at done
      split at done
      · cases done
      split at done
      · cases done
      rw [if_pos rfl] at done
      cases done
      rw [replace, slot, Function.update_self, if_pos rfl]
  | succ level ih =>
      cases table with
      | table entry next =>
          rw [erase] at done
          split at done
          · cases done
          rename_i present
          rw [Bool.not_eq_true', Bool.not_eq_false] at present
          split at done
          · cases done
          rename_i small
          rw [Bool.not_eq_true] at small
          rw [if_neg (Nat.succ_ne_zero level)] at done
          simp only [Prod.mk.injEq] at done
          obtain ⟨erased, rfl⟩ := done
          rw [slot_behind present small rfl]
          exact ih (Prod.ext erased rfl)

end PageTable

theorem treeMapper_mapsBy : treeMapper.MapsBy PageTable.Tidy PageTable.slot := by
  constructor
  · intro table pmm page phys flags tidy _ _ _
    exact PageTable.insert_answer tidy pmm page phys flags
  · intro table pmm page phys flags table' pmm' tidy _ _ _ done
    exact PageTable.insert_takes tidy done
  · intro table pmm page phys flags table' pmm' tidy _ _ _ done virt other
    exact PageTable.insert_opens tidy done other
  · intro table pmm page phys flags table' pmm' tidy _ _ _ done
    exact PageTable.insert_rejects tidy done
  · intro table page frame table' _ done
    exact PageTable.erase_slot done
  · intro table pmm page phys flags _ _ _ free
    exact table.insert_refills pmm page phys flags free

theorem treeMapper_removes : treeMapper.Removes := by
  constructor
  · intro table page _
    exact table.erase_removes page
  · intro table page virt _ other
    exact table.erase_spares other

end ArcadiaOs.Vmm
