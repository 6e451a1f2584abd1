import ArcadiaOs.Vmm.VmmCore

/-!
What the documentation of the page table mapper says, and a mapper on trees that follows
it: `map_to` adds one leaf or changes none, `unmap` removes one 4 KiB leaf or changes none.
-/

namespace ArcadiaOs.Vmm

open Lib Memory Process PhysicalFrameAllocator

/-- The documented behaviour of the mapper on a class of tables that it does not leave, for flags
that are allowed, seen by a walk.  Frames come from the allocator, at most three for a page; a page
can be mapped when nothing maps it, and unmapped when a 4 KiB page does. -/
structure Mapper.Follows (mapper : Mapper) (tables : PageTable 4 → Prop)
    (allowed : PageTableFlags → Prop) (view : PageTable 4 → Nat → Option Leaf)
    (stored : Nat → PageTableFlags → Bool) : Prop where
  allocates : ∀ table pmm page frame flags,
    ∃ count ≤ 3, (mapper.mapTo table pmm page frame flags).2.2 = allocations count pmm
  maps : ∀ table pmm page frame flags table' pmm', tables table → allowed flags →
    page % 4096 = 0 → frame % 4096 = 0 → frame < 2 ^ 52 →
    mapper.mapTo table pmm page frame flags = (.ok (), table', pmm') →
    view table page = none ∧ ∀ virt, view table' virt =
      if SamePage 4 virt page then
        if stored frame flags then some ⟨frame, 4096⟩ else none
      else view table virt
  refuses : ∀ table pmm page frame flags reason table' pmm', tables table → allowed flags →
    page % 4096 = 0 → frame % 4096 = 0 → frame < 2 ^ 52 →
    mapper.mapTo table pmm page frame flags = (.error reason, table', pmm') →
    ∀ virt, view table' virt = view table virt
  unmaps : ∀ table page frame table', mapper.unmap table page = (.ok frame, table') →
    view table page = some ⟨frame, 4096⟩ ∧ ∀ virt, view table' virt =
      if SamePage 4 virt page then none else view table virt
  keeps : ∀ table page reason table', mapper.unmap table page = (.error reason, table') →
    ∀ virt, view table' virt = view table virt
  mapTo_closed : ∀ table pmm page frame flags, tables table → allowed flags →
    page % 4096 = 0 → frame % 4096 = 0 → frame < 2 ^ 52 →
    tables (mapper.mapTo table pmm page frame flags).2.1
  unmap_closed : ∀ table page, tables table → tables (mapper.unmap table page).2

/-- What the mapper does to the leaves of the processor. -/
abbrev Mapper.Documented (mapper : Mapper) (tables : PageTable 4 → Prop)
    (allowed : PageTableFlags → Prop) : Prop :=
  mapper.Follows tables allowed PageTable.leaf fun _ flags => flags.present

/-- What the mapper does to the leaves that its own `translate_addr` finds.  A page at frame 0
without any flag leaves its entry unused. -/
structure Mapper.Finds (mapper : Mapper) (tables : PageTable 4 → Prop) : Prop extends
    mapper.Follows tables (fun _ => True) PageTable.found
      (fun frame flags => frame + flags.bits ≠ 0) where
  translates : ∀ table virt, mapper.translateAddr table virt = table.translateAddr virt

theorem Mapper.Follows.restrict {mapper : Mapper} {tables : PageTable 4 → Prop}
    {allowed fewer : PageTableFlags → Prop} {view : PageTable 4 → Nat → Option Leaf}
    {stored : Nat → PageTableFlags → Bool} (follows : mapper.Follows tables allowed view stored)
    (weaker : ∀ flags, fewer flags → allowed flags) : mapper.Follows tables fewer view stored :=
  { follows with
    maps := fun table pmm page frame flags table' pmm' inside fewer =>
      follows.maps table pmm page frame flags table' pmm' inside (weaker flags fewer)
    refuses := fun table pmm page frame flags reason table' pmm' inside fewer =>
      follows.refuses table pmm page frame flags reason table' pmm' inside (weaker flags fewer)
    mapTo_closed := fun table pmm page frame flags inside fewer =>
      follows.mapTo_closed table pmm page frame flags inside (weaker flags fewer) }

section Follows

variable {mapper : Mapper} {tables : PageTable 4 → Prop} {allowed : PageTableFlags → Prop}
  {view : PageTable 4 → Nat → Option Leaf} {stored : Nat → PageTableFlags → Bool}
  (follows : mapper.Follows tables allowed view stored)
include follows

theorem Mapper.Follows.mapTo_inside {table table' : PageTable 4} {pmm pmm' : PhysicalFrameAllocator}
    {page frame : Nat} {flags : PageTableFlags} {answer : Except MapToStop Unit} (inside : tables table)
    (use : allowed flags) (aligned : page % 4096 = 0) (frameAligned : frame % 4096 = 0)
    (bound : frame < 2 ^ 52) (done : mapper.mapTo table pmm page frame flags = (answer, table', pmm')) :
    tables table' := by
  have closed := follows.mapTo_closed table pmm page frame flags inside use aligned frameAligned bound
  rwa [done] at closed

theorem Mapper.Follows.unmap_inside {table table' : PageTable 4} {page : Nat}
    {answer : Except UnmapError Nat} (inside : tables table)
    (done : mapper.unmap table page = (answer, table')) : tables table' := by
  have closed := follows.unmap_closed table page inside
  rwa [done] at closed

end Follows

theorem Mapper.Finds.maps_page {mapper : Mapper} {tables : PageTable 4 → Prop}
    (finds : mapper.Finds tables) {table table' : PageTable 4} {pmm pmm' : PhysicalFrameAllocator}
    {page frame : Nat} {flags : PageTableFlags} (inside : tables table) (aligned : page % 4096 = 0)
    (frameAligned : frame % 4096 = 0) (bound : frame < 2 ^ 52)
    (done : mapper.mapTo table pmm page frame flags = (.ok (), table', pmm')) (virt : Nat) :
    table'.found virt =
      if SamePage 4 virt page then if frame + flags.bits ≠ 0 then some ⟨frame, 4096⟩ else none
      else table.found virt := by
  have found := finds.maps _ _ _ _ _ _ _ inside trivial aligned frameAligned bound done
  simpa only [decide_eq_true_eq] using found.2 virt

theorem PageTableFlags.bits_ne_zero {flags : PageTableFlags} (present : flags.present = true) :
    flags.bits ≠ 0 := by
  intro zero
  rw [PageTableFlags.present, zero] at present
  cases present

/-- Where pages are mapped with PRESENT only, `translate_addr` goes on finding what the processor
finds. -/
theorem Mapper.Finds.agreeing {mapper : Mapper} {tables : PageTable 4 → Prop}
    (finds : mapper.Finds tables) (documented : mapper.Documented tables fun _ => True) :
    mapper.Documented (fun table => tables table ∧ ∀ virt, table.found virt = table.leaf virt)
      fun flags => flags.present = true where
  allocates := documented.allocates
  maps := fun table pmm page frame flags table' pmm' inside _ =>
    documented.maps table pmm page frame flags table' pmm' inside.1 trivial
  refuses := fun table pmm page frame flags reason table' pmm' inside _ =>
    documented.refuses table pmm page frame flags reason table' pmm' inside.1 trivial
  unmaps := documented.unmaps
  keeps := documented.keeps
  mapTo_closed := by
    rintro table pmm page frame flags ⟨inside, agree⟩ present aligned frameAligned bound
    refine ⟨documented.mapTo_closed table pmm page frame flags inside trivial aligned frameAligned
      bound, fun virt => ?_⟩
    rcases done : mapper.mapTo table pmm page frame flags with ⟨answer, table', pmm'⟩
    cases answer with
    | ok value =>
        obtain ⟨_, leaves⟩ := documented.maps _ _ _ _ _ _ _ inside trivial aligned frameAligned bound done
        obtain ⟨_, found⟩ := finds.maps _ _ _ _ _ _ _ inside trivial aligned frameAligned bound done
        have used : frame + flags.bits ≠ 0 := by
          have := PageTableFlags.bits_ne_zero present
          omega
        simp only [found, leaves, present, used, ne_eq, not_false_eq_true, decide_true, if_true, agree]
    | error reason =>
        have leaves := documented.refuses _ _ _ _ _ _ _ _ inside trivial aligned frameAligned bound done
        have found := finds.refuses _ _ _ _ _ _ _ _ inside trivial aligned frameAligned bound done
        exact (found virt).trans ((agree virt).trans (leaves virt).symm)
  unmap_closed := by
    rintro table page ⟨inside, agree⟩
    refine ⟨documented.unmap_closed table page inside, fun virt => ?_⟩
    rcases done : mapper.unmap table page with ⟨answer, table'⟩
    cases answer with
    | ok phys =>
        obtain ⟨_, leaves⟩ := documented.unmaps _ _ _ _ done
        obtain ⟨_, found⟩ := finds.unmaps _ _ _ _ done
        simp only [found, leaves, agree]
    | error reason =>
        exact (finds.keeps _ _ _ _ done virt).trans
          ((agree virt).trans (documented.keeps _ _ _ _ done virt).symm)

namespace PageTable

def replace {level : Nat} (entry : Nat → PageTableEntry) (next : Nat → PageTable level)
    (index : Nat) (newEntry : PageTableEntry) (newNext : PageTable level) : PageTable (level + 1) :=
  .table (Function.update entry index newEntry) (Function.update next index newNext)

/-- `map_to` below a table.  The entry of a new table gets its flags from the page, and so does one
that is in use.  Without PRESENT then, and with HUGE_PAGE for a page, the call panics; nothing runs
after that, so the tables are given back as they were. -/
def insert : {level : Nat} → PageTable level → PhysicalFrameAllocator → Nat → Nat →
    PageTableFlags → Except MapToStop Unit × PageTable level × PhysicalFrameAllocator
  | 0, .frame, pmm, _, _, _ => (.error (.error .pageAlreadyMapped), .frame, pmm)
  | 1, .table entry next, pmm, page, phys, flags =>
      if (entry (tableIndex 0 page)).bits = 0 then
        if flags.hugePage then (.error .panic, .table entry next, pmm)
        else (.ok (), replace entry next (tableIndex 0 page) ⟨phys + flags.bits⟩ .frame, pmm)
      else (.error (.error .pageAlreadyMapped), .table entry next, pmm)
  | level + 2, .table entry next, pmm, page, phys, flags =>
      if (entry (tableIndex (level + 1) page)).bits = 0 then
        match pmm.allocateFrame with
        | (none, pmm) => (.error (.error .frameAllocationFailed), .table entry next, pmm)
        | (some taken, pmm) =>
            if !flags.present then (.error .panic, .table entry next, pmm)
            else
              let fresh : PageTableEntry := ⟨taken.asU64 + flags.bits % 8⟩
              let below := (empty (level + 1)).insert pmm page phys flags
              (below.1, replace entry next (tableIndex (level + 1) page) fresh below.2.1, below.2.2)
      else
        let linked : PageTableEntry := ⟨(entry (tableIndex (level + 1) page)).bits ||| flags.bits % 8⟩
        if !linked.present then (.error .panic, .table entry next, pmm)
        else if linked.hugePage then
          (.error (.error .parentEntryHugePage), replace entry next (tableIndex (level + 1) page) linked
            (next (tableIndex (level + 1) page)), pmm)
        else
          let below := (next (tableIndex (level + 1) page)).insert pmm page phys flags
          (below.1, replace entry next (tableIndex (level + 1) page) linked below.2.1, below.2.2)

/-- `unmap` below a table; no table is freed. -/
def erase : {level : Nat} → PageTable level → Nat → Except UnmapError Nat × PageTable level
  | 0, .frame, _ => (.error .pageNotMapped, .frame)
  | level + 1, .table entry next, page =>
      if !(entry (tableIndex level page)).present then (.error .pageNotMapped, .table entry next)
      else if (entry (tableIndex level page)).hugePage then
        (.error .parentEntryHugePage, .table entry next)
      else if level = 0 then
        (.ok (entry (tableIndex level page)).addr,
          replace entry next (tableIndex level page) ⟨0⟩ (next (tableIndex level page)))
      else
        let below := (next (tableIndex level page)).erase page
        (below.1, replace entry next (tableIndex level page) (entry (tableIndex level page)) below.2)

end PageTable

/-- The mapper of the `x86_64` crate on trees. -/
def treeMapper : Mapper where
  mapTo table pmm page frame flags := table.insert pmm page frame flags
  unmap table page := table.erase page
  translateAddr table virt := table.translateAddr virt

namespace PageTable

/-- A test of the entries that a walk may go by: it is that of PRESENT above the last level, and an
entry of a page table passes it when it is present, and not when it is unused. -/
structure Walks (live : Nat → PageTableEntry → Bool) : Prop where
  above : ∀ level entry, live (level + 1) entry = entry.present
  unused : ∀ level, live level ⟨0⟩ = false
  present : ∀ level entry, entry.present = true → live level entry = true

theorem walks_present : Walks fun _ entry => entry.present :=
  ⟨fun _ _ => rfl, fun _ => rfl, fun _ _ => id⟩

theorem walks_inUse : Walks inUse := by
  refine ⟨fun _ _ => rfl, fun level => ?_, inUse_of_present⟩
  cases level <;> rfl

section Replace

variable {level : Nat} (live : Nat → PageTableEntry → Bool) (entry : Nat → PageTableEntry)
  (next : Nat → PageTable level) (index : Nat) (newEntry : PageTableEntry) (newNext : PageTable level)

theorem leafBy_replace (virt : Nat) : (replace entry next index newEntry newNext).leafBy live virt =
    if tableIndex level virt = index then
      if !live level newEntry then none
      else if mapsPage level newEntry then
        some ⟨newEntry.addr / pageSize level * pageSize level, pageSize level⟩
      else newNext.leafBy live virt
    else (PageTable.table entry next).leafBy live virt := by
  rw [replace, leafBy, leafBy]
  by_cases same : tableIndex level virt = index
  · simp only [same, Function.update_self, if_true]
  · simp only [Function.update_of_ne same, same, if_false]

theorem leafBy_replace_same (lives : live level newEntry = live level (entry index))
    (maps : mapsPage level newEntry = mapsPage level (entry index))
    (addr : newEntry.addr = (entry index).addr)
    (virt : Nat) (below : newNext.leafBy live virt = (next index).leafBy live virt) :
    (replace entry next index newEntry newNext).leafBy live virt =
      (PageTable.table entry next).leafBy live virt := by
  rw [leafBy_replace]
  split
  · rename_i here
    rw [leafBy, here, lives, maps, addr, below]
  · rfl

theorem allLive_replace (allLive : (PageTable.table entry next).AllLive live)
    (here : newEntry.bits = 0 ∨ live level newEntry = true ∧
      (mapsPage level newEntry = true ∨ newNext.AllLive live)) :
    (replace entry next index newEntry newNext).AllLive live := by
  intro other bound
  by_cases same : other = index
  · simp only [same, Function.update_self]
    exact here
  · simp only [Function.update_of_ne same]
    exact allLive other bound

end Replace

theorem present_table (address : Nat) (flags : PageTableFlags) (aligned : address % 4096 = 0) :
    (PageTableEntry.mk (address + flags.bits)).present = flags.present := by
  simp only [PageTableEntry.present, PageTableFlags.present, Nat.testBit_zero, decide_eq_decide]
  omega

theorem addr_page {frame : Nat} (flags : PageTableFlags) (aligned : frame % 4096 = 0)
    (bound : frame < 2 ^ 52) : (PageTableEntry.mk (frame + flags.bits)).addr = frame := by
  have outside := flags.noAddress
  simp only [PageTableEntry.addr]
  omega

/-- What a call answers and does to the leaves: it changes those of one page, or none at all. -/
def Answered (live : Nat → PageTableEntry → Bool) {ε α : Type} {level : Nat} (answer : Except ε α)
    (page : Nat) (before : α → Option Leaf) (after : Option Leaf) (table table' : PageTable level) :
    Prop :=
  match answer with
  | .ok value => table.leafBy live page = before value ∧ ∀ virt, table'.leafBy live virt =
      if SamePage level virt page then after else table.leafBy live virt
  | .error _ => ∀ virt, table'.leafBy live virt = table.leafBy live virt

/-- A call on the table behind an entry is a call on the table, when the entry leads there
afterwards and led to the same leaves before. -/
theorem Answered.behind {live : Nat → PageTableEntry → Bool} {ε α : Type} {level page : Nat}
    {answer : Except ε α} {before : α → Option Leaf} {after : Option Leaf}
    {below below' : PageTable level} (answered : Answered live answer page before after below below')
    (entry : Nat → PageTableEntry) (next : Nat → PageTable level) {newEntry : PageTableEntry}
    (lives : live level newEntry = true) (leads : mapsPage level newEntry = false)
    (through : ∀ virt, tableIndex level virt = tableIndex level page →
      (PageTable.table entry next).leafBy live virt = below.leafBy live virt) :
    Answered live answer page before after (.table entry next)
      (replace entry next (tableIndex level page) newEntry below') := by
  have opened : ∀ virt,
      (replace entry next (tableIndex level page) newEntry below').leafBy live virt =
        if tableIndex level virt = tableIndex level page then below'.leafBy live virt
        else (PageTable.table entry next).leafBy live virt := by
    intro virt
    rw [leafBy_replace, lives, leads]
    rfl
  cases answer with
  | ok value =>
      obtain ⟨held, leaves⟩ := answered
      refine ⟨(through page rfl).trans held, fun virt => ?_⟩
      rw [opened]
      by_cases here : tableIndex level virt = tableIndex level page
      · rw [if_pos here, leaves, through virt here]
        simp only [samePage_succ, here, and_true]
      · rw [if_neg here, if_neg fun same => here ((samePage_succ _ _ _).mp same).2]
  | error reason =>
      intro virt
      rw [opened]
      split
      · rename_i here
        exact (answered virt).trans (through virt here).symm
      · rfl

theorem linked_facts (level : Nat) {entry : PageTableEntry} {flags : Nat} (small : flags < 8)
    (present : entry.present = true) :
    (PageTableEntry.mk (entry.bits ||| flags)).present = true ∧
      (PageTableEntry.mk (entry.bits ||| flags)).hugePage = entry.hugePage ∧
      mapsPage level ⟨entry.bits ||| flags⟩ = mapsPage level entry ∧
      (PageTableEntry.mk (entry.bits ||| flags)).addr = entry.addr := by
  have huge : (PageTableEntry.mk (entry.bits ||| flags)).hugePage = entry.hugePage :=
    PageTableEntry.hugePage_or small
  refine ⟨PageTableEntry.present_or entry.bits flags present, huge, ?_,
    PageTableEntry.addr_or (by omega)⟩
  rw [mapsPage, mapsPage, huge]

theorem leads_of_small (level : Nat) {entry : PageTableEntry} (small : entry.hugePage = false) :
    mapsPage (level + 1) entry = false := by
  rw [mapsPage, small, Bool.and_false, Bool.or_false]
  exact decide_eq_false (Nat.succ_ne_zero level)

theorem fresh_small (taken : PhysAddr) (flags : PageTableFlags)
    (aligned : taken.asU64 % 4096 = 0) (present : flags.present = true) :
    (PageTableEntry.mk (taken.asU64 + flags.bits % 8)).present = true ∧
      (PageTableEntry.mk (taken.asU64 + flags.bits % 8)).hugePage = false := by
  have bit : (flags.bits % 8).testBit 0 = true := by
    simp only [PageTableFlags.present, Nat.testBit_zero, decide_eq_true_eq] at present ⊢
    omega
  have opened := open_new aligned taken.inBounds (Nat.mod_lt flags.bits (by decide)) bit
  exact ⟨opened.1, opened.2.1⟩

theorem absent_of_unused {entry : PageTableEntry} (unused : entry.bits = 0) : entry.present = false := by
  rw [PageTableEntry.present, unused]
  rfl

section Walk

variable {live : Nat → PageTableEntry → Bool} (walks : Walks live)

include walks in
theorem leafBy_unused {level : Nat} {entry : Nat → PageTableEntry} {next : Nat → PageTable level}
    {virt : Nat} (unused : (entry (tableIndex level virt)).bits = 0) :
    (PageTable.table entry next).leafBy live virt = none := by
  have same : entry (tableIndex level virt) = ⟨0⟩ := congrArg PageTableEntry.mk unused
  rw [leafBy, same, walks.unused]
  rfl

include walks in
theorem leafBy_empty (level virt : Nat) : (empty level).leafBy live virt = none := by
  cases level with
  | zero => rfl
  | succ level => exact leafBy_unused walks rfl

theorem leafBy_through {level : Nat} {entry : Nat → PageTableEntry} {next : Nat → PageTable level}
    {virt index : Nat} (here : tableIndex level virt = index)
    (lives : live level (entry index) = true) (leads : mapsPage level (entry index) = false) :
    (PageTable.table entry next).leafBy live virt = (next index).leafBy live virt := by
  rw [leafBy, here, lives, leads]
  rfl

theorem samePage_zero (virt page : Nat) : SamePage 0 virt page := by
  rw [SamePage, Nat.pow_zero, Nat.mod_one, Nat.mod_one]

theorem replace_last (entry : Nat → PageTableEntry) (next : Nat → PageTable 0) (page : Nat)
    (newEntry : PageTableEntry) (newNext : PageTable 0) (virt : Nat) :
    (replace entry next (tableIndex 0 page) newEntry newNext).leafBy live virt =
      if SamePage 1 virt page then
        if live 0 newEntry then some ⟨newEntry.addr, 4096⟩ else none
      else (PageTable.table entry next).leafBy live virt := by
  have whole : newEntry.addr / 4096 * 4096 = newEntry.addr := by
    rw [PageTableEntry.addr, Nat.mul_div_cancel _ (by decide)]
  rw [leafBy_replace, pageSize_zero, whole]
  by_cases here : tableIndex 0 virt = tableIndex 0 page
  · rw [if_pos here, if_pos ((samePage_succ _ _ _).mpr ⟨samePage_zero virt page, here⟩)]
    cases live 0 newEntry <;> rfl
  · rw [if_neg here, if_neg fun same => here ((samePage_succ _ _ _).mp same).2]

/-- Above the last level an entry of tidy tables that is in use is present, and leads to tidy tables
unless it has HUGE_PAGE. -/
theorem Tidy.entry {level : Nat} {entry : Nat → PageTableEntry} {next : Nat → PageTable (level + 1)}
    (tidy : (PageTable.table entry next).Tidy) (page : Nat)
    (used : (entry (tableIndex (level + 1) page)).bits ≠ 0) :
    (entry (tableIndex (level + 1) page)).present = true ∧
      (mapsPage (level + 1) (entry (tableIndex (level + 1) page)) = true ∨
        (next (tableIndex (level + 1) page)).Tidy) :=
  (tidy _ (tableIndex_lt (level + 1) page)).resolve_left used

theorem tidy_empty (level : Nat) : (empty level).Tidy := by
  cases level with
  | zero => trivial
  | succ level => exact fun _ _ => .inl rfl

end Walk

/-- The entry still leads, or does not lead, to what it led to. -/
structure SameEntry (level : Nat) (old new : PageTableEntry) : Prop where
  present : new.present = old.present
  maps : mapsPage level new = mapsPage level old
  addr : new.addr = old.addr
  unused : new.bits = 0 ↔ old.bits = 0

section Insert

variable {level : Nat} (entry : Nat → PageTableEntry) (next : Nat → PageTable (level + 1))
  (pmm : PhysicalFrameAllocator) (page phys : Nat) (flags : PageTableFlags)

/-- What `map_to` does at an entry above the last level of tidy tables: it stops there, it opens a
new table behind it, or it goes on in the table that is there. -/
inductive Inserts :
    Except MapToStop Unit × PageTable (level + 2) × PhysicalFrameAllocator → Prop
  | stops (reason : MapToStop) (newEntry : PageTableEntry) (count : Nat) (few : count ≤ 1)
      (other : reason ≠ .error .pageAlreadyMapped)
      (same : SameEntry (level + 1) (entry (tableIndex (level + 1) page)) newEntry) :
      Inserts (.error reason, replace entry next (tableIndex (level + 1) page) newEntry
        (next (tableIndex (level + 1) page)), allocations count pmm)
  | opens (newEntry : PageTableEntry) (live : newEntry.present = true)
      (small : newEntry.hugePage = false)
      (unused : (entry (tableIndex (level + 1) page)).bits = 0) :
      Inserts (((empty (level + 1)).insert pmm.allocateFrame.2 page phys flags).1,
        replace entry next (tableIndex (level + 1) page) newEntry
          ((empty (level + 1)).insert pmm.allocateFrame.2 page phys flags).2.1,
        ((empty (level + 1)).insert pmm.allocateFrame.2 page phys flags).2.2)
  | follows (newEntry : PageTableEntry) (live : newEntry.present = true)
      (small : newEntry.hugePage = false)
      (present : (entry (tableIndex (level + 1) page)).present = true)
      (leads : (entry (tableIndex (level + 1) page)).hugePage = false)
      (tidy : (next (tableIndex (level + 1) page)).Tidy) :
      Inserts (((next (tableIndex (level + 1) page)).insert pmm page phys flags).1,
        replace entry next (tableIndex (level + 1) page) newEntry
          ((next (tableIndex (level + 1) page)).insert pmm page phys flags).2.1,
        ((next (tableIndex (level + 1) page)).insert pmm page phys flags).2.2)

theorem Inserts.unchanged {reason : MapToStop} {count : Nat} (few : count ≤ 1)
    (other : reason ≠ .error .pageAlreadyMapped) :
    Inserts entry next pmm page phys flags
      (.error reason, .table entry next, allocations count pmm) := by
  have stopped : Inserts entry next pmm page phys flags _ := .stops reason
    (entry (tableIndex (level + 1) page)) count few other ⟨rfl, rfl, rfl, Iff.rfl⟩
  rwa [replace, Function.update_eq_self, Function.update_eq_self] at stopped

variable {entry next}

theorem insert_inserts (tidy : (PageTable.table entry next).Tidy) :
    Inserts entry next pmm page phys flags ((PageTable.table entry next).insert pmm page phys flags) := by
  by_cases unused : (entry (tableIndex (level + 1) page)).bits = 0
  · rw [insert, if_pos unused]
    split
    · rename_i pmmTaken given
      rw [show pmmTaken = allocations 1 pmm by simp only [allocations, given]]
      exact .unchanged entry next pmm page phys flags (Nat.le_refl 1) (by simp)
    rename_i taken pmmTaken given
    have rest : pmmTaken = pmm.allocateFrame.2 := by rw [given]
    have granted := allocateFrame_granted (show pmm.allocateFrame.1 = some taken by rw [given])
    rw [rest]
    split
    · exact .unchanged entry next pmm page phys flags (Nat.le_refl 1) (by simp)
    · rename_i present
      rw [Bool.not_eq_true', Bool.not_eq_false] at present
      obtain ⟨live, small⟩ := fresh_small taken flags granted.aligned present
      exact .opens _ live small unused
  · obtain ⟨present, behind⟩ := tidy.entry page unused
    obtain ⟨live, huge, maps, addr⟩ := linked_facts (level + 1)
      (Nat.mod_lt flags.bits (by decide) : flags.bits % 8 < 8) present
    rw [insert, if_neg unused]
    simp only [live, huge, Bool.not_true, Bool.false_eq_true, if_false]
    split
    · refine .stops _ _ 0 (Nat.zero_le 1) (by simp) ⟨live.trans present.symm, maps, addr, ?_⟩
      refine iff_of_false (fun zero => ?_) unused
      rw [absent_of_unused zero] at live
      cases live
    · rename_i small
      rw [Bool.not_eq_true] at small
      refine .follows _ live (huge.trans small) present small (behind.resolve_left ?_)
      rw [leads_of_small level small]
      exact Bool.false_ne_true

end Insert

theorem Walks.same {live : Nat → PageTableEntry → Bool} (walks : Walks live) {level : Nat}
    {old new : PageTableEntry} (same : SameEntry (level + 1) old new) :
    live (level + 1) new = live (level + 1) old := by
  rw [walks.above, walks.above, same.present]

theorem insert_answered {live : Nat → PageTableEntry → Bool} (walks : Walks live) {level : Nat}
    {table : PageTable level} (tidy : table.Tidy) (pmm : PhysicalFrameAllocator)
    (page : Nat) {phys : Nat} (flags : PageTableFlags) (aligned : phys % 4096 = 0)
    (bound : phys < 2 ^ 52) :
    Answered live (table.insert pmm page phys flags).1 page (fun _ => none)
      (if live 0 ⟨phys + flags.bits⟩ then some ⟨phys, 4096⟩ else none) table
      (table.insert pmm page phys flags).2.1 := by
  induction level generalizing pmm with
  | zero =>
      cases table
      exact fun virt => rfl
  | succ level ih =>
      cases table with
      | table entry next =>
          cases level with
          | zero =>
              rw [insert]
              split
              · rename_i unused
                split
                · exact fun virt => rfl
                refine ⟨leafBy_unused walks unused, fun virt => ?_⟩
                rw [replace_last, addr_page flags aligned bound]
              · exact fun virt => rfl
          | succ level =>
              have inserts := insert_inserts pmm page phys flags tidy
              generalize (PageTable.table entry next).insert pmm page phys flags = result at inserts ⊢
              cases inserts with
              | stops reason newEntry count few other same =>
                  intro virt
                  exact leafBy_replace_same live entry next _ _ _ (walks.same same) same.maps same.addr
                    virt rfl
              | opens newEntry present small unused =>
                  refine (ih (tidy_empty (level + 1)) _).behind entry next ?_ ?_ ?_
                  · rw [walks.above, present]
                  · exact leads_of_small level small
                  · intro virt here
                    rw [leafBy_empty walks, leafBy_unused walks (here ▸ unused)]
              | follows newEntry present small live leads tidyBelow =>
                  refine (ih tidyBelow pmm).behind entry next ?_ ?_ ?_
                  · rw [walks.above, present]
                  · exact leads_of_small level small
                  · intro virt here
                    refine leafBy_through here ?_ (leads_of_small level leads)
                    rw [walks.above, live]

theorem insert_tidy {level : Nat} {table : PageTable level} (tidy : table.Tidy)
    (pmm : PhysicalFrameAllocator) (page phys : Nat) (flags : PageTableFlags) :
    (table.insert pmm page phys flags).2.1.Tidy := by
  induction level generalizing pmm with
  | zero =>
      cases table
      trivial
  | succ level ih =>
      cases table with
      | table entry next =>
          cases level with
          | zero =>
              rw [insert]
              split
              · split
                · exact tidy
                refine allLive_replace _ entry next _ _ _ tidy ?_
                by_cases zero : phys + flags.bits = 0
                · exact .inl zero
                · exact .inr ⟨decide_eq_true zero, .inl rfl⟩
              · exact tidy
          | succ level =>
              have inserts := insert_inserts pmm page phys flags tidy
              generalize (PageTable.table entry next).insert pmm page phys flags = result at inserts ⊢
              cases inserts with
              | stops reason newEntry count few other same =>
                  refine allLive_replace _ entry next _ _ _ tidy ?_
                  rw [same.unused, walks_inUse.same same, same.maps]
                  exact tidy _ (tableIndex_lt _ _)
              | opens newEntry present small unused =>
                  exact allLive_replace _ entry next _ _ _ tidy
                    (.inr ⟨present, .inr (ih (tidy_empty (level + 1)) _)⟩)
              | follows newEntry present small live leads tidyBelow =>
                  exact allLive_replace _ entry next _ _ _ tidy (.inr ⟨present, .inr (ih tidyBelow pmm)⟩)

theorem insert_allocates {level : Nat} (table : PageTable (level + 1)) (pmm : PhysicalFrameAllocator)
    (page phys : Nat) (flags : PageTableFlags) : ∃ count ≤ level,
      (table.insert pmm page phys flags).2.2 = allocations count pmm := by
  induction level generalizing pmm with
  | zero =>
      cases table with
      | table entry next =>
          rw [insert]
          split
          · split <;> exact ⟨0, Nat.le_refl _, rfl⟩
          · exact ⟨0, Nat.le_refl _, rfl⟩
  | succ level ih =>
      cases table with
      | table entry next =>
          rw [insert]
          split
          · split
            · rename_i pmmTaken given
              exact ⟨1, Nat.succ_le_succ (Nat.zero_le _), by simp only [allocations, given]⟩
            rename_i taken pmmTaken given
            split
            · exact ⟨1, Nat.succ_le_succ (Nat.zero_le _), by simp only [allocations, given]⟩
            · obtain ⟨count, bound, took⟩ := ih (empty (level + 1)) pmmTaken
              exact ⟨count + 1, Nat.succ_le_succ bound, by simp only [allocations, given, took]⟩
          · simp only
            split
            · exact ⟨0, Nat.zero_le _, rfl⟩
            split
            · exact ⟨0, Nat.zero_le _, rfl⟩
            · obtain ⟨count, bound, took⟩ := ih (next (tableIndex (level + 1) page)) pmm
              exact ⟨count, Nat.le_succ_of_le bound, took⟩

theorem erase_answered {live : Nat → PageTableEntry → Bool} (walks : Walks live) {level : Nat}
    (table : PageTable level) (page : Nat) :
    Answered live (table.erase page).1 page (fun phys => some ⟨phys, 4096⟩) none table
      (table.erase page).2 := by
  induction table with
  | frame => exact fun virt => rfl
  | @table level entry next ih =>
      rw [erase]
      split
      · exact fun virt => rfl
      rename_i present
      rw [Bool.not_eq_true', Bool.not_eq_false] at present
      have lives := walks.present level _ present
      split
      · exact fun virt => rfl
      rename_i small
      rw [Bool.not_eq_true] at small
      cases level with
      | zero =>
          have whole : (entry (tableIndex 0 page)).addr / 4096 * 4096 = (entry (tableIndex 0 page)).addr := by
            rw [PageTableEntry.addr, Nat.mul_div_cancel _ (by decide)]
          rw [if_pos rfl]
          refine ⟨?_, fun virt => ?_⟩
          · rw [leafBy, lives, pageSize_zero, whole]
            rfl
          · rw [replace_last, walks.unused]
            rfl
      | succ level =>
          have leads := leads_of_small level small
          rw [if_neg (Nat.succ_ne_zero level)]
          refine (ih (tableIndex (level + 1) page)).behind entry next lives leads ?_
          exact fun virt here => leafBy_through here lives leads

theorem erase_tidy {level : Nat} {table : PageTable level} (tidy : table.Tidy) (page : Nat) :
    (table.erase page).2.Tidy := by
  induction table with
  | frame => trivial
  | @table level entry next ih =>
      rw [erase]
      split
      · exact tidy
      split
      · exact tidy
      split
      · exact allLive_replace _ entry next _ _ _ tidy (.inl rfl)
      · refine allLive_replace _ entry next _ _ _ tidy ?_
        rcases tidy _ (tableIndex_lt level page) with unused | ⟨live, maps | below⟩
        · exact .inl unused
        · exact .inr ⟨live, .inl maps⟩
        · exact .inr ⟨live, .inr (ih _ below)⟩

end PageTable

/-- What the mapper on trees does, seen by a walk. -/
theorem treeMapper_follows {live : Nat → PageTableEntry → Bool} (walks : PageTable.Walks live)
    {view : PageTable 4 → Nat → Option Leaf} (viewed : ∀ table, view table = table.leafBy live)
    {stored : Nat → PageTableFlags → Bool}
    (lives : ∀ frame flags, frame % 4096 = 0 → live 0 ⟨frame + flags.bits⟩ = stored frame flags) :
    treeMapper.Follows PageTable.Tidy (fun _ => True) view stored := by
  constructor
  · intro table pmm page phys flags
    exact table.insert_allocates pmm page phys flags
  · intro table pmm page phys flags table' pmm' tidy _ _ aligned bound done
    have answered := PageTable.insert_answered walks tidy pmm page flags aligned bound
    rw [show table.insert pmm page phys flags = _ from done, lives phys flags aligned] at answered
    rw [viewed, viewed]
    exact answered
  · intro table pmm page phys flags reason table' pmm' tidy _ _ aligned bound done
    have answered := PageTable.insert_answered walks tidy pmm page flags aligned bound
    rw [show table.insert pmm page phys flags = _ from done] at answered
    rw [viewed, viewed]
    exact answered
  · intro table page phys table' done
    have erased := table.erase_answered walks page
    rw [show table.erase page = _ from done] at erased
    rw [viewed, viewed]
    exact erased
  · intro table page reason table' done
    have erased := table.erase_answered walks page
    rw [show table.erase page = _ from done] at erased
    rw [viewed, viewed]
    exact erased
  · exact fun table pmm page phys flags tidy _ _ _ _ =>
      PageTable.insert_tidy tidy pmm page phys flags
  · exact fun table page tidy => PageTable.erase_tidy tidy page

theorem treeMapper_documented : treeMapper.Documented PageTable.Tidy fun _ => True :=
  treeMapper_follows PageTable.walks_present (fun table => table.leaf_eq)
    fun frame flags aligned => PageTable.present_table frame flags aligned

theorem treeMapper_finds : treeMapper.Finds PageTable.Tidy where
  toFollows := treeMapper_follows PageTable.walks_inUse (fun _ => rfl) fun _ _ _ => rfl
  translates := fun _ _ => rfl

end ArcadiaOs.Vmm
