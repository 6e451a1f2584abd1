import ArcadiaOs.Process.OffsetPageTable
import ArcadiaOs.Process.UserPointer

/-!
The kernel's own page tables.  They are a tree: a table holds raw entries and, behind the
entries that lead to one, the tables of the next level.  `boot64.asm` builds the first
such tree in physical memory.
-/

namespace ArcadiaOs.Vmm

open Lib Process

/-- A table of a level with the tables below it; level 4 is the PML4, level 0 a frame. -/
inductive PageTable : Nat → Type
  | frame : PageTable 0
  | table {level : Nat} (entry : Nat → PageTableEntry) (next : Nat → PageTable level) :
      PageTable (level + 1)

/-- The bytes behind one entry of a table above the level. -/
def pageSize (level : Nat) : Nat := 4096 * 512 ^ level

def tableIndex (level virt : Nat) : Nat := virt / pageSize level % 512

/-- A present entry above the level maps a page itself: each entry of a page table does, and in
the PD and the PDP those with HUGE_PAGE. -/
def mapsPage (level : Nat) (entry : PageTableEntry) : Bool :=
  level = 0 || (level ≠ 3 && entry.hugePage)

structure Leaf where
  addr : Nat
  size : Nat
  deriving DecidableEq

/-- The test of `translate_addr`: an entry of a page table is taken when it is in use, present or
not. -/
def inUse (level : Nat) (entry : PageTableEntry) : Bool :=
  if level = 0 then entry.bits ≠ 0 else entry.present

namespace PageTable

/-- The walk of the processor; an entry that is not present ends it. -/
def leaf : {level : Nat} → PageTable level → Nat → Option Leaf
  | 0, .frame, _ => none
  | level + 1, .table entry next, virt =>
      if !(entry (tableIndex level virt)).present then none
      else if mapsPage level (entry (tableIndex level virt)) then
        some ⟨(entry (tableIndex level virt)).addr / pageSize level * pageSize level, pageSize level⟩
      else (next (tableIndex level virt)).leaf virt

def translate (table : PageTable 4) (virt : Nat) : Option Nat :=
  (table.leaf virt).map fun leaf => leaf.addr + virt % leaf.size

/-- A walk that goes by another test of the entries than their PRESENT bit. -/
def leafBy (live : Nat → PageTableEntry → Bool) :
    {level : Nat} → PageTable level → Nat → Option Leaf
  | 0, .frame, _ => none
  | level + 1, .table entry next, virt =>
      if !live level (entry (tableIndex level virt)) then none
      else if mapsPage level (entry (tableIndex level virt)) then
        some ⟨(entry (tableIndex level virt)).addr / pageSize level * pageSize level, pageSize level⟩
      else (next (tableIndex level virt)).leafBy live virt

/-- The walk of `translate_addr`. -/
def found {level : Nat} (table : PageTable level) (virt : Nat) : Option Leaf :=
  table.leafBy inUse virt

def translateAddr (table : PageTable 4) (virt : Nat) : Option Nat :=
  (table.found virt).map fun leaf => leaf.addr + virt % leaf.size

/-- Each entry is unused or passes the test, as far as tables are reached. -/
def AllLive (live : Nat → PageTableEntry → Bool) : {level : Nat} → PageTable level → Prop
  | 0, .frame => True
  | level + 1, .table entry next => ∀ index < 512, (entry index).bits = 0 ∨
      live level (entry index) = true ∧
        (mapsPage level (entry index) = true ∨ (next index).AllLive live)

/-- No table is hidden behind an entry that is in use without PRESENT. -/
def Tidy {level : Nat} (table : PageTable level) : Prop := table.AllLive inUse

def empty : (level : Nat) → PageTable level
  | 0 => .frame
  | level + 1 => .table (fun _ => ⟨0⟩) fun _ => empty level

/-- The tree that lies in physical memory below the table at an address. -/
def read (memory : Memory) : (level : Nat) → Nat → PageTable level
  | 0, _ => .frame
  | level + 1, address =>
      .table (tableEntry memory address) fun index =>
        read memory level (tableEntry memory address index).addr

end PageTable

/-- The entries that `boot64.asm` stores: PML4 at 0x1000, PDP at 0x2000, PD at 0x3000. -/
def bootEntries : List (Nat × Nat) :=
  [(0x1000, 0x2003),
   (0x2000, 0x3003),
   (0x3000, 0x00000083),
   (0x3008, 0x00200083),
   (0x3010, 0x00400083)]

/-- The three tables are cleared first, so a `mov dword` sets a whole entry. -/
def bootMemory (memory : Memory) : Memory := writes (memory.fill 0x1000 (4096 * 3) 0) bootEntries

def bootTables (memory : Memory) : PageTable 4 := .read (bootMemory memory) 4 0x1000

theorem pageSize_zero : pageSize 0 = 4096 := rfl

theorem pageSize_pos (level : Nat) : 0 < pageSize level :=
  Nat.mul_pos (by decide) (Nat.pow_pos (by decide))

theorem pageSize_succ (level : Nat) : pageSize (level + 1) = pageSize level * 512 := by
  rw [pageSize, pageSize, Nat.pow_succ, Nat.mul_assoc]

theorem page_dvd (level : Nat) : 4096 ∣ pageSize level := Nat.dvd_mul_right _ _

theorem tableIndex_lt (level virt : Nat) : tableIndex level virt < 512 := Nat.mod_lt _ (by decide)

/-- The two addresses lie in one 4 KiB page, as far as a table of the level can tell. -/
def SamePage (level virt page : Nat) : Prop := virt / 4096 % 512 ^ level = page / 4096 % 512 ^ level

instance (level virt page : Nat) : Decidable (SamePage level virt page) :=
  inferInstanceAs (Decidable (_ = _))

theorem tableIndex_eq (level virt : Nat) : tableIndex level virt = virt / 4096 / 512 ^ level % 512 := by
  rw [tableIndex, pageSize, Nat.div_div_eq_div_mul]

theorem samePage_succ (level virt page : Nat) : SamePage (level + 1) virt page ↔
    SamePage level virt page ∧ tableIndex level virt = tableIndex level page := by
  have positive : 0 < 512 ^ level := Nat.pow_pos (by decide)
  rw [SamePage, SamePage, tableIndex_eq, tableIndex_eq, Nat.pow_succ, Nat.mod_mul, Nat.mod_mul]
  have small := Nat.mod_lt (virt / 4096) positive
  have smallPage := Nat.mod_lt (page / 4096) positive
  constructor
  · intro same
    have low : virt / 4096 % 512 ^ level = page / 4096 % 512 ^ level := by
      have reduced := congrArg (· % 512 ^ level) same
      simpa only [Nat.add_mul_mod_self_left, Nat.mod_mod] using reduced
    rw [low, Nat.add_left_cancel_iff] at same
    exact ⟨low, Nat.eq_of_mul_eq_mul_left positive same⟩
  · rintro ⟨low, high⟩
    rw [low, high]

namespace PageTable

theorem leaf_eq {level : Nat} (table : PageTable level) :
    table.leaf = table.leafBy fun _ entry => entry.present := by
  funext virt
  induction table with
  | frame => rfl
  | table entry next ih => simp only [leaf, leafBy, ih]

theorem leafBy_congr {level virt page : Nat} (live : Nat → PageTableEntry → Bool)
    (table : PageTable level) (same : SamePage level virt page) :
    table.leafBy live virt = table.leafBy live page := by
  induction table with
  | frame => rfl
  | table entry next ih =>
      obtain ⟨below, index⟩ := (samePage_succ _ _ _).mp same
      simp only [leafBy, index, ih _ below]

theorem found_congr {level virt page : Nat} (table : PageTable level) (same : SamePage level virt page) :
    table.found virt = table.found page :=
  leafBy_congr inUse table same

theorem leaf_congr {level virt page : Nat} (table : PageTable level) (same : SamePage level virt page) :
    table.leaf virt = table.leaf page := by
  rw [leaf_eq, leafBy_congr _ table same]

theorem leafBy_size {level virt : Nat} {live : Nat → PageTableEntry → Bool}
    {table : PageTable level} {found : Leaf} (leads : table.leafBy live virt = some found) :
    ∃ height < level, found.size = pageSize height ∧ found.addr % pageSize height = 0 := by
  induction table with
  | frame => cases leads
  | @table level entry next ih =>
      rw [leafBy] at leads
      split at leads
      · cases leads
      split at leads
      · rw [Option.some.injEq] at leads
        subst leads
        exact ⟨level, Nat.lt_succ_self level, rfl, Nat.mul_mod_left _ _⟩
      · obtain ⟨height, below, size⟩ := ih _ leads
        exact ⟨height, Nat.lt_succ_of_lt below, size⟩

theorem leaf_size {level virt : Nat} {table : PageTable level} {found : Leaf}
    (leads : table.leaf virt = some found) :
    ∃ height < level, found.size = pageSize height ∧ found.addr % pageSize height = 0 := by
  rw [leaf_eq] at leads
  exact leafBy_size leads

/-- Tables whose entries all pass one test look the same by a test that unused entries fail too. -/
theorem leafBy_agree {live other : Nat → PageTableEntry → Bool}
    (unused : ∀ level, live level ⟨0⟩ = false ∧ other level ⟨0⟩ = false)
    (passes : ∀ level entry, live level entry = true → other level entry = true) {level : Nat}
    {table : PageTable level} (allLive : table.AllLive live) (virt : Nat) :
    table.leafBy live virt = table.leafBy other virt := by
  induction table with
  | frame => rfl
  | @table level entry next ih =>
      rw [leafBy, leafBy]
      rcases allLive _ (tableIndex_lt level virt) with zero | ⟨passed, below⟩
      · have same : entry (tableIndex level virt) = ⟨0⟩ := congrArg PageTableEntry.mk zero
        rw [same, (unused level).1, (unused level).2]
        rfl
      · rw [passed, passes _ _ passed]
        rcases below with page | allLiveBelow
        · rw [if_pos page, if_pos page]
        · rw [ih _ allLiveBelow]

theorem AllLive.of_passes {live other : Nat → PageTableEntry → Bool}
    (passes : ∀ level entry, live level entry = true → other level entry = true) {level : Nat}
    {table : PageTable level} (allLive : table.AllLive live) : table.AllLive other := by
  induction table with
  | frame => trivial
  | @table level entry next ih =>
      intro index bound
      rcases allLive index bound with zero | ⟨passed, page | below⟩
      · exact .inl zero
      · exact .inr ⟨passes _ _ passed, .inl page⟩
      · exact .inr ⟨passes _ _ passed, .inr (ih index below)⟩

theorem inUse_of_present (level : Nat) (entry : PageTableEntry) (present : entry.present = true) :
    inUse level entry = true := by
  rw [inUse]
  split
  · refine decide_eq_true fun zero => ?_
    rw [PageTableEntry.present, zero] at present
    cases present
  · exact present

/-- Where every entry in use is present, `translate_addr` finds what the processor finds. -/
theorem found_eq_leaf {level : Nat} {table : PageTable level}
    (present : table.AllLive fun _ entry => entry.present) (virt : Nat) :
    table.found virt = table.leaf virt := by
  rw [leaf_eq, found, leafBy_agree (fun level => ⟨rfl, by cases level <;> rfl⟩) inUse_of_present present]

theorem leaf_read (memory : Memory) (level address virt : Nat) :
    (read memory (level + 1) address).leaf virt =
      if !(tableEntry memory address (tableIndex level virt)).present then none
      else if mapsPage level (tableEntry memory address (tableIndex level virt)) then
        some ⟨(tableEntry memory address (tableIndex level virt)).addr / pageSize level * pageSize level,
          pageSize level⟩
      else (read memory level (tableEntry memory address (tableIndex level virt)).addr).leaf virt := by
  rw [read, leaf]

/-- The tree maps an address exactly when every entry of its walk through memory is present. -/
theorem leaf_isSome_iff (memory : Memory) (pml4 virt : Nat) :
    ((read memory 4 pml4).leaf virt).isSome = true ↔
      ∀ entry ∈ walk memory pml4 virt, entry.present = true := by
  have index4 : tableIndex 3 virt = p4Index virt := rfl
  have index3 : tableIndex 2 virt = p3Index virt := rfl
  have index2 : tableIndex 1 virt = p2Index virt := rfl
  have index1 : tableIndex 0 virt = p1Index virt := rfl
  simp only [leaf_read, Process.walk, index4, index3, index2, index1, mapsPage]
  generalize tableEntry memory pml4 (p4Index virt) = entry4
  cases present4 : entry4.present with
  | false => simp [present4]
  | true =>
      generalize tableEntry memory entry4.addr (p3Index virt) = entry3
      cases present3 : entry3.present with
      | false => simp [present4, present3]
      | true =>
          cases huge3 : entry3.hugePage with
          | true => simp [present4, present3]
          | false =>
              generalize tableEntry memory entry3.addr (p2Index virt) = entry2
              cases present2 : entry2.present with
              | false => simp [present4, present3, present2]
              | true =>
                  cases huge2 : entry2.hugePage with
                  | true => simp [present4, present3, present2]
                  | false => simp [present4, present3, present2]

end PageTable

section Boot

variable (memory : Memory)

theorem bootMemory_used {slot value : Nat} (member : (slot, value) ∈ bootEntries) :
    (bootMemory memory).readU64 slot = value := by
  have apart : bootEntries.Pairwise Apart := by
    unfold bootEntries Apart
    decide
  have small : ∀ write ∈ bootEntries, write.2 < 2 ^ 64 := by decide
  rw [bootMemory, readU64_writes_same apart member, Nat.mod_eq_of_lt (small _ member)]

theorem bootMemory_unused {slot : Nat} (aligned : slot % 8 = 0) (above : 0x1000 ≤ slot)
    (below : slot < 0x4000) (other : ∀ write ∈ bootEntries, write.1 ≠ slot) :
    (bootMemory memory).readU64 slot = 0 := by
  have slots : ∀ write ∈ bootEntries, write.1 % 8 = 0 := by decide
  rw [bootMemory, readU64_writes_other]
  · refine Memory.readU64_zero fun place low high => ?_
    exact Memory.fill_inside (by omega) (by omega)
  · intro write member
    have even := slots write member
    have apart := other write member
    omega

theorem bootEntry_used {address index value : Nat}
    (member : (address + 8 * index, value) ∈ bootEntries) :
    tableEntry (bootMemory memory) address index = ⟨value⟩ := by
  rw [tableEntry, bootMemory_used memory member]

theorem bootEntry_zero {address index : Nat} (known : address ∈ [0x1000, 0x2000, 0x3000])
    (bound : index < 512) (other : ∀ write ∈ bootEntries, write.1 ≠ address + 8 * index) :
    tableEntry (bootMemory memory) address index = ⟨0⟩ := by
  simp only [List.mem_cons, List.not_mem_nil, or_false] at known
  rw [tableEntry, bootMemory_unused memory (by omega) (by omega) (by omega) other]

theorem bootEntry_unused {address index : Nat} (known : address ∈ [0x1000, 0x2000, 0x3000])
    (bound : index < 512) (other : ∀ write ∈ bootEntries, write.1 ≠ address + 8 * index) :
    (tableEntry (bootMemory memory) address index).present = false := by
  rw [bootEntry_zero memory known bound other]
  rfl

theorem bootPd_leaf (virt : Nat) : (PageTable.read (bootMemory memory) 2 0x3000).leaf virt =
    if tableIndex 1 virt < 3 then some ⟨tableIndex 1 virt * 2 ^ 21, 2 ^ 21⟩ else none := by
  have pages : ∀ index < 3, (0x3000 + 8 * index, index * 2 ^ 21 + 0x83) ∈ bootEntries ∧
      (PageTableEntry.mk (index * 2 ^ 21 + 0x83)).present = true ∧
      mapsPage 1 ⟨index * 2 ^ 21 + 0x83⟩ = true ∧
      (PageTableEntry.mk (index * 2 ^ 21 + 0x83)).addr / pageSize 1 * pageSize 1 = index * 2 ^ 21 := by
    decide
  have bound := tableIndex_lt 1 virt
  rw [PageTable.leaf_read]
  by_cases low : tableIndex 1 virt < 3
  · obtain ⟨member, present, maps, addr⟩ := pages _ low
    rw [bootEntry_used memory member, present, maps, addr, if_pos low]
    rfl
  · rw [bootEntry_unused memory (by simp) bound, if_neg low]
    · rfl
    · simp only [bootEntries, List.forall_mem_cons, List.not_mem_nil, IsEmpty.forall_iff,
        implies_true, and_true]
      omega

/-- The boot tables map the first 6 MiB to themselves with three 2 MiB pages, and nothing else. -/
theorem bootTables_leaf (virt : Nat) : (bootTables memory).leaf virt =
    if virt / 2 ^ 30 % 2 ^ 18 = 0 ∧ virt / 2 ^ 21 % 512 < 3 then
      some ⟨virt / 2 ^ 21 % 512 * 2 ^ 21, 2 ^ 21⟩
    else none := by
  have index4 : tableIndex 3 virt = virt / 2 ^ 39 % 512 := rfl
  have index3 : tableIndex 2 virt = virt / 2 ^ 30 % 512 := rfl
  have index2 : tableIndex 1 virt = virt / 2 ^ 21 % 512 := rfl
  have bound4 := tableIndex_lt 3 virt
  have bound3 := tableIndex_lt 2 virt
  rw [bootTables, PageTable.leaf_read]
  by_cases first4 : tableIndex 3 virt = 0
  · have entry4 : tableEntry (bootMemory memory) 0x1000 (tableIndex 3 virt) = ⟨0x2003⟩ := by
      rw [first4]
      exact bootEntry_used memory (by decide)
    rw [entry4, if_neg (by decide), if_neg (by decide), PageTable.leaf_read,
      show (PageTableEntry.mk 0x2003).addr = 0x2000 from rfl]
    by_cases first3 : tableIndex 2 virt = 0
    · have entry3 : tableEntry (bootMemory memory) 0x2000 (tableIndex 2 virt) = ⟨0x3003⟩ := by
        rw [first3]
        exact bootEntry_used memory (by decide)
      have low : (virt / 2 ^ 30 % 2 ^ 18 = 0 ∧ virt / 2 ^ 21 % 512 < 3) ↔ tableIndex 1 virt < 3 := by
        omega
      rw [entry3, if_neg (by decide), if_neg (by decide),
        show (PageTableEntry.mk 0x3003).addr = 0x3000 from rfl, bootPd_leaf]
      simp only [low, index2]
    · rw [bootEntry_unused memory (by simp) bound3, Bool.not_false, if_pos rfl, if_neg (by omega)]
      simp only [bootEntries, List.forall_mem_cons, List.not_mem_nil, IsEmpty.forall_iff,
        implies_true, and_true]
      omega
  · rw [bootEntry_unused memory (by simp) bound4, Bool.not_false, if_pos rfl, if_neg (by omega)]
    simp only [bootEntries, List.forall_mem_cons, List.not_mem_nil, IsEmpty.forall_iff,
      implies_true, and_true]
    omega

theorem bootTable_present {level address below bits : Nat}
    (known : address ∈ [0x1000, 0x2000, 0x3000]) (member : (address, bits) ∈ bootEntries)
    (only : ∀ write ∈ bootEntries, write.1 ≠ address → write.1 < address ∨ address + 4096 ≤ write.1)
    (present : (PageTableEntry.mk bits).present = true) (addr : (PageTableEntry.mk bits).addr = below)
    (next : (PageTable.read (bootMemory memory) level below).AllLive fun _ entry => entry.present) :
    (PageTable.read (bootMemory memory) (level + 1) address).AllLive fun _ entry => entry.present := by
  intro index bound
  by_cases first : index = 0
  · subst first
    have stored : tableEntry (bootMemory memory) address 0 = ⟨bits⟩ := bootEntry_used memory member
    simp only [stored, addr]
    exact .inr ⟨present, .inr next⟩
  · left
    rw [bootEntry_zero memory known bound]
    intro write member same
    have apart := only write member (by omega)
    omega

theorem bootPd_present :
    (PageTable.read (bootMemory memory) 2 0x3000).AllLive fun _ entry => entry.present := by
  have pages : ∀ index < 3, (0x3000 + 8 * index, index * 2 ^ 21 + 0x83) ∈ bootEntries ∧
      (PageTableEntry.mk (index * 2 ^ 21 + 0x83)).present = true ∧
      mapsPage 1 ⟨index * 2 ^ 21 + 0x83⟩ = true := by decide
  have stored : ∀ write ∈ bootEntries, write.1 < 0x3000 + 8 * 3 := by decide
  intro index bound
  by_cases page : index < 3
  · obtain ⟨member, present, maps⟩ := pages _ page
    rw [bootEntry_used memory member]
    exact .inr ⟨present, .inl maps⟩
  · left
    rw [bootEntry_zero memory (by decide) bound]
    intro write member same
    have below := stored write member
    omega

theorem bootTables_present : (bootTables memory).AllLive fun _ entry => entry.present := by
  have pdp : (PageTable.read (bootMemory memory) 3 0x2000).AllLive fun _ entry => entry.present :=
    bootTable_present memory (by decide) (show (0x2000, 0x3003) ∈ bootEntries by decide) (by decide)
      (by decide) (by decide) (bootPd_present memory)
  exact bootTable_present memory (by decide) (show (0x1000, 0x2003) ∈ bootEntries by decide)
    (by decide) (by decide) (by decide) pdp

theorem bootTables_tidy : (bootTables memory).Tidy :=
  (bootTables_present memory).of_passes PageTable.inUse_of_present

end Boot

end ArcadiaOs.Vmm
