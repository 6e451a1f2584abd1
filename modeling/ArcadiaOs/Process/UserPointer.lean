import ArcadiaOs.Process.PagingCore

/-!
Soundness of the user pointer check.  The processor grants Ring 3 an address only when
every entry of its walk has USER_ACCESSIBLE; the check looks at that flag in 4 KiB
leaves alone.
-/

namespace ArcadiaOs.Process

open Lib

/-- The entries the processor reads to translate `addr`, from the PML4 down to the first one that
is not present, maps a huge page, or is a 4 KiB leaf. -/
def walk (memory : Memory) (pml4 addr : Nat) : List PageTableEntry :=
  let p4Entry := tableEntry memory pml4 (p4Index addr)
  if !p4Entry.present then [p4Entry]
  else
    let p3Entry := tableEntry memory p4Entry.addr (p3Index addr)
    if !p3Entry.present || p3Entry.hugePage then [p4Entry, p3Entry]
    else
      let p2Entry := tableEntry memory p3Entry.addr (p2Index addr)
      if !p2Entry.present || p2Entry.hugePage then [p4Entry, p3Entry, p2Entry]
      else [p4Entry, p3Entry, p2Entry, tableEntry memory p2Entry.addr (p1Index addr)]

/-- Ring 3 itself can read through this walk. -/
def UserMapped (entries : List PageTableEntry) : Prop :=
  ∀ entry ∈ entries, entry.present = true ∧ entry.userAccessible = true

/-- What the pointer check asks of a walk: a present mapping whose 4 KiB leaf, when it ends in
one, is open to Ring 3. -/
def LeafMapped (entries : List PageTableEntry) : Prop :=
  (∀ entry ∈ entries, entry.present = true) ∧
  ∀ entry ∈ entries.drop 3, entry.userAccessible = true

/-- The flag at the levels the check does not look at: PML4, PDP and PD, huge leaves included. -/
def UpperUser (entries : List PageTableEntry) : Prop :=
  ∀ entry ∈ entries.take 3, entry.userAccessible = true

theorem userMapped_iff (entries : List PageTableEntry) :
    UserMapped entries ↔ LeafMapped entries ∧ UpperUser entries := by
  constructor
  · intro mapped
    refine ⟨⟨fun entry member => (mapped entry member).1, fun entry member => ?_⟩,
      fun entry member => ?_⟩
    · exact (mapped entry (List.mem_of_mem_drop member)).2
    · exact (mapped entry (List.mem_of_mem_take member)).2
  · rintro ⟨⟨present, leaf⟩, upper⟩ entry member
    refine ⟨present entry member, ?_⟩
    rw [← List.take_append_drop 3 entries, List.mem_append] at member
    rcases member with early | last
    · exact upper entry early
    · exact leaf entry last

theorem walk_page (memory : Memory) (pml4 : Nat) {addr other : Nat}
    (page : addr / 4096 = other / 4096) : walk memory pml4 addr = walk memory pml4 other := by
  have index4 : p4Index addr = p4Index other := by simp only [p4Index]; omega
  have index3 : p3Index addr = p3Index other := by simp only [p3Index]; omega
  have index2 : p2Index addr = p2Index other := by simp only [p2Index]; omega
  have index1 : p1Index addr = p1Index other := by simp only [p1Index]; omega
  simp only [walk, index4, index3, index2, index1]

theorem canonical_low {addr : Nat} (low : addr < 2 ^ 47) : canonical addr = true := by
  simp only [canonical, low, decide_true, Bool.true_or]

theorem canonical_user {addr : Nat} (user : addr < kernelHalf) :
    canonical addr = true ↔ addr < 2 ^ 47 := by
  simp only [kernelHalf] at user
  simp only [canonical, Bool.or_eq_true, Bool.and_eq_true, decide_eq_true_eq]
  omega

/-- One turn of the loop: it goes on exactly when the page passes, and then every address it
strides over passes too. -/
theorem checkPage_spec (memory : Memory) (pml4 : Nat) {addr : Nat} (low : addr < 2 ^ 47)
    (aligned : addr % 4096 = 0) :
    (checkPage memory pml4 addr = .reject ∧ ¬LeafMapped (walk memory pml4 addr)) ∨
    ∃ next, checkPage memory pml4 addr = .advance next ∧ addr < next ∧ next % 4096 = 0 ∧
      next ≤ 2 ^ 47 ∧ LeafMapped (walk memory pml4 addr) ∧
      ∀ address, addr ≤ address → address < next →
        walk memory pml4 address = walk memory pml4 addr := by
  have canon := canonical_low low
  by_cases present4 : (tableEntry memory pml4 (p4Index addr)).present = true
  rotate_left
  · left
    simp [checkPage, walk, LeafMapped, canon, present4]
  by_cases present3 : (tableEntry memory (tableEntry memory pml4 (p4Index addr)).addr
      (p3Index addr)).present = true
  rotate_left
  · left
    simp [checkPage, walk, LeafMapped, canon, present4, present3]
  by_cases huge3 : (tableEntry memory (tableEntry memory pml4 (p4Index addr)).addr
      (p3Index addr)).hugePage = true
  · right
    refine ⟨addr / 2 ^ 30 * 2 ^ 30 + 2 ^ 30, ?_, by omega, by omega, by omega, ?_, ?_⟩
    · simp [checkPage, canon, present4, present3, huge3]
    · simp [walk, LeafMapped, present4, present3, huge3]
    · intro address above below
      have index4 : p4Index address = p4Index addr := by simp only [p4Index]; omega
      have index3 : p3Index address = p3Index addr := by simp only [p3Index]; omega
      simp [walk, index4, index3, present4, present3, huge3]
  generalize table3 : tableEntry memory (tableEntry memory pml4 (p4Index addr)).addr
    (p3Index addr) = p3Entry at present3 huge3
  by_cases present2 : (tableEntry memory p3Entry.addr (p2Index addr)).present = true
  rotate_left
  · left
    simp [checkPage, walk, LeafMapped, canon, present4, table3, present3, huge3, present2]
  by_cases huge2 : (tableEntry memory p3Entry.addr (p2Index addr)).hugePage = true
  · right
    refine ⟨addr / 2 ^ 21 * 2 ^ 21 + 2 ^ 21, ?_, by omega, by omega, by omega, ?_, ?_⟩
    · simp [checkPage, canon, present4, table3, present3, huge3, present2, huge2]
    · simp [walk, LeafMapped, present4, table3, present3, huge3, present2, huge2]
    · intro address above below
      have index4 : p4Index address = p4Index addr := by simp only [p4Index]; omega
      have index3 : p3Index address = p3Index addr := by simp only [p3Index]; omega
      have index2 : p2Index address = p2Index addr := by simp only [p2Index]; omega
      simp [walk, index4, index3, index2, present4, table3, present3, huge3, present2, huge2]
  generalize table2 : tableEntry memory p3Entry.addr (p2Index addr) = p2Entry at present2 huge2
  generalize table1 : tableEntry memory p2Entry.addr (p1Index addr) = p1Entry
  have tables : walk memory pml4 addr
      = [tableEntry memory pml4 (p4Index addr), p3Entry, p2Entry, p1Entry] := by
    simp [walk, present4, table3, present3, huge3, table2, present2, huge2, table1]
  by_cases open1 : p1Entry.present = true ∧ p1Entry.userAccessible = true
  · right
    refine ⟨addr + 4096, ?_, by omega, by omega, by omega, ?_, ?_⟩
    · simp [checkPage, canon, present4, table3, present3, huge3, table2, present2, huge2,
        table1, open1]
    · simp [tables, LeafMapped, present4, present3, present2, open1]
    · intro address above below
      exact walk_page memory pml4 (by omega)
  · left
    constructor
    · by_cases present1 : p1Entry.present = true
      · have closed : ¬p1Entry.userAccessible = true := fun user => open1 ⟨present1, user⟩
        simp [checkPage, canon, present4, table3, present3, huge3, table2, present2, huge2,
          table1, present1, closed]
      · simp [checkPage, canon, present4, table3, present3, huge3, table2, present2, huge2,
          table1, present1]
    · rw [tables]
      rintro ⟨present, leaf⟩
      exact open1 ⟨present p1Entry (by simp), leaf p1Entry (by simp)⟩

section Turns

variable {memory : Memory} {pml4 addr : Nat} (aligned : addr % 4096 = 0)
include aligned

theorem checkPage_panicked (panicked : checkPage memory pml4 addr = .panic) : ¬addr < 2 ^ 47 := by
  intro low
  rcases checkPage_spec memory pml4 low aligned with ⟨rejected, _⟩ | ⟨_, advanced, _⟩
  · rw [panicked] at rejected
    cases rejected
  · rw [panicked] at advanced
    cases advanced

omit aligned in
theorem low_of_turn (user : addr < kernelHalf) (turned : checkPage memory pml4 addr ≠ .panic) :
    addr < 2 ^ 47 := by
  by_contra high
  have hole : canonical addr = false := by
    rw [← Bool.not_eq_true, canonical_user user]
    exact high
  simp [checkPage, hole] at turned

theorem checkPage_rejected (user : addr < kernelHalf)
    (rejected : checkPage memory pml4 addr = .reject) :
    addr < 2 ^ 47 ∧ ¬LeafMapped (walk memory pml4 addr) := by
  have low : addr < 2 ^ 47 := low_of_turn user (by rw [rejected]; exact nofun)
  rcases checkPage_spec memory pml4 low aligned with ⟨_, unmapped⟩ | ⟨_, advanced, _⟩
  · exact ⟨low, unmapped⟩
  · rw [rejected] at advanced
    cases advanced

theorem checkPage_advanced {next : Nat} (user : addr < kernelHalf)
    (checked : checkPage memory pml4 addr = .advance next) :
    next % 4096 = 0 ∧ next ≤ 2 ^ 47 ∧
      ∀ address, addr ≤ address → address < next → LeafMapped (walk memory pml4 address) := by
  have low : addr < 2 ^ 47 := low_of_turn user (by rw [checked]; exact nofun)
  rcases checkPage_spec memory pml4 low aligned with ⟨rejected, _⟩ |
    ⟨stride, advanced, _, nextAligned, bounded, mapped, same⟩
  · rw [checked] at rejected
    cases rejected
  rw [checked] at advanced
  obtain rfl : next = stride := by injection advanced
  refine ⟨nextAligned, bounded, fun address above below => ?_⟩
  rw [same address above below]
  exact mapped

end Turns

section Walks

variable {memory : Memory} {pml4 endPage addr : Nat} (inside : addr ≤ endPage)
include inside

theorem validatePages_panicked (panicked : checkPage memory pml4 addr = .panic) :
    validatePages memory pml4 endPage addr = none := by
  rw [validatePages, if_pos inside]
  split <;> rename_i outcome <;> rw [panicked] at outcome <;> cases outcome

theorem validatePages_rejected (rejected : checkPage memory pml4 addr = .reject) :
    validatePages memory pml4 endPage addr = some false := by
  rw [validatePages, if_pos inside]
  split <;> rename_i outcome <;> rw [rejected] at outcome <;> cases outcome

theorem validatePages_advanced {next : Nat} (checked : checkPage memory pml4 addr = .advance next) :
    validatePages memory pml4 endPage addr = validatePages memory pml4 endPage next := by
  rw [validatePages, if_pos inside]
  split <;> rename_i outcome <;> rw [checked] at outcome <;> cases outcome
  rfl

end Walks

def PagesPass (memory : Memory) (pml4 endPage addr : Nat) : Prop :=
  ∀ address, addr ≤ address → address < endPage + 4096 →
    canonical address = true ∧ LeafMapped (walk memory pml4 address)

theorem validatePages_iff (memory : Memory) (pml4 : Nat) {endPage addr : Nat}
    (user : endPage + 4096 ≤ kernelHalf) (aligned : addr % 4096 = 0)
    (lastAligned : endPage % 4096 = 0) :
    validatePages memory pml4 endPage addr = some true ↔ PagesPass memory pml4 endPage addr := by
  induction addr using validatePages.induct memory pml4 endPage with
  | case1 addr inside panicked =>
      have high := checkPage_panicked aligned panicked
      rw [validatePages_panicked inside panicked]
      refine ⟨nofun, fun pass => ?_⟩
      have canon := (pass addr (by omega) (by omega)).1
      rw [canonical_user (by omega)] at canon
      exact absurd canon high
  | case2 addr inside rejected =>
      obtain ⟨_, unmapped⟩ := checkPage_rejected aligned (by omega) rejected
      rw [validatePages_rejected inside rejected]
      refine ⟨nofun, fun pass => ?_⟩
      exact absurd (pass addr (by omega) (by omega)).2 unmapped
  | case3 addr inside next checked later ih =>
      obtain ⟨nextAligned, bounded, mapped⟩ := checkPage_advanced aligned (by omega) checked
      rw [validatePages_advanced inside checked, ih nextAligned]
      constructor
      · intro pass address above below
        by_cases strided : address < next
        · exact ⟨canonical_low (by omega), mapped address above strided⟩
        · exact pass address (by omega) below
      · intro pass address above below
        exact pass address (by omega) below
  | case4 addr outside =>
      rw [validatePages, if_neg outside]
      refine ⟨fun _ address above below => ?_, fun _ => rfl⟩
      omega

theorem validateUserPtr_iff (memory : Memory) (pml4 ptr len : Nat) :
    validateUserPtr memory pml4 ptr len = some true ↔
      ptr ≠ 0 ∧ len ≠ 0 ∧ ptr + len ≤ 2 ^ 47 ∧
      ∀ address, ptr ≤ address → address < ptr + len →
        LeafMapped (walk memory pml4 address) := by
  simp only [validateUserPtr]
  by_cases empty : ptr = 0 ∨ len = 0
  · rw [if_pos empty]
    refine ⟨nofun, ?_⟩
    rintro ⟨nonzero, nonempty, _⟩
    omega
  by_cases kernel : ptr ≥ kernelHalf
  · rw [if_neg empty, if_pos kernel]
    simp only [kernelHalf] at kernel
    refine ⟨nofun, ?_⟩
    rintro ⟨_, _, low, _⟩
    omega
  by_cases crossing : min (ptr + len) (2 ^ 64 - 1) < ptr ∨
      min (ptr + len) (2 ^ 64 - 1) > kernelHalf
  · rw [if_neg empty, if_neg kernel, if_pos crossing]
    simp only [kernelHalf] at kernel crossing
    refine ⟨nofun, ?_⟩
    rintro ⟨_, _, low, _⟩
    omega
  rw [if_neg empty, if_neg kernel, if_neg crossing]
  simp only [kernelHalf] at kernel crossing
  have stop : min (ptr + len) (2 ^ 64 - 1) = ptr + len := by omega
  rw [stop, validatePages_iff memory pml4 (by simp only [kernelHalf]; omega) (by omega) (by omega)]
  constructor
  · intro pass
    have last := (pass (ptr + len - 1) (by omega) (by omega)).1
    rw [canonical_user (by simp only [kernelHalf]; omega)] at last
    refine ⟨by omega, by omega, by omega, fun address above below => ?_⟩
    exact (pass address (by omega) (by omega)).2
  · rintro ⟨_, _, low, mapped⟩ address above below
    refine ⟨canonical_low (by omega), ?_⟩
    -- the byte of the request that lies on the page of `address`
    have page : address / 4096 = max ptr (address / 4096 * 4096) / 4096 := by omega
    rw [walk_page memory pml4 page]
    exact mapped _ (by omega) (by omega)

/-- Every byte of the range is canonical, below the kernel half and open to Ring 3. -/
def UserReadable (memory : Memory) (pml4 ptr len : Nat) : Prop :=
  ∀ address, ptr ≤ address → address < ptr + len →
    canonical address = true ∧ address < kernelHalf ∧ UserMapped (walk memory pml4 address)

/-- The tables above the leaves guard the range as far as the check relies on them: either some
byte of it fails for another reason, or every upper entry on its walks is open to Ring 3. -/
def UpperLevelsGuard (memory : Memory) (pml4 ptr len : Nat) : Prop :=
  ptr = 0 ∨ len = 0 ∨ 2 ^ 47 < ptr + len ∨
  (∃ address, ptr ≤ address ∧ address < ptr + len ∧ ¬LeafMapped (walk memory pml4 address)) ∨
  ∀ address, ptr ≤ address → address < ptr + len → UpperUser (walk memory pml4 address)

theorem userReadable_iff (memory : Memory) (pml4 ptr len : Nat) :
    (validateUserPtr memory pml4 ptr len = some true → UserReadable memory pml4 ptr len) ↔
      UpperLevelsGuard memory pml4 ptr len := by
  rw [validateUserPtr_iff]
  constructor
  · intro sound
    by_contra unguarded
    simp only [UpperLevelsGuard, not_or, not_exists, not_and, not_not] at unguarded
    obtain ⟨nonzero, nonempty, low, mapped, closed⟩ := unguarded
    have readable := sound ⟨nonzero, nonempty, by omega, mapped⟩
    apply closed
    intro address above below
    exact ((userMapped_iff _).mp (readable address above below).2.2).2
  · rintro guarded ⟨nonzero, nonempty, low, mapped⟩ address above below
    refine ⟨canonical_low (by omega), by simp only [kernelHalf]; omega, ?_⟩
    refine (userMapped_iff _).mpr ⟨mapped address above below, ?_⟩
    rcases guarded with zero | empty | high | ⟨other, otherAbove, otherBelow, unmapped⟩ | upper
    · exact absurd zero nonzero
    · exact absurd empty nonempty
    · omega
    · exact absurd (mapped other otherAbove otherBelow) unmapped
    · exact upper address above below

theorem sysWrite_reads {memory : Memory} {pml4 buf len value : Nat} {reads : List Nat}
    (done : sysWrite memory pml4 buf len = some (value, reads)) {address : Nat}
    (read : address ∈ reads) :
    validateUserPtr memory pml4 buf len = some true ∧ buf ≤ address ∧ address < buf + len := by
  simp only [sysWrite] at done
  split at done
  · cases done
    exact absurd read List.not_mem_nil
  · split at done
    · cases done
    · cases done
      exact absurd read List.not_mem_nil
    · rename_i valid
      cases done
      obtain ⟨offset, inside, rfl⟩ := List.mem_map.mp read
      rw [List.mem_range] at inside
      exact ⟨valid, by omega, by omega⟩

/-- The pointer check lets through only what Ring 3 itself could read, and `sys_write` reads
nothing else, exactly when the upper levels guard the range. -/
theorem validateUserPtr_sound (memory : Memory) (pml4 ptr len : Nat) :
    ((validateUserPtr memory pml4 ptr len = some true → UserReadable memory pml4 ptr len) ∧
      ∀ value reads, sysWrite memory pml4 ptr len = some (value, reads) →
        ∀ address ∈ reads, UserMapped (walk memory pml4 address)) ↔
      UpperLevelsGuard memory pml4 ptr len := by
  constructor
  · rintro ⟨sound, _⟩
    exact (userReadable_iff memory pml4 ptr len).mp sound
  · intro guarded
    have sound := (userReadable_iff memory pml4 ptr len).mpr guarded
    refine ⟨sound, fun value reads done address read => ?_⟩
    obtain ⟨valid, above, below⟩ := sysWrite_reads done read
    exact (sound valid address above below).2.2

/-- The tables of `boot64.asm`: the first 6 MiB as three supervisor pages. -/
def bootTables : Memory
  | 0x1000 => 0x03
  | 0x1001 => 0x20
  | 0x2000 => 0x03
  | 0x2001 => 0x30
  | 0x3000 => 0x83
  | 0x3008 => 0x83
  | 0x300A => 0x20
  | 0x3010 => 0x83
  | 0x3012 => 0x40
  | _ => 0

/-- The kernel image at 1 MiB passes the check, and Ring 3 could not read it. -/
theorem validateUserPtr_leaks_kernel :
    validateUserPtr bootTables 0x1000 0x100000 16 = some true ∧
    ¬UserReadable bootTables 0x1000 0x100000 16 := by
  have tables : walk bootTables 0x1000 0x100000 = [⟨0x2003⟩, ⟨0x3003⟩, ⟨0x83⟩] := by
    decide
  constructor
  · rw [validateUserPtr_iff]
    refine ⟨by omega, by omega, by omega, fun address above below => ?_⟩
    rw [walk_page bootTables 0x1000 (show address / 4096 = 0x100000 / 4096 by omega), tables]
    exact ⟨by decide, by decide⟩
  · intro readable
    have mapped := (readable 0x100000 (by omega) (by omega)).2.2
    rw [tables] at mapped
    exact absurd mapped (by simp only [UserMapped]; decide)

end ArcadiaOs.Process
