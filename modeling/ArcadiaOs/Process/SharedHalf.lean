import ArcadiaOs.Process.Image

/-!
The kernel's half under a launch.  Its tables are shared, the addresses in the file are
not checked, and only where every page lies in the lower half does the kernel's half
stay as it was.
-/

namespace ArcadiaOs.Process

open Lib Memory PhysicalFrameAllocator

/-- The tables behind the entries 256 to 511 of a PML4, with their level. -/
inductive SharedTable (memory : Memory) (pml4 : Nat) : Nat → Nat → Prop
  | root (index : Nat) : 256 ≤ index → index < 512 →
      (tableEntry memory pml4 index).present = true →
      SharedTable memory pml4 3 (tableEntry memory pml4 index).addr
  | next (height table index : Nat) : SharedTable memory pml4 (height + 2) table → index < 512 →
      (tableEntry memory table index).present = true →
      (tableEntry memory table index).hugePage = false →
      SharedTable memory pml4 (height + 1) (tableEntry memory table index).addr

/-- Bit 7 of an entry of the PML4 is reserved, and zero. -/
def PlainRoot (memory : Memory) (pml4 : Nat) : Prop :=
  ∀ index, 256 ≤ index → index < 512 → (tableEntry memory pml4 index).hugePage = false

/-- Ring 3 maps nothing at canonical addresses from 2^47 on. -/
def NoUserAbove (memory : Memory) (pml4 : Nat) : Prop :=
  ∀ addr, 2 ^ 47 ≤ addr → canonical addr = true → ¬UserMapped (walk memory pml4 addr)

def SharedTablesKept (kernel launched : Kernel) : Prop :=
  ∀ height table, SharedTable kernel.memory kernel.kernelPml4Phys.asU64 height table →
    ∀ offset < 4096, launched.memory (table + offset) = kernel.memory (table + offset)

def LowPages (segments : List ElfSegment) : Prop :=
  ∀ seg ∈ segments, ∀ pageIdx < seg.pageCount, seg.virt pageIdx < 2 ^ 47

/-- No free frame lies directly in front of a table of the kernel. -/
def Shielded (level : Nat → Nat) (kernel : Kernel) : Prop :=
  ∀ table, level table ≠ 0 → kernel.pmm.isFrameReserved (table / 4096 - 1) = true

section Walk

variable {level : Nat → Nat} {pml4 pml4' : Nat} {memory memory' : Memory}
  {pmm : PhysicalFrameAllocator} (half : Tables (256 ≤ ·) level pml4 memory pmm)
  (plain : PlainRoot memory pml4)
include half

theorem Tables.next {table index : Nat} (known : 2 ≤ level table) (bound : index < 512)
    (scope : table = pml4 → 256 ≤ index) (present : (tableEntry memory table index).present = true)
    (small : (tableEntry memory table index).hugePage = false) :
    level (tableEntry memory table index).addr + 1 = level table := by
  rcases half.entries table index known bound scope with unused | ⟨_, huge | next⟩
  · exact absurd unused (PageTableEntry.bits_ne_zero present)
  · rw [show entryAt memory (table + 8 * index) = tableEntry memory table index from rfl, small]
      at huge
    cases huge
  · exact next

include plain

theorem SharedTable.known {height table : Nat} (shared : SharedTable memory pml4 height table) :
    level table = height ∧ height < 4 ∧ 0 < height := by
  induction shared with
  | root index upper bound present =>
      have root := (half.root pml4).mpr rfl
      have next := half.next (by omega) bound (fun _ => upper) present (plain index upper bound)
      omega
  | next height table index shared bound present small ih =>
      have next := half.next (by omega) bound (fun same => by
        rw [same, (half.root pml4).mpr rfl] at ih
        omega) present small
      omega

theorem walk_same {addr : Nat} (upper : 256 ≤ p4Index addr)
    (top : ∀ index, 256 ≤ index → index < 512 →
      tableEntry memory' pml4' index = tableEntry memory pml4 index)
    (below : ∀ table, level table ≠ 0 → level table < 4 → ∀ index < 512,
      tableEntry memory' table index = tableEntry memory table index) :
    walk memory' pml4' addr = walk memory pml4 addr := by
  have root := (half.root pml4).mpr rfl
  have bound4 := p4Index_lt addr
  simp only [walk, top _ upper bound4]
  by_cases present4 : (tableEntry memory pml4 (p4Index addr)).present = true
  · have level3 := half.next (by omega) bound4 (fun _ => upper) present4 (plain _ upper bound4)
    generalize (tableEntry memory pml4 (p4Index addr)).addr = table3 at level3 ⊢
    rw [below table3 (by omega) (by omega) _ (p3Index_lt addr)]
    by_cases present3 : (tableEntry memory table3 (p3Index addr)).present = true
    · by_cases small3 : (tableEntry memory table3 (p3Index addr)).hugePage = false
      · have level2 := half.next (by omega) (p3Index_lt addr) (fun same => by
          rw [same] at level3
          omega) present3 small3
        generalize (tableEntry memory table3 (p3Index addr)).addr = table2 at level2 ⊢
        rw [below table2 (by omega) (by omega) _ (p2Index_lt addr)]
        by_cases present2 : (tableEntry memory table2 (p2Index addr)).present = true
        · by_cases small2 : (tableEntry memory table2 (p2Index addr)).hugePage = false
          · have level1 := half.next (by omega) (p2Index_lt addr) (fun same => by
              rw [same] at level2
              omega) present2 small2
            rw [below _ (by omega) (by omega) _ (p1Index_lt addr)]
          · simp [small2]
        · simp [present2]
      · simp [small3]
    · simp [present3]
  · simp [present4]

/-- An entry in use, with some of its three low flags set in addition. -/
def Flagged (before after : PageTableEntry) : Prop :=
  ∃ added < 8, after.bits = before.bits ||| added

omit half plain in
theorem Flagged.open {before after : PageTableEntry} (flagged : Flagged before after)
    (present : before.present = true) (user : before.userAccessible = true) :
    after.present = true ∧ after.userAccessible = true ∧ after.hugePage = before.hugePage ∧
      after.addr = before.addr := by
  obtain ⟨added, small, bits⟩ := flagged
  have same : after = ⟨before.bits ||| added⟩ := by rw [← bits]
  rw [same]
  refine ⟨PageTableEntry.present_or _ _ present, ?_, PageTableEntry.hugePage_or small,
    PageTableEntry.addr_or (by omega)⟩
  simp only [PageTableEntry.userAccessible] at user ⊢
  rw [Nat.testBit_or, user, Bool.true_or]

/-- What Ring 3 could read through the kernel's tables it can still read when flags are added. -/
theorem walk_user {addr : Nat} (upper : 256 ≤ p4Index addr)
    (top : ∀ index, 256 ≤ index → index < 512 → (tableEntry memory pml4 index).present = true →
      Flagged (tableEntry memory pml4 index) (tableEntry memory' pml4' index))
    (below : ∀ table, level table ≠ 0 → level table < 4 → ∀ index < 512,
      (tableEntry memory table index).present = true →
      Flagged (tableEntry memory table index) (tableEntry memory' table index))
    (mapped : UserMapped (walk memory pml4 addr)) : UserMapped (walk memory' pml4' addr) := by
  have root := (half.root pml4).mpr rfl
  have bound4 := p4Index_lt addr
  simp only [walk] at mapped ⊢
  by_cases present4 : (tableEntry memory pml4 (p4Index addr)).present = true
  rotate_left
  · simp [UserMapped, present4] at mapped
  have level3 := half.next (by omega) bound4 (fun _ => upper) present4 (plain _ upper bound4)
  have flagged4 := top _ upper bound4 present4
  generalize tableEntry memory pml4 (p4Index addr) = entry4 at *
  have user4 : entry4.userAccessible = true :=
    (mapped entry4 (by simp only [present4]; split_ifs <;> simp)).2
  obtain ⟨present4', user4', _, addr4⟩ := flagged4.open present4 user4
  simp only [present4, present4', addr4, Bool.not_true, Bool.false_eq_true, if_false] at mapped ⊢
  by_cases present3 : (tableEntry memory entry4.addr (p3Index addr)).present = true
  rotate_left
  · simp [UserMapped, present3] at mapped
  have flagged3 := below entry4.addr (by omega) (by omega) _ (p3Index_lt addr) present3
  have next3 := half.next (show 2 ≤ level entry4.addr by omega) (p3Index_lt addr)
    (fun same => by rw [same] at level3; omega) present3
  generalize tableEntry memory entry4.addr (p3Index addr) = entry3 at *
  have user3 : entry3.userAccessible = true :=
    (mapped entry3 (by simp only [present3]; split_ifs <;> simp)).2
  obtain ⟨present3', user3', huge3, addr3⟩ := flagged3.open present3 user3
  simp only [present3, present3', huge3, addr3, Bool.not_true, Bool.false_or] at mapped ⊢
  by_cases small3 : entry3.hugePage = false
  rotate_left
  · simp [UserMapped, small3, present4', user4', present3', user3']
  have level2 := next3 small3
  simp only [small3, Bool.false_eq_true, if_false] at mapped ⊢
  by_cases present2 : (tableEntry memory entry3.addr (p2Index addr)).present = true
  rotate_left
  · simp [UserMapped, present2] at mapped
  have flagged2 := below entry3.addr (by omega) (by omega) _ (p2Index_lt addr) present2
  have next2 := half.next (show 2 ≤ level entry3.addr by omega) (p2Index_lt addr)
    (fun same => by rw [same] at level2; omega) present2
  generalize tableEntry memory entry3.addr (p2Index addr) = entry2 at *
  have user2 : entry2.userAccessible = true :=
    (mapped entry2 (by simp only [present2]; split_ifs <;> simp)).2
  obtain ⟨present2', user2', huge2, addr2⟩ := flagged2.open present2 user2
  simp only [present2, present2', huge2, addr2, Bool.not_true, Bool.false_or] at mapped ⊢
  by_cases small2 : entry2.hugePage = false
  rotate_left
  · simp [UserMapped, small2, present4', user4', present3', user3', present2', user2']
  have level1 := next2 small2
  simp only [small2, Bool.false_eq_true, if_false] at mapped ⊢
  obtain ⟨present1, user1⟩ := mapped (tableEntry memory entry2.addr (p1Index addr)) (by simp)
  have flagged1 := below entry2.addr (by omega) (by omega) _ (p1Index_lt addr) present1
  obtain ⟨present1', user1', _, _⟩ := flagged1.open present1 user1
  simp [UserMapped, present4', user4', present3', user3', present2', user2', present1', user1']

end Walk

section Lower

variable {elfData : ElfData} {elfInfo : ElfLoadInfo} {slot : Nat} {kernel launched stacked topped : Kernel}
  {proc : ProcessControlBlock} {levelStacked levelTopped : Unit → Nat → Nat}
  {pml4 userStack kernelStack : PhysAddr}
  (given : kernel.pmm.allocateFrame.1 = some pml4)
  (finished : Finished (fun _ index => index < 256) pml4.asU64 (fun _ => rootLevel pml4.asU64)
    (opened kernel slot pml4) elfData elfInfo slot proc launched levelStacked levelTopped stacked
    topped userStack kernelStack)
include given finished

theorem Finished.kept (sound : kernel.pmm.NextFreeSound) {place : Nat}
    (reserved : kernel.pmm.isFrameReserved (place / 4096) = true)
    (shielded : kernel.pmm.isFrameReserved (place / 4096 - 1) = true) :
    launched.memory place = kernel.memory place := by
  have granted := allocateFrame_granted given
  have number : pml4.asU64 / 4096 = kernel.pmm.nextFree := granted.frame
  have other : place / 4096 ≠ pml4.asU64 / 4096 := by
    intro same
    rw [same, number, sound.free granted.bound] at reserved
    cases reserved
  have unknown : rootLevel pml4.asU64 (place / 4096 * 4096) = 0 := by
    by_contra known
    have same := rootLevel_known known
    omega
  have frame : place / 4096 * 4096 / 4096 = place / 4096 := Nat.mul_div_cancel _ (by decide)
  have inside : (opened kernel slot pml4).pmm.isFrameReserved (place / 4096) = true :=
    (allocateFrame_grown kernel.pmm).reserved _ reserved
  have last : place / 4096 ≠ stacked.pmm.nextFree + 1 := by
    intro same
    have top := allocateFrame_granted finished.given
    have held := finished.grows.grown.reserved _
      ((allocateFrame_grown kernel.pmm).reserved _ shielded)
    rw [same, Nat.add_sub_cancel, (finished.space.sound ()).free top.bound] at held
    cases held
  rw [finished.behind last, finished.growsTopped.quiet place
    (finished.grows.grown.reserved _ inside)
    (finished.grows.still (by rw [frame]; exact inside) fun _ => unknown),
    finished.grows.quiet place inside fun _ => unknown, opened_other given other]

theorem Finished.upper_entry {level : Nat → Nat} (sound : kernel.pmm.NextFreeSound)
    (half : KernelHalf level kernel) (index : Nat) (upper : 256 ≤ index) (bound : index < 512) :
    tableEntry launched.memory pml4.asU64 index =
      tableEntry kernel.memory kernel.kernelPml4Phys.asU64 index := by
  have low : Low levelStacked () stacked :=
    (opened_low given rfl : Low (fun _ : Unit => rootLevel pml4.asU64) () _).grows finished.grows
  have aligned : pml4.asU64 % 4096 = 0 := (allocateFrame_granted given).aligned
  have root : levelStacked () pml4.asU64 ≠ 0 := by
    rw [finished.space.root ()]
    decide
  have apart := low.apart pml4.asU64 root
  have last : launched.memory.readU64 (pml4.asU64 + 8 * index) =
      topped.memory.readU64 (pml4.asU64 + 8 * index) :=
    Memory.readU64_congr fun place above below => finished.behind (by omega)
  have outside : ∀ part : Unit, ¬index < 256 := fun _ => Nat.not_lt.mpr upper
  rw [tableEntry, tableEntry, last, finished.growsTopped.root index bound outside,
    finished.grows.root index bound outside,
    opened_upper given upper bound (half.root_apart given sound)]

end Lower

section Both

variable {elfData : ElfData} {elfInfo : ElfLoadInfo} {slot : Nat} {kernel launched stacked topped : Kernel}
  {proc : ProcessControlBlock} {level : Nat → Nat} {levelStacked levelTopped : Half → Nat → Nat}
  {pml4 userStack kernelStack : PhysAddr}
  (given : kernel.pmm.allocateFrame.1 = some pml4)
  (finished : Finished Half.covers pml4.asU64 (bothLevels level pml4.asU64)
    (opened kernel slot pml4) elfData elfInfo slot proc launched levelStacked levelTopped stacked
    topped userStack kernelStack)
  (sound : kernel.pmm.NextFreeSound) (half : KernelHalf level kernel) (shielded : Shielded level kernel)
include given finished shielded

/-- The frame on the kernel stack hits no table of the upper half. -/
theorem Finished.upper_apart (table : Nat) (known : levelStacked .upper table ≠ 0) :
    table / 4096 ≠ stacked.pmm.nextFree + 1 := by
  have granted := allocateFrame_granted given
  have top := allocateFrame_granted finished.given
  by_cases old : bothLevels level pml4.asU64 .upper table = 0
  · have below := (finished.grows.fresh .upper table old known).1
    omega
  · rcases sharedLevel_known old with rfl | ⟨_, _, _, kernelTable⟩
    · have number : pml4.asU64 / 4096 = kernel.pmm.nextFree := granted.frame
      have next : kernel.pmm.nextFree < (opened kernel slot pml4).pmm.nextFree := granted.next
      have later := finished.grows.grown.nextFree
      omega
    · intro same
      have held := finished.grows.grown.reserved _
        ((allocateFrame_grown kernel.pmm).reserved _ (shielded table kernelTable))
      rw [same, Nat.add_sub_cancel, (finished.space.sound .upper).free top.bound] at held
      cases held

theorem Finished.upper_page {seg : ElfSegment} {pageIdx : Nat} (member : seg ∈ elfInfo.segments)
    (inside : pageIdx < seg.pageCount) (high : 2 ^ 47 ≤ seg.virt pageIdx) :
    canonical (seg.virt pageIdx) = true ∧
      UserMapped (walk launched.memory pml4.asU64 (seg.virt pageIdx)) := by
  obtain ⟨canon, part, src, frame, table3, table2, table1, covered, _, holds⟩ :=
    finished.loaded seg member pageIdx inside
  have upper := p4Index_upper high canon
  obtain rfl : part = .upper := by
    cases part with
    | lower => exact absurd (show p4Index (seg.virt pageIdx) < 256 from covered) (Nat.not_lt.mpr upper)
    | upper => rfl
  have leads := finished.leads (finished.upper_apart given shielded) holds.reaches
  exact ⟨canon, leads.userMapped (by omega)⟩

theorem Finished.upper_flagged {table source index : Nat}
    (known : bothLevels level pml4.asU64 .upper table ≠ 0) (bound : index < 512)
    (same : (opened kernel slot pml4).memory.readU64 (table + 8 * index) =
      kernel.memory.readU64 (source + 8 * index))
    (present : (tableEntry kernel.memory source index).present = true) :
    Flagged (tableEntry kernel.memory source index) (tableEntry launched.memory table index) := by
  have later := finished.grows.known known
  have aligned := (finished.space.part .upper).aligned table later
  have apart := finished.upper_apart given shielded table later
  have last : launched.memory.readU64 (table + 8 * index) =
      topped.memory.readU64 (table + 8 * index) :=
    Memory.readU64_congr fun place above below => finished.behind (by omega)
  obtain ⟨added, small, wrote⟩ := (finished.grows.trans finished.growsTopped).slots .upper table
    index known bound (by rw [same]; exact PageTableEntry.bits_ne_zero present)
  exact ⟨added, small, by rw [tableEntry, last, wrote, same, tableEntry]⟩

include sound half

/-- Ring 3 keeps what it could read of the kernel's half. -/
theorem Finished.upper_user (plain : PlainRoot kernel.memory kernel.kernelPml4Phys.asU64)
    {addr : Nat} (upper : 256 ≤ p4Index addr)
    (mapped : UserMapped (walk kernel.memory kernel.kernelPml4Phys.asU64 addr)) :
    UserMapped (walk launched.memory pml4.asU64 addr) := by
  refine walk_user half plain upper (fun index above bound present => ?_)
    (fun table known low index bound present => ?_) mapped
  · refine finished.upper_flagged given shielded ?_ bound
      (opened_upper given above bound (half.root_apart given sound)) present
    rw [bothLevels, sharedLevel, if_pos rfl]
    decide
  · have frame := half.apart given sound known
    have aligned := half.aligned table known
    have other : table ≠ pml4.asU64 := fun same => frame (by rw [same])
    refine finished.upper_flagged given shielded ?_ bound
      (Memory.readU64_congr fun place above below => opened_other given (by omega)) present
    rw [bothLevels, sharedLevel, if_neg other, if_pos low]
    exact known

end Both

/-- The kernel's half is safe exactly when every page of the file lies in the lower half and Ring 3
had nothing in the upper one before. -/
theorem launch_upper_iff {mapTo : MapTo} (documented : mapTo.Documented) (elfData : ElfData)
    (elfInfo : ElfLoadInfo) (kernel launched : Kernel) (proc : ProcessControlBlock)
    (level : Nat → Nat) (sound : kernel.pmm.NextFreeSound) (half : KernelHalf level kernel)
    (plain : PlainRoot kernel.memory kernel.kernelPml4Phys.asU64) (shielded : Shielded level kernel)
    (parsed : parseElf elfData = .ok elfInfo)
    (done : launchInitProcess mapTo elfData kernel = .ok () launched)
    (process : launchedProcess kernel launched = some proc) :
    NoUserAbove launched.memory proc.pml4Phys ∧ SharedTablesKept kernel launched ↔
      LowPages elfInfo.segments ∧
        NoUserAbove kernel.memory kernel.kernelPml4Phys.asU64 := by
  constructor
  · rintro ⟨closed, _⟩
    obtain ⟨slot, pml4, before, free, given, levelStacked, levelTopped, stacked, topped, userStack,
      kernelStack, finished⟩ := launch_finished (fun pml4 => bothLevels level pml4.asU64) documented
        (fun _ _ given => half.opened_space given sound) parsed (fun _ _ _ _ => Half.covers_all)
        Half.covers_all Half.covers_all done
    have root : proc.pml4Phys = pml4.asU64 := finished.pml4 free process
    rw [root] at closed
    constructor
    · intro seg member pageIdx inside
      by_contra high
      obtain ⟨canon, mapped⟩ := finished.upper_page given shielded member inside (by omega)
      exact closed _ (by omega) canon mapped
    · intro addr high canon mapped
      exact closed addr high canon (finished.upper_user given sound half shielded plain
        (p4Index_upper high canon) mapped)
  · rintro ⟨low, closed⟩
    obtain ⟨slot, pml4, before, free, given, levelStacked, levelTopped, stacked, topped, userStack,
      kernelStack, finished⟩ := launch_finished (fun pml4 (_ : Unit) => rootLevel pml4.asU64)
        documented (fun _ _ given => opened_space given) parsed
        (fun seg member pageIdx inside => ⟨(), p4Index_lower (low seg member pageIdx inside)⟩)
        ⟨(), by decide⟩ ⟨(), by decide⟩ done
    have root : proc.pml4Phys = pml4.asU64 := finished.pml4 free process
    have kept : ∀ {table offset}, level table ≠ 0 → offset < 4096 →
        launched.memory (table + offset) = kernel.memory (table + offset) := by
      intro table offset known inside
      have aligned := half.aligned table known
      have number : (table + offset) / 4096 = table / 4096 := by omega
      refine finished.kept given sound ?_ ?_
      · rw [number]
        exact half.reserved table known
      · rw [number]
        exact shielded table known
    constructor
    · intro addr high canon mapped
      rw [root, walk_same half plain (p4Index_upper high canon)
        (finished.upper_entry given sound half) ?_] at mapped
      · exact closed addr high canon mapped
      · intro table known _ index bound
        have same : launched.memory.readU64 (table + 8 * index) =
            kernel.memory.readU64 (table + 8 * index) :=
          Memory.readU64_moved fun offset inside => by
            rw [Nat.add_assoc]
            exact kept known (by omega)
        rw [tableEntry, tableEntry, same]
    · intro height table shared offset inside
      have known := shared.known half plain
      exact kept (by omega) inside

theorem idleKernel_shielded (frames : Nat) : Shielded idleLevel (idleKernel frames) := by
  intro table known
  rcases idleLevel_known known with rfl | rfl
  · exact idleKernel_reserved frames (by decide)
  · exact idleKernel_reserved frames (by decide)

theorem idleMemory_plain : PlainRoot idleMemory 0x1000 := by
  intro index upper bound
  by_cases last : index = 511
  · subst last
    decide
  · rw [tableEntry, idleMemory_unused (by omega) (by omega)]
    rfl

theorem idleMemory_closed : NoUserAbove idleMemory 0x1000 := by
  intro addr high canon mapped
  have first : tableEntry idleMemory 0x1000 (p4Index addr) ∈ walk idleMemory 0x1000 addr := by
    simp only [walk]
    split_ifs <;> simp
  have user := (mapped _ first).2
  have bound := p4Index_lt addr
  by_cases last : p4Index addr = 511
  · rw [last] at user
    exact absurd user (by decide)
  · rw [tableEntry, idleMemory_unused (by omega) (by omega)] at user
    exact absurd user (by decide)

theorem launch_upper_one_page :
    ∃ launched, ∃ proc : ProcessControlBlock,
      launchInitProcess offsetPageTable oneByteElf (idleKernel 20) = .ok () launched ∧
      launchedProcess (idleKernel 20) launched = some proc ∧
      NoUserAbove launched.memory proc.pml4Phys ∧ SharedTablesKept (idleKernel 20) launched := by
  obtain ⟨elfInfo, launched, proc, parsed, segments, done, process⟩ := oneByteElf_launched
  refine ⟨launched, proc, done, process, (launch_upper_iff offsetPageTable_documented oneByteElf
    elfInfo (idleKernel 20) launched proc idleLevel (idleKernel_sound 20) (idleKernel_half 20)
    idleMemory_plain (idleKernel_shielded 20) parsed done process).mpr ⟨?_, idleMemory_closed⟩⟩
  rw [segments]
  intro seg member pageIdx inside
  rw [List.mem_singleton.mp member] at inside ⊢
  have one : ElfSegment.pageCount ⟨0x400000, 1, 1, 120, true, false⟩ = 1 := by decide +kernel
  obtain rfl : pageIdx = 0 := by omega
  decide +kernel

/-- One page in the part of the upper half the kernel has a table for. -/
def upperElf : ElfData := ⟨elfFile 0xFFFFFF8000000000 1 [7], fun _ => 0, by decide⟩

theorem launch_maps_kernel_half :
    ∃ launched, ∃ proc : ProcessControlBlock,
      launchInitProcess offsetPageTable upperElf (idleKernel 20) = .ok () launched ∧
      launchedProcess (idleKernel 20) launched = some proc ∧
      UserMapped (walk launched.memory proc.pml4Phys 0xFFFFFF8000000000) ∧
      launched.memory 0x2000 ≠ (idleKernel 20).memory 0x2000 ∧
      ¬(NoUserAbove launched.memory proc.pml4Phys ∧ SharedTablesKept (idleKernel 20) launched) := by
  have run : returnsWith (fun launched =>
      (launchedProcess (idleKernel 20) launched).any (fun proc : ProcessControlBlock =>
        (walk launched.memory proc.pml4Phys 0xFFFFFF8000000000).all fun entry =>
          entry.present && entry.userAccessible) &&
        launched.memory 0x2000 != (idleKernel 20).memory 0x2000)
      (launchInitProcess offsetPageTable upperElf (idleKernel 20)) = true := by decide +kernel
  obtain ⟨_, launched, done, checked⟩ := returnsWith_ok run
  rw [Bool.and_eq_true, bne_iff_ne] at checked
  obtain ⟨started, changed⟩ := checked
  obtain ⟨proc, process, opens⟩ := (Option.any_eq_true _ _).mp started
  have mapped : UserMapped (walk launched.memory proc.pml4Phys 0xFFFFFF8000000000) := by
    intro entry member
    have both := List.all_eq_true.mp opens entry member
    rwa [Bool.and_eq_true] at both
  exact ⟨launched, proc, done, process, mapped, changed, fun safe =>
    safe.1 0xFFFFFF8000000000 (by decide) (by decide) mapped⟩

end ArcadiaOs.Process
