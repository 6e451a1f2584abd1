import ArcadiaOs.Lib.Runs
import ArcadiaOs.Memory.BootAccounting
import ArcadiaOs.Memory.BootFrames

/-!
What `statistics` tells.  The snapshot is computed during the initialization; the scan over
the bitmap finds the number of free runs and the longest one.  No later call refreshes it.
-/

namespace ArcadiaOs.Memory

open Lib

namespace PhysicalFrameAllocator

def Free (pmm : PhysicalFrameAllocator) (frame : Nat) : Prop := pmm.isFrameReserved frame = false

instance (pmm : PhysicalFrameAllocator) : DecidablePred pmm.Free :=
  fun _ => inferInstanceAs (Decidable (_ = _))

def freeRunCount (pmm : PhysicalFrameAllocator) : Nat := runCount pmm.Free pmm.totalFrames

def freeRunLengths (pmm : PhysicalFrameAllocator) : Set Nat := runLengths pmm.Free pmm.totalFrames

/-- What the loop of `update_fragmentation_stats` knows after the frames below a bound. -/
structure Scanned (free : Nat → Prop) [DecidablePred free] (bound : Nat) (runs : FreeRuns) : Prop where
  trailing : Trailing free bound runs.currentBlock
  counted : runs.freeBlocks + (if runs.currentBlock > 0 then 1 else 0) = runCount free bound
  longest : IsGreatest (runLengths free bound) (max runs.largestBlock runs.currentBlock)

section Scan

variable {free : Nat → Prop} [DecidablePred free] {bound : Nat} {runs : FreeRuns}

theorem Scanned.extend (scanned : Scanned free bound runs) (here : free bound) :
    Scanned free (bound + 1) (runs.add false) := by
  have longest := longest_extend scanned.longest scanned.trailing here
  have begins : BeginsRun free bound ↔ runs.currentBlock = 0 :=
    scanned.trailing.begins_iff.trans (and_iff_right here)
  have counted := scanned.counted
  constructor
  · exact scanned.trailing.extend here
  · change runs.freeBlocks + (if runs.currentBlock + 1 > 0 then 1 else 0) = runCount free (bound + 1)
    rw [if_pos (Nat.succ_pos _), runCount, Nat.count_succ, ← runCount, ← counted]
    by_cases empty : runs.currentBlock = 0
    · rw [if_pos (begins.mpr empty), if_neg (by omega)]
    · rw [if_neg fun first => empty (begins.mp first), if_pos (Nat.pos_of_ne_zero empty)]
  · rw [Nat.max_assoc, Nat.max_eq_right (Nat.le_succ runs.currentBlock)] at longest
    exact longest

theorem close_current (runs : FreeRuns) : runs.close.currentBlock = 0 := by
  rw [FreeRuns.close]
  split
  · rfl
  · omega

theorem close_freeBlocks (runs : FreeRuns) :
    runs.close.freeBlocks = runs.freeBlocks + if runs.currentBlock > 0 then 1 else 0 := by
  rw [FreeRuns.close]
  split <;> rfl

theorem close_largestBlock (runs : FreeRuns) :
    runs.close.largestBlock = max runs.largestBlock runs.currentBlock := by
  rw [FreeRuns.close]
  split
  · simp only
    split <;> omega
  · omega

theorem Scanned.cut (scanned : Scanned free bound runs) (absent : ¬free bound) :
    Scanned free (bound + 1) (runs.add true) := by
  have counted := scanned.counted
  have added : runs.add true = runs.close := rfl
  rw [added]
  constructor
  · rw [close_current]
    exact Trailing.cut absent
  · rw [close_current, close_freeBlocks, counted, if_neg (Nat.lt_irrefl 0), runCount, runCount,
      Nat.count_succ, if_neg fun first : BeginsRun free bound => absent first.1]
  · rw [close_current, close_largestBlock, Nat.max_eq_left (Nat.zero_le _)]
    exact longest_cut scanned.longest absent

end Scan

theorem freeRuns_scanned (pmm : PhysicalFrameAllocator) (bound : Nat) :
    Scanned pmm.Free bound ((List.range bound).foldl
      (fun (runs : FreeRuns) frame => runs.add (pmm.isFrameReserved frame))
      { freeBlocks := 0, largestBlock := 0, currentBlock := 0 }) := by
  induction bound with
  | zero => exact ⟨Trailing.zero _, (Nat.count_zero _).symm, runLengths_zero _⟩
  | succ bound ih =>
      rw [List.range_succ, List.foldl_append, List.foldl_cons, List.foldl_nil]
      cases held : pmm.isFrameReserved bound with
      | false => exact ih.extend held
      | true => exact ih.cut fun free => Bool.noConfusion (held.symm.trans free)

theorem freeRuns_spec (pmm : PhysicalFrameAllocator) :
    pmm.freeRuns.freeBlocks = pmm.freeRunCount ∧
      IsGreatest pmm.freeRunLengths pmm.freeRuns.largestBlock := by
  have scanned := freeRuns_scanned pmm pmm.totalFrames
  constructor
  · rw [freeRuns, close_freeBlocks]
    exact scanned.counted
  · rw [freeRuns, close_largestBlock]
    exact scanned.longest

theorem freeRuns_congr {left right : PhysicalFrameAllocator} (total : left.totalFrames = right.totalFrames)
    (bits : ∀ frame, left.isFrameReserved frame = right.isFrameReserved frame) :
    left.freeRuns = right.freeRuns := by
  rw [freeRuns, freeRuns, total]
  simp only [bits]

theorem count_free (pmm : PhysicalFrameAllocator) :
    Nat.count pmm.Free pmm.totalFrames + pmm.reservedCount = pmm.totalFrames := by
  have same : Nat.count pmm.Free pmm.totalFrames =
      Nat.count (fun frame => ¬pmm.isFrameReserved frame = true) pmm.totalFrames :=
    count_congr fun frame _ => Bool.not_eq_true _ ▸ Iff.rfl
  rw [same, reservedCount, Nat.add_comm, count_add_count_not]

/-! The figures of the snapshot along a run. -/

structure SameFigures (left right : PhysicalFrameAllocator) : Prop where
  allocated : left.stats.allocatedFrames = right.stats.allocatedFrames
  free : left.stats.freeFrames = right.stats.freeFrames
  largest : left.stats.largestFreeBlock = right.stats.largestFreeBlock
  blocks : left.stats.freeBlockCount = right.stats.freeBlockCount

theorem SameFigures.refl (pmm : PhysicalFrameAllocator) : SameFigures pmm pmm := ⟨rfl, rfl, rfl, rfl⟩

theorem SameFigures.trans {first second third : PhysicalFrameAllocator}
    (later : SameFigures third second) (earlier : SameFigures second first) : SameFigures third first :=
  ⟨later.allocated.trans earlier.allocated, later.free.trans earlier.free,
    later.largest.trans earlier.largest, later.blocks.trans earlier.blocks⟩

theorem SameFigures.of_stats {left right : PhysicalFrameAllocator} (same : left.stats = right.stats) :
    SameFigures left right := by
  constructor <;> rw [same]

theorem countAllocationFailure_figures (pmm : PhysicalFrameAllocator) :
    SameFigures pmm.countAllocationFailure pmm := by
  unfold countAllocationFailure
  split <;> exact ⟨rfl, rfl, rfl, rfl⟩

theorem countInvalidFree_figures (pmm : PhysicalFrameAllocator) :
    SameFigures pmm.countInvalidFree pmm := by
  unfold countInvalidFree
  split <;> exact ⟨rfl, rfl, rfl, rfl⟩

theorem countDoubleFree_figures (pmm : PhysicalFrameAllocator) :
    SameFigures pmm.countDoubleFree pmm := by
  unfold countDoubleFree
  split <;> exact ⟨rfl, rfl, rfl, rfl⟩

theorem stats_markFrameReserved (pmm : PhysicalFrameAllocator) (frame : Nat) :
    (pmm.markFrameReserved frame).stats = pmm.stats := by
  unfold markFrameReserved
  split <;> rfl

theorem stats_markFrameFree (pmm : PhysicalFrameAllocator) (frame : Nat) :
    (pmm.markFrameFree frame).stats = pmm.stats := by
  unfold markFrameFree
  split <;> rfl

theorem stats_reserveFrame (pmm : PhysicalFrameAllocator) (frame : Nat) :
    (pmm.reserveFrame frame).stats = pmm.stats := by
  unfold reserveFrame
  split
  · rfl
  · exact stats_markFrameReserved pmm frame

theorem stats_counted (pmm : PhysicalFrameAllocator) (allocated next : Nat) :
    ({ pmm with allocatedFrames := allocated, nextFree := next } : PhysicalFrameAllocator).stats =
      pmm.stats := rfl

theorem stats_advanceNextFree (pmm : PhysicalFrameAllocator) :
    pmm.advanceNextFree.stats = pmm.stats := rfl

theorem stats_takeBlock (pmm : PhysicalFrameAllocator) (start count : Nat) :
    (pmm.takeBlock start count).stats = pmm.stats := by
  rw [takeBlock, stats_advanceNextFree, stats_counted]
  exact foldl_field stats markFrameReserved stats_markFrameReserved _ pmm

theorem stats_freed (pmm : PhysicalFrameAllocator) (allocated : Nat) :
    ({ pmm with allocatedFrames := allocated } : PhysicalFrameAllocator).stats = pmm.stats := rfl

theorem allocateFrame_figures (pmm : PhysicalFrameAllocator) :
    SameFigures pmm.allocateFrame.2 pmm := by
  unfold allocateFrame
  split
  · exact countAllocationFailure_figures pmm
  · apply SameFigures.of_stats
    rw [stats_advanceNextFree, stats_freed, stats_markFrameReserved]

theorem allocateFrames_figures (pmm : PhysicalFrameAllocator) (count : Nat) :
    SameFigures (pmm.allocateFrames count).2 pmm := by
  unfold allocateFrames
  split
  · exact .refl pmm
  split
  · exact countAllocationFailure_figures pmm
  split
  · exact .of_stats (stats_takeBlock pmm _ count)
  · exact countAllocationFailure_figures pmm

theorem freeFrame_figures (pmm : PhysicalFrameAllocator) (addr : PhysAddr) :
    SameFigures (pmm.freeFrame addr).2 pmm := by
  simp only [freeFrame]
  split
  · exact countInvalidFree_figures pmm
  split
  · exact countDoubleFree_figures pmm
  · apply SameFigures.of_stats
    rw [stats_freed, stats_markFrameFree]

theorem freeFrames_figures (pmm : PhysicalFrameAllocator) (addr : PhysAddr) (count : Nat) :
    SameFigures (pmm.freeFrames addr count).2 pmm := by
  simp only [freeFrames]
  split
  · exact countInvalidFree_figures pmm
  split
  · exact countDoubleFree_figures pmm
  · apply SameFigures.of_stats
    rw [stats_freed]
    exact foldl_field stats markFrameFree stats_markFrameFree _ pmm

theorem step_figures (pmm : PhysicalFrameAllocator) (call : PmmCall) :
    SameFigures (pmm.step call).2 pmm := by
  cases call with
  | reserveRange start stop =>
      apply SameFigures.of_stats
      simp only [step, reserveRange, recalculateNextFree, stats_advanceNextFree]
      exact foldl_field stats reserveFrame stats_reserveFrame _ pmm
  | allocateFrame => exact allocateFrame_figures pmm
  | allocateFrames count => exact allocateFrames_figures pmm count
  | freeFrame addr => exact freeFrame_figures pmm addr
  | freeFrames addr count => exact freeFrames_figures pmm addr count

theorem run_figures (pmm : PhysicalFrameAllocator) (calls : List PmmCall) :
    SameFigures (machine.final pmm calls) pmm ∧ (machine.final pmm calls).totalFrames = pmm.totalFrames := by
  induction calls generalizing pmm with
  | nil => exact ⟨.refl pmm, rfl⟩
  | cons call rest ih =>
      obtain ⟨figures, total⟩ := ih (pmm.step call).2
      exact ⟨figures.trans (step_figures pmm call), total.trans (totalFrames_step pmm call)⟩

structure Measured (pmm : PhysicalFrameAllocator) : Prop where
  allocated : pmm.stats.allocatedFrames = pmm.allocatedFrames
  free : pmm.stats.freeFrames = pmm.freeFrameCount
  largest : pmm.stats.largestFreeBlock = pmm.freeRuns.largestBlock
  blocks : pmm.stats.freeBlockCount = pmm.freeRuns.freeBlocks

theorem updateStatistics_measured (pmm : PhysicalFrameAllocator) (usableBytes reservedBytes : Nat) :
    (pmm.updateStatistics usableBytes reservedBytes).Measured := ⟨rfl, rfl, rfl, rfl⟩

theorem Measured.kept {before after : PhysicalFrameAllocator} (measured : before.Measured)
    (figures : SameFigures after before) (total : after.totalFrames = before.totalFrames)
    (counter : after.allocatedFrames = before.allocatedFrames)
    (bits : ∀ frame, after.isFrameReserved frame = before.isFrameReserved frame) : after.Measured := by
  have runs := freeRuns_congr total bits
  constructor
  · rw [figures.allocated, measured.allocated, counter]
  · rw [figures.free, measured.free, freeFrameCount, freeFrameCount, total, counter]
  · rw [figures.largest, measured.largest, runs]
  · rw [figures.blocks, measured.blocks, runs]

theorem selfTest_measured {pmm : PhysicalFrameAllocator} (measured : pmm.Measured)
    (accounts : pmm.Accounts 0) (sound : pmm.NextFreeSound) (validating : pmm.validationEnabled = true) :
    pmm.selfTest.2.Measured ∧ pmm.selfTest.2.allocatedFrames = pmm.selfTest.2.reservedCount := by
  have restored := selfTest_restored sound validating
  obtain ⟨calls, fits, run⟩ := selfTest_run pmm
  obtain ⟨figures, total⟩ := run_figures pmm calls
  have kept := run_accounts accounts sound validating calls fits
  rw [← run] at figures total kept
  have counted := kept.exact.counted
  have counter : pmm.selfTest.2.allocatedFrames = pmm.allocatedFrames := by
    rw [counted, accounts.exact.counted]
    exact reservedCount_congr restored.totalFrames restored.reserved
  exact ⟨measured.kept figures total counter restored.reserved, counted⟩

theorem tested_measured {pmm : PhysicalFrameAllocator} (accounts : pmm.Accounts 0)
    (sound : pmm.NextFreeSound) (validating : pmm.validationEnabled = true)
    (usableBytes reservedBytes : Nat) :
    (pmm.updateStatistics usableBytes reservedBytes).selfTest.2.Measured ∧
      (pmm.updateStatistics usableBytes reservedBytes).selfTest.2.allocatedFrames =
        (pmm.updateStatistics usableBytes reservedBytes).selfTest.2.reservedCount := by
  have same := updateStatistics_same pmm usableBytes reservedBytes
  exact selfTest_measured (updateStatistics_measured pmm usableBytes reservedBytes)
    (accounts.congr same.bitmap same.totalFrames rfl) (sound.congr same) validating

theorem initStandardReservations_accounts {pmm : PhysicalFrameAllocator} {excess : Nat}
    (accounts : pmm.Accounts excess) : pmm.initStandardReservations.Accounts excess :=
  List.foldlRecOn standardReservations _
    (motive := fun pmm : PhysicalFrameAllocator => pmm.Accounts excess) accounts
    fun _ kept range _ => reserveRange_accounts kept range.1 range.2

end PhysicalFrameAllocator

namespace PhysicalMemoryManager

open PhysicalFrameAllocator

def statistics (manager : PhysicalMemoryManager) : MemoryStatistics := manager.frameAllocator.stats

inductive ManagerCall
  | allocateFrame
  | allocateFrames (count : Nat)
  | freeFrame (addr : PhysAddr)
  | freeFrames (addr : PhysAddr) (count : Nat)
  | reserveRegion (region : ReservedRegion)

def passOn (manager : PhysicalMemoryManager) (call : PmmCall) : Option PmmAnswer × PhysicalMemoryManager :=
  let result := manager.frameAllocator.step call
  (some result.1, { manager with frameAllocator := result.2 })

/-- No answer is a panic: the end of a region has more than 52 bits. -/
def step (manager : PhysicalMemoryManager) : ManagerCall → Option PmmAnswer × PhysicalMemoryManager
  | .allocateFrame => manager.passOn .allocateFrame
  | .allocateFrames count => manager.passOn (.allocateFrames count)
  | .freeFrame addr => manager.passOn (.freeFrame addr)
  | .freeFrames addr count => manager.passOn (.freeFrames addr count)
  | .reserveRegion region =>
      match manager.reserveRegion region with
      | some reserved => (some (.done (.ok ())), reserved)
      | none => (none, manager)

def machine : Machine PhysicalMemoryManager ManagerCall (Option PmmAnswer) := ⟨step⟩

/-- The manager after `init`, or after `init_from_memmap` with a list of entries. -/
inductive Initialized (bitmap : Bitmap 8) (totalMemoryBytes : Nat) : PhysicalMemoryManager → Prop
  | init : Initialized bitmap totalMemoryBytes (new bitmap totalMemoryBytes).init
  | memmap (entries : List MemoryRegion) (manager : PhysicalMemoryManager)
      (loaded : (new bitmap totalMemoryBytes).initFromMemmap entries = some manager) :
      Initialized bitmap totalMemoryBytes manager

/-- The snapshot tells the numbers of reserved and free tracked frames, the length of the longest run
of free frames and the number of such runs. -/
structure Reflects (manager : PhysicalMemoryManager) : Prop where
  allocated : manager.statistics.allocatedFrames = manager.frameAllocator.reservedCount
  free : manager.statistics.freeFrames =
    Nat.count manager.frameAllocator.Free manager.frameAllocator.totalFrames
  longest : IsGreatest manager.frameAllocator.freeRunLengths manager.statistics.largestFreeBlock
  runs : manager.statistics.freeBlockCount = manager.frameAllocator.freeRunCount

/-- As many frames are reserved as the counter said after the initialization, and the free runs are
as many and as long as they were then. -/
structure AsInitialized (initial now : PhysicalFrameAllocator) : Prop where
  reserved : now.reservedCount = initial.allocatedFrames
  longest : ∃ length, IsGreatest initial.freeRunLengths length ∧ IsGreatest now.freeRunLengths length
  runs : now.freeRunCount = initial.freeRunCount

theorem step_figures (manager : PhysicalMemoryManager) (call : ManagerCall) :
    SameFigures (manager.step call).2.frameAllocator manager.frameAllocator ∧
      (manager.step call).2.frameAllocator.totalFrames = manager.frameAllocator.totalFrames := by
  have passed : ∀ call, SameFigures (manager.passOn call).2.frameAllocator manager.frameAllocator ∧
      (manager.passOn call).2.frameAllocator.totalFrames = manager.frameAllocator.totalFrames :=
    fun call => ⟨manager.frameAllocator.step_figures call, totalFrames_step manager.frameAllocator call⟩
  cases call with
  | allocateFrame => exact passed .allocateFrame
  | allocateFrames count => exact passed (.allocateFrames count)
  | freeFrame addr => exact passed (.freeFrame addr)
  | freeFrames addr count => exact passed (.freeFrames addr count)
  | reserveRegion region =>
      simp only [step, reserveRegion]
      cases region.region.end? with
      | none => exact ⟨.refl _, rfl⟩
      | some stop => exact passed (.reserveRange region.region.base stop)

theorem run_figures (manager : PhysicalMemoryManager) (calls : List ManagerCall) :
    SameFigures (machine.final manager calls).frameAllocator manager.frameAllocator ∧
      (machine.final manager calls).frameAllocator.totalFrames = manager.frameAllocator.totalFrames := by
  induction calls generalizing manager with
  | nil => exact ⟨.refl _, rfl⟩
  | cons call rest ih =>
      obtain ⟨figures, total⟩ := ih (manager.step call).2
      obtain ⟨here, totalHere⟩ := manager.step_figures call
      exact ⟨figures.trans here, total.trans totalHere⟩

theorem init_measured (bitmap : Bitmap 8) (totalMemoryBytes : Nat) :
    (new bitmap totalMemoryBytes).init.frameAllocator.Measured ∧
      (new bitmap totalMemoryBytes).init.frameAllocator.allocatedFrames =
        (new bitmap totalMemoryBytes).init.frameAllocator.reservedCount := by
  obtain ⟨usableBytes, reservedBytes, tested⟩ := init_tested (new bitmap totalMemoryBytes)
  have ledger := initStandardReservations_ledger bitmap totalMemoryBytes
  have accounts := initStandardReservations_accounts (new_accounts bitmap totalMemoryBytes)
  rw [tested]
  exact tested_measured accounts ledger.sound ledger.validating usableBytes reservedBytes

theorem finishMemmap_measured (manager : PhysicalMemoryManager) :
    manager.finishMemmap.frameAllocator.Measured := by
  rw [finishMemmap]
  generalize manager.frameAllocator.initStandardReservations.recalculateNextFree = reserved
  exact updateStatistics_measured reserved _ _

theorem Initialized.measured {bitmap : Bitmap 8} {totalMemoryBytes : Nat} {manager : PhysicalMemoryManager}
    (initialized : Initialized bitmap totalMemoryBytes manager) : manager.frameAllocator.Measured := by
  cases initialized with
  | init => exact (init_measured bitmap totalMemoryBytes).1
  | memmap entries manager loaded =>
      rw [initFromMemmap, Option.map_eq_some_iff] at loaded
      obtain ⟨added, _, rfl⟩ := loaded
      exact finishMemmap_measured added

/-- After any run from an initialization the snapshot tells the state of the bitmap exactly when
the reserved frames and the free runs are as they were at the initialization. -/
theorem statistics_reflect_iff {bitmap : Bitmap 8} {totalMemoryBytes : Nat} {manager : PhysicalMemoryManager}
    (initialized : Initialized bitmap totalMemoryBytes manager) (calls : List ManagerCall) :
    Reflects (machine.final manager calls) ↔
      AsInitialized manager.frameAllocator (machine.final manager calls).frameAllocator := by
  have measured := initialized.measured
  obtain ⟨figures, total⟩ := run_figures manager calls
  obtain ⟨blocks, longest⟩ := manager.frameAllocator.freeRuns_spec
  have allocated := figures.allocated.trans measured.allocated
  have free := figures.free.trans measured.free
  have largest := figures.largest.trans measured.largest
  have runs := (figures.blocks.trans measured.blocks).trans blocks
  constructor
  · intro reflects
    constructor
    · exact reflects.allocated.symm.trans allocated
    · refine ⟨_, longest, ?_⟩
      rw [← largest]
      exact reflects.longest
    · exact reflects.runs.symm.trans runs
  · intro unchanged
    have counter := unchanged.reserved
    constructor
    · exact allocated.trans counter.symm
    · have complement := (machine.final manager calls).frameAllocator.count_free
      have small := manager.frameAllocator.totalFrames_small
      refine free.trans ?_
      rw [freeFrameCount, ← counter, wrappingSub_small small (by omega)]
      omega
    · obtain ⟨length, before, now⟩ := unchanged.longest
      change IsGreatest _ (machine.final manager calls).frameAllocator.stats.largestFreeBlock
      rw [largest, longest.unique before]
      exact now
    · exact runs.trans unchanged.runs.symm

theorem AsInitialized.of_restored {initial now : PhysicalFrameAllocator}
    (counted : initial.allocatedFrames = initial.reservedCount) (restored : Restored now initial) :
    AsInitialized initial now := by
  have same : now.Free = initial.Free := by
    funext frame
    rw [Free, Free, restored.reserved]
  obtain ⟨_, longest⟩ := initial.freeRuns_spec
  refine ⟨?_, ⟨_, longest, ?_⟩, ?_⟩
  · rw [counted, reservedCount_congr restored.totalFrames restored.reserved]
  · rw [freeRunLengths, same, restored.totalFrames]
    exact longest
  · rw [freeRunCount, freeRunCount, restored.totalFrames, runCount, runCount]
    apply count_congr
    intro frame _
    rw [same]

theorem AsInitialized.release {manager : PhysicalMemoryManager}
    (counted : manager.frameAllocator.allocatedFrames = manager.frameAllocator.reservedCount)
    (sound : manager.frameAllocator.NextFreeSound) {addr : PhysAddr}
    (granted : manager.frameAllocator.allocateFrame.1 = some addr) :
    AsInitialized manager.frameAllocator
      (machine.final manager [.allocateFrame, .freeFrame addr]).frameAllocator :=
  .of_restored counted (allocateFrame_restored sound granted).2.1

theorem first_allocation (bitmap : Bitmap 8) {totalMemoryBytes : Nat}
    (large : 0x204 ≤ min (totalMemoryBytes / frameSize) maxTrackedFrames) :
    (bootAllocator bitmap totalMemoryBytes).allocateFrame.1 = some ⟨0x200000, by decide⟩ := by
  have total := bootAllocator_total bitmap totalMemoryBytes
  obtain ⟨_, first⟩ := bootAllocator_first bitmap totalMemoryBytes (total ▸ large)
  rcases (bootAllocator bitmap totalMemoryBytes).allocateFrame_spec with
    ⟨full, _⟩ | ⟨_, ⟨addr, taken, place⟩, _⟩
  · omega
  · rw [first] at place
    rw [taken, Option.some.injEq, PhysAddr.mk.injEq, place]
    rfl

theorem first_allocation_released (bitmap : Bitmap 8) {totalMemoryBytes : Nat}
    (large : 0x204 ≤ min (totalMemoryBytes / frameSize) maxTrackedFrames) :
    AsInitialized (new bitmap totalMemoryBytes).init.frameAllocator
      (machine.final (new bitmap totalMemoryBytes).init
        [.allocateFrame, .freeFrame ⟨0x200000, by decide⟩]).frameAllocator :=
  .release (init_measured bitmap totalMemoryBytes).2 (bootAllocator_sound bitmap totalMemoryBytes)
    (first_allocation bitmap large)

/-- A frame has been allocated and given back, and the snapshot is right again. -/
theorem statistics_reflect_release :
    Reflects (machine.final (new (fun _ => 0#8) 0x600000).init
      [.allocateFrame, .freeFrame ⟨0x200000, by decide⟩]) :=
  (statistics_reflect_iff .init [.allocateFrame, .freeFrame ⟨0x200000, by decide⟩]).mpr
    (first_allocation_released (fun _ => 0#8) (by decide))

/-- The frame of a successful allocation is not in the snapshot. -/
theorem allocation_unseen {manager : PhysicalMemoryManager} (measured : manager.frameAllocator.Measured)
    (counted : manager.frameAllocator.allocatedFrames = manager.frameAllocator.reservedCount)
    (sound : manager.frameAllocator.NextFreeSound)
    (room : manager.frameAllocator.nextFree < manager.frameAllocator.totalFrames) :
    ¬Reflects (machine.final manager [.allocateFrame]) := by
  intro reflects
  have figures := (run_figures manager [.allocateFrame]).1
  have allocated := (figures.allocated.trans measured.allocated).symm.trans reflects.allocated
  rcases manager.frameAllocator.allocateFrame_spec with ⟨full, _⟩ | ⟨_, _, total, marks, _⟩
  · omega
  · have gained : manager.frameAllocator.allocateFrame.2.reservedCount =
        manager.frameAllocator.reservedCount + 1 := by
      refine reservedCount_gain {manager.frameAllocator.nextFree} total ?_ ?_
      · intro frame
        rw [marks]
        simp only [Finset.mem_singleton]
      · intro frame member
        obtain rfl := Finset.mem_singleton.mp member
        exact sound.free room
    change manager.frameAllocator.allocatedFrames = manager.frameAllocator.allocateFrame.2.reservedCount
      at allocated
    omega

theorem first_allocation_unseen (bitmap : Bitmap 8) {totalMemoryBytes : Nat}
    (large : 0x204 ≤ min (totalMemoryBytes / frameSize) maxTrackedFrames) :
    ¬Reflects (machine.final (new bitmap totalMemoryBytes).init [.allocateFrame]) := by
  obtain ⟨measured, counted⟩ := init_measured bitmap totalMemoryBytes
  have total := bootAllocator_total bitmap totalMemoryBytes
  obtain ⟨_, first⟩ := bootAllocator_first bitmap totalMemoryBytes (total ▸ large)
  have room : (bootAllocator bitmap totalMemoryBytes).nextFree <
      (bootAllocator bitmap totalMemoryBytes).totalFrames := by omega
  exact allocation_unseen measured counted (bootAllocator_sound bitmap totalMemoryBytes) room

theorem statistics_stale_after_allocation :
    ¬Reflects (machine.final (new (fun _ => 0#8) 0x600000).init [.allocateFrame]) :=
  first_allocation_unseen (fun _ => 0#8) (by decide)

end PhysicalMemoryManager

end ArcadiaOs.Memory
