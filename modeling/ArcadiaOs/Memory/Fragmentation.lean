import ArcadiaOs.Memory.Statistics

/-!
The fragmentation figures.  `update_fragmentation_stats` stores how many maximal runs of free
frames there are and how long the longest one is, and `allocate_frames` finds a block in a
run that its search does not begin behind.
-/

namespace ArcadiaOs.Memory.PhysicalFrameAllocator

open Lib

def FreeRun (pmm : PhysicalFrameAllocator) (start length : Nat) : Prop :=
  MaximalRun pmm.Free pmm.totalFrames start length

/-- The figures tell the number of maximal free runs and the length of the longest one, and blocks
up to that length are allocated when the search begins no later than at a longest run. -/
structure FiguresExact (pmm : PhysicalFrameAllocator) : Prop where
  blocks : pmm.stats.freeBlockCount = { run : Nat × Nat | pmm.FreeRun run.1 run.2 }.ncard
  longest : ∀ start length, pmm.FreeRun start length → length ≤ pmm.stats.largestFreeBlock
  attained : pmm.stats.freeBlockCount ≠ 0 → ∃ start, pmm.FreeRun start pmm.stats.largestFreeBlock
  absent : pmm.stats.freeBlockCount = 0 → pmm.stats.largestFreeBlock = 0
  allocates : ∀ start, pmm.FreeRun start pmm.stats.largestFreeBlock → pmm.nextFree ≤ start →
    ∀ count, 1 ≤ count → count ≤ pmm.stats.largestFreeBlock →
      ∃ addr, (pmm.allocateFrames count).1 = some addr

variable {pmm : PhysicalFrameAllocator} {start length count : Nat}

theorem FreeRun.block (run : pmm.FreeRun start length) (short : count ≤ length) :
    pmm.FreeBlock start count := by
  intro offset below
  exact run.run (start + offset) (Nat.le_add_right _ _) (by omega)

theorem FreeRun.allocates (run : pmm.FreeRun start length) (ahead : pmm.nextFree ≤ start)
    (positive : 1 ≤ count) (short : count ≤ length) :
    ∃ addr, (pmm.allocateFrames count).1 = some addr := by
  rcases pmm.allocateFrames_spec count with ⟨_, _, refused⟩ | ⟨_, addr, _, _, _, _, granted, _⟩
  · exact absurd (run.block short) (refused positive start ahead)
  · exact ⟨addr, granted⟩

/-- The figures of `update_fragmentation_stats` are exact. -/
theorem fragmentation_exact (pmm : PhysicalFrameAllocator) :
    pmm.updateFragmentationStats.FiguresExact := by
  obtain ⟨blocks, longest⟩ := pmm.freeRuns_spec
  have some_iff := runCount_ne_zero_iff pmm.Free pmm.totalFrames
  constructor
  · exact blocks.trans (ncard_maximalRun pmm.Free pmm.totalFrames).symm
  · exact fun start length run => run.le_longest longest
  · intro some
    obtain ⟨start, length, run⟩ := some_iff.mp fun none => some (blocks.trans none)
    exact exists_longest longest (Nat.lt_of_lt_of_le run.positive (run.le_longest longest))
  · intro none
    by_contra positive
    obtain ⟨start, run⟩ := exists_longest longest (Nat.pos_of_ne_zero positive)
    exact some_iff.mpr ⟨start, _, run⟩ (blocks.symm.trans none)
  · exact fun start run ahead count positive short => run.allocates ahead positive short

end ArcadiaOs.Memory.PhysicalFrameAllocator
