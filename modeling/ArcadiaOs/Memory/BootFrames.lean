import ArcadiaOs.Memory.FrameCompleteness
import ArcadiaOs.Memory.FrameHistory
import ArcadiaOs.Memory.Grants

/-!
The allocator that `init` leaves behind.  The self-test is a run of ordinary calls that
gives back what it takes; where four frames are free in a row it leaves `next_free` at the
lowest free frame.
-/

namespace ArcadiaOs.Memory

open Lib

namespace PhysicalFrameAllocator

variable {pmm : PhysicalFrameAllocator}

theorem freeFour_fits (addr : PhysAddr) : (PmmCall.freeFrames addr 4).Fits := by
  have bound := addr.inBounds
  have quotient := Nat.div_le_self addr.asU64 frameSize
  change addr.asU64 / frameSize + 4 < 2 ^ 64
  omega

theorem selfTestFreed_run (pmm : PhysicalFrameAllocator) (addr : PhysAddr) :
    ∃ calls : List PmmCall, (∀ call ∈ calls, call.Fits) ∧
      (pmm.selfTestFreed addr).2 = machine.final pmm calls := by
  unfold selfTestFreed
  split
  · exact ⟨[], nofun, rfl⟩
  dsimp only
  split
  · exact ⟨[.freeFrame addr], by simp [PmmCall.Fits], rfl⟩
  split
  · exact ⟨[.freeFrame addr, .freeFrame beyondTracked], by simp [PmmCall.Fits], rfl⟩
  dsimp only
  split
  · rename_i start granted
    refine ⟨[.freeFrame addr, .freeFrame beyondTracked, .allocateFrames 4, .freeFrames start 4], ?_, rfl⟩
    simp only [List.forall_mem_cons]
    exact ⟨trivial, trivial, trivial, freeFour_fits start, nofun⟩
  · exact ⟨[.freeFrame addr, .freeFrame beyondTracked, .allocateFrames 4], by simp [PmmCall.Fits], rfl⟩

theorem selfTest_run (pmm : PhysicalFrameAllocator) :
    ∃ calls : List PmmCall, (∀ call ∈ calls, call.Fits) ∧ pmm.selfTest.2 = machine.final pmm calls := by
  unfold selfTest
  split
  · exact ⟨[], nofun, rfl⟩
  dsimp only
  split
  · exact ⟨[.allocateFrame], by simp [PmmCall.Fits], rfl⟩
  rename_i addr granted
  split
  · exact ⟨[.allocateFrame, .freeFrame addr], by simp [PmmCall.Fits], rfl⟩
  split
  · exact ⟨[.allocateFrame, .freeFrame addr], by simp [PmmCall.Fits], rfl⟩
  · obtain ⟨calls, fits, run⟩ := selfTestFreed_run (pmm.allocateFrame.2.freeFrame addr).2 addr
    refine ⟨.allocateFrame :: .freeFrame addr :: calls, ?_, run⟩
    simp only [List.forall_mem_cons]
    exact ⟨trivial, trivial, fits⟩

theorem nextFree_le {left right : PhysicalFrameAllocator}
    (bits : ∀ frame, left.isFrameReserved frame = right.isFrameReserved frame)
    (total : left.totalFrames = right.totalFrames) (sound : left.NextFreeSound)
    (lowest : left.NextFreeLowest) (rightSound : right.NextFreeSound) : left.nextFree ≤ right.nextFree := by
  by_contra below
  have bound := sound.bound
  have free := rightSound.free (by omega)
  rw [← bits, lowest _ (by omega)] at free
  cases free

theorem Restored.nextFree {after : PhysicalFrameAllocator} (restored : Restored after pmm)
    (sound : pmm.NextFreeSound) (lowest : pmm.NextFreeLowest) (kept : after.NextFreeLowest) :
    after.nextFree = pmm.nextFree :=
  Nat.le_antisymm
    (nextFree_le restored.reserved restored.totalFrames restored.sound kept sound)
    (nextFree_le (fun frame => (restored.reserved frame).symm) restored.totalFrames.symm sound lowest
      restored.sound)

theorem nextFree_eq (sound : pmm.NextFreeSound) (lowest : pmm.NextFreeLowest) {frame : Nat}
    (free : pmm.isFrameReserved frame = false)
    (below : ∀ other < frame, pmm.isFrameReserved other = true) : pmm.nextFree = frame := by
  have least := lowest_free lowest free
  have tracked := lt_of_free free
  by_contra other
  have found := sound.free (by omega)
  rw [below _ (by omega)] at found
  cases found

theorem allocations_reach (sound : pmm.NextFreeSound) (lowest : pmm.NextFreeLowest) {frame : Nat}
    (free : pmm.isFrameReserved frame = false) : ∃ count, (allocations count pmm).nextFree = frame := by
  induction gap : frame - pmm.nextFree using Nat.strong_induction_on generalizing pmm with
  | _ gap ih =>
      have tracked := lt_of_free free
      have below := lowest_free lowest free
      by_cases here : pmm.nextFree = frame
      · exact ⟨0, here⟩
      rcases pmm.allocateFrame_spec with ⟨full, _⟩ | ⟨_, _, _, reserved, later, after, kept⟩
      · omega
      have still : pmm.allocateFrame.2.isFrameReserved frame = false := by
        rw [reserved, free, decide_eq_false fun same => here same.symm]
        rfl
      obtain ⟨count, reached⟩ := ih _ (by omega) after (kept lowest) still rfl
      exact ⟨count + 1, reached⟩

/-- The lowest free frame has three free frames behind it. -/
def RoomAtLowest (pmm : PhysicalFrameAllocator) : Prop := pmm.FreeBlock pmm.nextFree 4

theorem Restored.room {after : PhysicalFrameAllocator} (restored : Restored after pmm)
    (sound : pmm.NextFreeSound) (lowest : pmm.NextFreeLowest) (room : pmm.RoomAtLowest)
    (kept : after.NextFreeLowest) : after.RoomAtLowest := by
  intro offset inside
  rw [restored.nextFree sound lowest kept, restored.reserved]
  exact room offset inside

theorem selfTestFreed_lowest (sound : pmm.NextFreeSound) (lowest : pmm.NextFreeLowest)
    (room : pmm.RoomAtLowest) (addr : PhysAddr)
    (free : pmm.isFrameReserved (addr.asU64 / frameSize) = false) :
    (pmm.selfTestFreed addr).2.NextFreeLowest := by
  have again := freeFrame_restored sound addr (by
    rw [ne_eq, freeFrame_ok_iff, free]
    simp)
  have invalid :=
    (freeFrame_restored again.sound beyondTracked (beyondTracked_refused _)).trans again
  have lowestAgain := step_lowest pmm (.freeFrame addr) lowest trivial
  have lowestInvalid := step_lowest _ (.freeFrame beyondTracked) lowestAgain trivial
  have roomInvalid := invalid.room sound lowest room lowestInvalid
  have lowestTaken := step_lowest _ (.allocateFrames 4) lowestInvalid (.inr (.inl roomInvalid))
  unfold selfTestFreed
  split
  · exact lowest
  dsimp only
  split
  · exact lowestAgain
  split
  · exact lowestInvalid
  dsimp only
  split
  · rename_i start granted
    exact step_lowest _ (.freeFrames start 4) lowestTaken trivial
  · exact lowestTaken

theorem selfTest_lowest (sound : pmm.NextFreeSound) (lowest : pmm.NextFreeLowest)
    (room : pmm.RoomAtLowest) : pmm.selfTest.2.NextFreeLowest := by
  have lowestTaken := step_lowest pmm .allocateFrame lowest trivial
  unfold selfTest
  split
  · exact lowest
  dsimp only
  split
  · exact lowestTaken
  rename_i addr granted
  obtain ⟨freed, restored, free⟩ := allocateFrame_restored sound granted
  have lowestFreed := step_lowest _ (.freeFrame addr) lowestTaken trivial
  split
  · exact lowestFreed
  split
  · exact lowestFreed
  · exact selfTestFreed_lowest restored.sound lowestFreed
      (restored.room sound lowest room lowestFreed) addr ((restored.reserved _).trans free)

theorem initStandardReservations_lowest (pmm : PhysicalFrameAllocator) :
    pmm.initStandardReservations.NextFreeLowest := by
  rw [initStandardReservations]
  exact (reserveRange_spec _ _ _).2.2.2

theorem updateStatistics_same (pmm : PhysicalFrameAllocator) (usableBytes reservedBytes : Nat) :
    SameFrames (pmm.updateStatistics usableBytes reservedBytes) pmm :=
  ⟨rfl, rfl, rfl⟩

theorem init_tested (manager : PhysicalMemoryManager) : ∃ usableBytes reservedBytes,
    manager.init.frameAllocator = (manager.frameAllocator.initStandardReservations.updateStatistics
      usableBytes reservedBytes).selfTest.2 := by
  rw [PhysicalMemoryManager.init]
  generalize manager.frameAllocator.initStandardReservations = reserved
  exact ⟨_, _, rfl⟩

section Init

variable (bitmap : Bitmap 8) (totalMemoryBytes : Nat)

def bootAllocator : PhysicalFrameAllocator :=
  (PhysicalMemoryManager.new bitmap totalMemoryBytes).init.frameAllocator

theorem bootAllocator_total : (bootAllocator bitmap totalMemoryBytes).totalFrames =
    min (totalMemoryBytes / frameSize) maxTrackedFrames :=
  (init_ledger bitmap totalMemoryBytes).1

theorem bootAllocator_sound : (bootAllocator bitmap totalMemoryBytes).NextFreeSound :=
  (init_ledger bitmap totalMemoryBytes).2.sound

theorem bootAllocator_reserved {frame : Nat}
    (inside : frame < (bootAllocator bitmap totalMemoryBytes).totalFrames) :
    (bootAllocator bitmap totalMemoryBytes).isFrameReserved frame = true ↔ InStandardReservation frame := by
  have ledger := (init_ledger bitmap totalMemoryBytes).2
  refine (ledger.reserved frame inside).trans ?_
  simp [held_nil]

instance : DecidablePred InStandardReservation :=
  fun _ => inferInstanceAs (Decidable (∃ _ ∈ _, _))

theorem standard_low : ∀ frame < 0x204, (InStandardReservation frame ↔ frame < 0x200) := by
  decide +kernel

theorem bootAllocator_first (large : 0x204 ≤ (bootAllocator bitmap totalMemoryBytes).totalFrames) :
    (bootAllocator bitmap totalMemoryBytes).NextFreeLowest ∧
      (bootAllocator bitmap totalMemoryBytes).nextFree = 0x200 := by
  have low : ∀ frame < 0x204,
      ((bootAllocator bitmap totalMemoryBytes).isFrameReserved frame = true ↔ frame < 0x200) := by
    intro frame below
    rw [bootAllocator_reserved bitmap totalMemoryBytes (by omega), standard_low frame below]
  have free : ∀ frame, 0x200 ≤ frame → frame < 0x204 →
      (bootAllocator bitmap totalMemoryBytes).isFrameReserved frame = false := by
    intro frame above below
    rw [Bool.eq_false_iff, ne_eq, low frame below]
    omega
  have ledger := initStandardReservations_ledger bitmap totalMemoryBytes
  have restored := init_restored (PhysicalMemoryManager.new bitmap totalMemoryBytes) ledger.sound
    ledger.validating
  obtain ⟨usableBytes, reservedBytes, tested⟩ :=
    init_tested (PhysicalMemoryManager.new bitmap totalMemoryBytes)
  have same := updateStatistics_same (new bitmap totalMemoryBytes).initStandardReservations usableBytes
    reservedBytes
  have sound := ledger.sound.congr same
  have lowest := (initStandardReservations_lowest (new bitmap totalMemoryBytes)).congr same
  have bits : ∀ frame, ((new bitmap totalMemoryBytes).initStandardReservations.updateStatistics
      usableBytes reservedBytes).isFrameReserved frame = (bootAllocator bitmap totalMemoryBytes).isFrameReserved frame := by
    intro frame
    rw [same.reserved]
    exact (restored.reserved frame).symm
  have first : ∀ pmm : PhysicalFrameAllocator, pmm.NextFreeSound → pmm.NextFreeLowest →
      (∀ frame, pmm.isFrameReserved frame = (bootAllocator bitmap totalMemoryBytes).isFrameReserved frame) →
      pmm.nextFree = 0x200 := by
    intro pmm sound lowest bits
    refine nextFree_eq sound lowest ?_ fun frame below => ?_
    · rw [bits, free 0x200 (by decide) (by decide)]
    · rw [bits, low frame (by omega)]
      exact below
  have room : ((new bitmap totalMemoryBytes).initStandardReservations.updateStatistics usableBytes
      reservedBytes).RoomAtLowest := by
    intro offset inside
    rw [first _ sound lowest bits, bits]
    exact free _ (by omega) (by omega)
  have kept : (bootAllocator bitmap totalMemoryBytes).NextFreeLowest := by
    rw [bootAllocator, tested]
    exact selfTest_lowest sound lowest room
  exact ⟨kept, first _ (bootAllocator_sound bitmap totalMemoryBytes) kept fun _ => rfl⟩

end Init

end PhysicalFrameAllocator

end ArcadiaOs.Memory
