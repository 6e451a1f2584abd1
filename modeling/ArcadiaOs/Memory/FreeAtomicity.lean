import ArcadiaOs.Memory.Accounting

/-!
What `free_frames` promises: it frees every frame of its range or none.  The range test and the two
loops use the wrapped sum, the counter uses the count itself, and the test of the bits is skipped
while validation is off, so the promise depends on the range and on the bits.
-/

namespace ArcadiaOs.Memory

open Lib

namespace PhysicalFrameAllocator

/-- The frames that a call names, before any sum wraps. -/
def Named (addr : PhysAddr) (count frame : Nat) : Prop :=
  addr.asU64 / frameSize ≤ frame ∧ frame < addr.asU64 / frameSize + count

/-- A successful call found every named frame reserved, freed it and counted it; a refused one
changed none of the three. -/
structure AllOrNothing (pmm : PhysicalFrameAllocator) (addr : PhysAddr) (count : Nat) : Prop where
  freed : (pmm.freeFrames addr count).1 = .ok () →
    (∀ frame, Named addr count frame → pmm.isFrameReserved frame = true ∧
      (pmm.freeFrames addr count).2.isFrameReserved frame = false) ∧
    (pmm.freeFrames addr count).2.allocatedFrames + count = pmm.allocatedFrames
  unchanged : ∀ error, (pmm.freeFrames addr count).1 = .error error →
    (pmm.freeFrames addr count).2.bitmap = pmm.bitmap ∧
      (pmm.freeFrames addr count).2.nextFree = pmm.nextFree ∧
      (pmm.freeFrames addr count).2.allocatedFrames = pmm.allocatedFrames

/-- The wrapped end lies behind the tracked frames, or the end does not wrap and the bits are
tested or all set. -/
def Freeable (pmm : PhysicalFrameAllocator) (addr : PhysAddr) (count : Nat) : Prop :=
  pmm.totalFrames < wrap64 (addr.asU64 / frameSize + count) ∨
    (addr.asU64 / frameSize + count < 2 ^ 64 ∧
      (pmm.validationEnabled = true ∨
        ∀ frame, Named addr count frame → pmm.isFrameReserved frame = true))

theorem allocatedFrames_countInvalidFree (pmm : PhysicalFrameAllocator) :
    pmm.countInvalidFree.allocatedFrames = pmm.allocatedFrames := by
  unfold countInvalidFree
  split <;> rfl

theorem allocatedFrames_countDoubleFree (pmm : PhysicalFrameAllocator) :
    pmm.countDoubleFree.allocatedFrames = pmm.allocatedFrames := by
  unfold countDoubleFree
  split <;> rfl

variable {pmm : PhysicalFrameAllocator} {addr : PhysAddr} {count : Nat}

theorem freeFrames_unchanged {error : PmmError}
    (refused : (pmm.freeFrames addr count).1 = .error error) :
    (pmm.freeFrames addr count).2.bitmap = pmm.bitmap ∧
      (pmm.freeFrames addr count).2.nextFree = pmm.nextFree ∧
      (pmm.freeFrames addr count).2.allocatedFrames = pmm.allocatedFrames := by
  simp only [freeFrames] at refused ⊢
  split
  · have same := countInvalidFree_same pmm
    exact ⟨same.bitmap, same.nextFree, allocatedFrames_countInvalidFree pmm⟩
  · rename_i inside
    rw [if_neg inside] at refused
    split
    · have same := countDoubleFree_same pmm
      exact ⟨same.bitmap, same.nextFree, allocatedFrames_countDoubleFree pmm⟩
    · rename_i tested
      rw [if_neg tested] at refused
      cases refused

theorem freeFrames_counter (success : (pmm.freeFrames addr count).1 = .ok ()) :
    (pmm.freeFrames addr count).2.allocatedFrames = wrappingSub pmm.allocatedFrames count := by
  simp only [freeFrames] at success ⊢
  split at success
  · cases success
  · rename_i inside
    rw [if_neg inside]
    split at success
    · cases success
    · rename_i tested
      rw [if_neg tested]
      simp only [foldl_field allocatedFrames markFrameFree allocatedFrames_markFrameFree]

theorem freeFrames_bits (success : (pmm.freeFrames addr count).1 = .ok ()) (frame : Nat) :
    (pmm.freeFrames addr count).2.isFrameReserved frame =
      (pmm.isFrameReserved frame && !decide ((addr.asU64 / frameSize ≤ frame ∧
        frame < wrap64 (addr.asU64 / frameSize + count)) ∧ frame < pmm.totalFrames)) := by
  rcases pmm.freeFrames_spec addr count with ⟨_, failed, _⟩ | ⟨_, same⟩
  · rw [success] at failed
    nomatch failed
  · rw [same.reserved, (foldl_markFrameFree _ pmm).2]
    congr 3
    simp only [List.mem_range'_1, eq_iff_iff]
    omega

theorem freeFrames_refused_iff (pmm : PhysicalFrameAllocator) (addr : PhysAddr) (count : Nat) :
    (∃ error, (pmm.freeFrames addr count).1 = .error error) ↔
      pmm.totalFrames < wrap64 (addr.asU64 / frameSize + count) ∨
        (pmm.validationEnabled = true ∧ ∃ frame, addr.asU64 / frameSize ≤ frame ∧
          frame < wrap64 (addr.asU64 / frameSize + count) ∧
          pmm.isFrameReserved frame = false) := by
  simp only [freeFrames]
  by_cases outside : pmm.totalFrames < wrap64 (addr.asU64 / frameSize + count)
  · rw [if_pos outside]
    exact iff_of_true ⟨_, rfl⟩ (.inl outside)
  · rw [if_neg outside]
    simp only [outside, false_or]
    split
    · rename_i tested
      obtain ⟨validating, found⟩ := Bool.and_eq_true_iff.mp tested
      obtain ⟨frame, member, free⟩ := List.any_eq_true.mp found
      obtain ⟨lower, upper⟩ := List.mem_range'_1.mp member
      refine iff_of_true ⟨_, rfl⟩ ⟨validating, frame, lower, by omega, ?_⟩
      simpa using free
    · rename_i tested
      refine iff_of_false (by simp) ?_
      rintro ⟨validating, frame, lower, upper, free⟩
      refine tested (Bool.and_eq_true_iff.mpr ⟨validating, List.any_eq_true.mpr ⟨frame, ?_, ?_⟩⟩)
      · exact List.mem_range'_1.mpr ⟨lower, by omega⟩
      · simp [free]

theorem count_le_reservedCount (inside : addr.asU64 / frameSize + count ≤ pmm.totalFrames)
    (reserved : ∀ frame, Named addr count frame → pmm.isFrameReserved frame = true) :
    count ≤ pmm.reservedCount := by
  obtain ⟨total, freed⟩ := foldl_markFrameFree (List.range' (addr.asU64 / frameSize) count) pmm
  have lost := reservedCount_gain
    (Finset.Ico (addr.asU64 / frameSize) (addr.asU64 / frameSize + count)) total.symm
    (fun frame => by
      rw [freed frame]
      simp only [List.mem_range'_1, Finset.mem_Ico]
      by_cases named : Named addr count frame
      · simp [show addr.asU64 / frameSize ≤ frame from named.1,
          show frame < addr.asU64 / frameSize + count from named.2, reserved frame named]
      · simp [show ¬(addr.asU64 / frameSize ≤ frame ∧ frame < addr.asU64 / frameSize + count)
          from named])
    (fun frame member => by
      obtain ⟨lower, upper⟩ := Finset.mem_Ico.mp member
      have tracked : frame < pmm.totalFrames := by omega
      rw [freed frame]
      simp [List.mem_range'_1, lower, upper, tracked])
  rw [lost, Nat.card_Ico, Nat.add_sub_cancel_left]
  exact Nat.le_add_left _ _

/-- A call whose range wraps and ends among the tracked frames succeeds without freeing any. -/
theorem wrapped_not_atomic (bound : count < 2 ^ 64)
    (wraps : 2 ^ 64 ≤ addr.asU64 / frameSize + count)
    (inside : wrap64 (addr.asU64 / frameSize + count) ≤ pmm.totalFrames) :
    ¬pmm.AllOrNothing addr count := by
  intro atomic
  have low : addr.asU64 / frameSize < 2 ^ 52 :=
    Nat.lt_of_le_of_lt (Nat.div_le_self _ _) addr.inBounds
  have folded : wrap64 (addr.asU64 / frameSize + count) =
      addr.asU64 / frameSize + count - 2 ^ 64 := by
    rw [wrap64_eq]
    omega
  have success : (pmm.freeFrames addr count).1 = .ok () := by
    cases result : (pmm.freeFrames addr count).1 with
    | ok => rfl
    | error failure =>
        rcases (freeFrames_refused_iff pmm addr count).mp ⟨failure, result⟩ with
          far | ⟨_, frame, lower, upper, _⟩
        · omega
        · omega
  -- The last frame named lies behind every tracked one, and no call can free it.
  have named : Named addr count (addr.asU64 / frameSize + count - 1) := ⟨by omega, by omega⟩
  have small := pmm.totalFrames_small
  have behind : pmm.totalFrames ≤ addr.asU64 / frameSize + count - 1 := by omega
  have free := ((atomic.freed success).1 _ named).2
  rw [freeFrames_bits success, isFrameReserved_of_ge behind] at free
  simp only [Bool.true_and, Bool.not_eq_eq_eq_not, Bool.not_false, decide_eq_true_eq] at free
  omega

/-- `free_frames` frees all of its range or nothing exactly when the range is freeable. -/
theorem free_atomic_iff (pmm : PhysicalFrameAllocator)
    (counted : pmm.allocatedFrames = pmm.reservedCount) (addr : PhysAddr) (count : Nat)
    (bound : count < 2 ^ 64) :
    pmm.AllOrNothing addr count ↔ pmm.Freeable addr count := by
  have small := pmm.totalFrames_small
  by_cases far : pmm.totalFrames < wrap64 (addr.asU64 / frameSize + count)
  · refine iff_of_true ⟨fun success => ?_, fun _ => freeFrames_unchanged⟩ (.inl far)
    obtain ⟨error, failed⟩ := (freeFrames_refused_iff pmm addr count).mpr (.inl far)
    rw [success] at failed
    nomatch failed
  · have inside := Nat.le_of_not_lt far
    by_cases straight : addr.asU64 / frameSize + count < 2 ^ 64
    · have sum := wrap64_small straight
      constructor
      · intro atomic
        refine .inr ⟨straight, or_iff_not_imp_left.mpr fun trusting => ?_⟩
        cases result : (pmm.freeFrames addr count).1 with
        | ok => exact fun frame named => ((atomic.freed result).1 frame named).1
        | error failure =>
            rcases (freeFrames_refused_iff pmm addr count).mp ⟨failure, result⟩ with
              behind | ⟨validating, _⟩
            · exact absurd behind far
            · exact absurd validating trusting
      · intro freeable
        obtain ⟨_, checked⟩ := freeable.resolve_left far
        refine ⟨fun success => ?_, fun _ => freeFrames_unchanged⟩
        have reserved : ∀ frame, Named addr count frame → pmm.isFrameReserved frame = true := by
          rcases checked with validating | reserved
          · intro frame named
            by_contra free
            obtain ⟨error, failed⟩ := (freeFrames_refused_iff pmm addr count).mpr
              (.inr ⟨validating, frame, named.1, by rw [sum]; exact named.2,
                Bool.eq_false_iff.mpr free⟩)
            rw [success] at failed
            nomatch failed
          · exact reserved
        rw [sum] at inside
        refine ⟨fun frame named => ⟨reserved frame named, ?_⟩, ?_⟩
        · have tracked : frame < pmm.totalFrames := Nat.lt_of_lt_of_le named.2 inside
          rw [freeFrames_bits success, sum]
          simp [show addr.asU64 / frameSize ≤ frame from named.1,
            show frame < addr.asU64 / frameSize + count from named.2, tracked]
        · have covered := count_le_reservedCount inside reserved
          have bounded := pmm.reservedCount_le
          rw [freeFrames_counter success, counted, wrappingSub_small (by omega) covered]
          omega
    · refine iff_of_false (wrapped_not_atomic bound (Nat.le_of_not_lt straight) inside) ?_
      rintro (behind | ⟨fits, _⟩)
      · exact far behind
      · exact straight fits

def blockTaken : PhysicalFrameAllocator := ((new (fun _ => 0#8) 0x10000).allocateFrames 3).2

theorem free_atomic_taken :
    (blockTaken.freeFrames ⟨0x1000, by decide⟩ 2).1 = .ok () ∧
      blockTaken.AllOrNothing ⟨0x1000, by decide⟩ 2 := by
  have counted : blockTaken.allocatedFrames = blockTaken.reservedCount := by decide +kernel
  have atomic := free_atomic_iff blockTaken counted ⟨0x1000, by decide⟩ 2 (by decide)
  exact ⟨by decide +kernel, atomic.mpr (.inr ⟨by decide +kernel, .inl rfl⟩)⟩

/-- One frame up and as many as `usize` counts: the end wraps to frame zero. -/
theorem wrapped_free_not_atomic :
    (new (fun _ => 0#8) 0x10000).allocatedFrames = (new (fun _ => 0#8) 0x10000).reservedCount ∧
      ¬(new (fun _ => 0#8) 0x10000).AllOrNothing ⟨0x1000, by decide⟩ (2 ^ 64 - 1) := by
  refine ⟨by decide, wrapped_not_atomic (by decide) (by decide) ?_⟩
  rw [wrap64_eq]
  decide

end PhysicalFrameAllocator

end ArcadiaOs.Memory
