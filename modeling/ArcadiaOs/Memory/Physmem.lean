import ArcadiaOs.Lib.Machine
import ArcadiaOs.Memory.PhysmemCore
import Mathlib.Data.List.Range

/-!
What each operation of the frame allocator does to the bitmap and to `next_free`,
and the machine whose calls are the public operations.
-/

namespace ArcadiaOs.Memory

open Lib

namespace PhysicalFrameAllocator

theorem isFrameReserved_of_ge {pmm : PhysicalFrameAllocator} {frame : Nat}
    (outside : pmm.totalFrames ≤ frame) : pmm.isFrameReserved frame = true := by
  simp [isFrameReserved, outside]

theorem lt_of_free {pmm : PhysicalFrameAllocator} {frame : Nat}
    (free : pmm.isFrameReserved frame = false) : frame < pmm.totalFrames := by
  by_contra outside
  rw [isFrameReserved_of_ge (Nat.le_of_not_lt outside)] at free
  exact Bool.noConfusion free

theorem isFrameReserved_congr {left right : PhysicalFrameAllocator}
    (bitmap : left.bitmap = right.bitmap) (total : left.totalFrames = right.totalFrames)
    (frame : Nat) : left.isFrameReserved frame = right.isFrameReserved frame := by
  simp [isFrameReserved, bitmap, total]

theorem isFrameReserved_counted (pmm : PhysicalFrameAllocator) (allocated next frame : Nat) :
    ({ pmm with allocatedFrames := allocated, nextFree := next } :
      PhysicalFrameAllocator).isFrameReserved frame = pmm.isFrameReserved frame := rfl

@[simp] theorem totalFrames_markFrameReserved (pmm : PhysicalFrameAllocator) (frame : Nat) :
    (pmm.markFrameReserved frame).totalFrames = pmm.totalFrames := by
  unfold markFrameReserved
  split <;> rfl

@[simp] theorem nextFree_markFrameReserved (pmm : PhysicalFrameAllocator) (frame : Nat) :
    (pmm.markFrameReserved frame).nextFree = pmm.nextFree := by
  unfold markFrameReserved
  split <;> rfl

@[simp] theorem totalFrames_markFrameFree (pmm : PhysicalFrameAllocator) (frame : Nat) :
    (pmm.markFrameFree frame).totalFrames = pmm.totalFrames := by
  unfold markFrameFree
  split <;> rfl

theorem isFrameReserved_markFrameReserved (pmm : PhysicalFrameAllocator) (frame query : Nat) :
    (pmm.markFrameReserved frame).isFrameReserved query =
      (decide (query = frame) || pmm.isFrameReserved query) := by
  unfold markFrameReserved
  split
  · rename_i bound
    by_cases outside : pmm.totalFrames ≤ query
    · simp [isFrameReserved, outside]
    · simp [isFrameReserved, outside, Bitmap.test_set (by decide : 0 < 8)]
  · rename_i outside
    by_cases same : query = frame
    · subst query
      simp [isFrameReserved_of_ge (Nat.le_of_not_lt outside)]
    · simp [same]

theorem isFrameReserved_markFrameFree (pmm : PhysicalFrameAllocator) (frame query : Nat) :
    (pmm.markFrameFree frame).isFrameReserved query =
      (pmm.isFrameReserved query && !decide (query = frame ∧ query < pmm.totalFrames)) := by
  unfold markFrameFree
  split
  · rename_i bound
    by_cases outside : pmm.totalFrames ≤ query
    · simp [isFrameReserved, outside, Nat.not_lt.mpr outside]
    · have inside : query < pmm.totalFrames := Nat.lt_of_not_le outside
      simp [isFrameReserved, outside, inside, Bitmap.test_clear (by decide : 0 < 8), Bool.and_comm]
  · rename_i outside
    by_cases same : query = frame
    · subst query
      simp [outside]
    · simp [same]

theorem nextFree_markFrameFree (pmm : PhysicalFrameAllocator) (frame : Nat) :
    (pmm.markFrameFree frame).nextFree =
      if frame < pmm.totalFrames then min frame pmm.nextFree else pmm.nextFree := by
  unfold markFrameFree
  split
  · show (if frame < pmm.nextFree then frame else pmm.nextFree) = min frame pmm.nextFree
    split <;> omega
  · rfl

@[simp] theorem totalFrames_reserveFrame (pmm : PhysicalFrameAllocator) (frame : Nat) :
    (pmm.reserveFrame frame).totalFrames = pmm.totalFrames := by
  unfold reserveFrame
  split <;> simp

theorem isFrameReserved_reserveFrame (pmm : PhysicalFrameAllocator) (frame query : Nat) :
    (pmm.reserveFrame frame).isFrameReserved query =
      (decide (query = frame) || pmm.isFrameReserved query) := by
  unfold reserveFrame
  split
  · rename_i reserved
    by_cases same : query = frame
    · simp [same, reserved]
    · simp [same]
  · exact isFrameReserved_markFrameReserved pmm frame query

/-! Folds of the single-frame operations over a list of frames. -/

theorem foldl_reserve (operation : PhysicalFrameAllocator → Nat → PhysicalFrameAllocator)
    (total : ∀ pmm frame, (operation pmm frame).totalFrames = pmm.totalFrames)
    (reserve : ∀ pmm frame query, (operation pmm frame).isFrameReserved query =
      (decide (query = frame) || pmm.isFrameReserved query))
    (frames : List Nat) (pmm : PhysicalFrameAllocator) :
    (frames.foldl operation pmm).totalFrames = pmm.totalFrames ∧
      ∀ query, (frames.foldl operation pmm).isFrameReserved query =
        (decide (query ∈ frames) || pmm.isFrameReserved query) := by
  induction frames generalizing pmm with
  | nil => simp
  | cons frame rest ih =>
      obtain ⟨restTotal, restReserved⟩ := ih (operation pmm frame)
      refine ⟨restTotal.trans (total pmm frame), fun query => ?_⟩
      rw [List.foldl_cons, restReserved, reserve]
      by_cases same : query = frame <;> simp [same]

theorem foldl_release (operation : PhysicalFrameAllocator → Nat → PhysicalFrameAllocator)
    (total : ∀ pmm frame, (operation pmm frame).totalFrames = pmm.totalFrames)
    (release : ∀ pmm frame query, (operation pmm frame).isFrameReserved query =
      (pmm.isFrameReserved query && !decide (query = frame ∧ query < pmm.totalFrames)))
    (frames : List Nat) (pmm : PhysicalFrameAllocator) :
    (frames.foldl operation pmm).totalFrames = pmm.totalFrames ∧
      ∀ query, (frames.foldl operation pmm).isFrameReserved query =
        (pmm.isFrameReserved query && !decide (query ∈ frames ∧ query < pmm.totalFrames)) := by
  induction frames generalizing pmm with
  | nil => simp
  | cons frame rest ih =>
      obtain ⟨restTotal, restReserved⟩ := ih (operation pmm frame)
      refine ⟨restTotal.trans (total pmm frame), fun query => ?_⟩
      rw [List.foldl_cons, restReserved, release, total]
      by_cases same : query = frame
      · subst query
        by_cases inside : frame < pmm.totalFrames <;> simp [inside]
      · simp [same]

theorem foldl_markFrameFree (frames : List Nat) (pmm : PhysicalFrameAllocator) :
    (frames.foldl markFrameFree pmm).totalFrames = pmm.totalFrames ∧
      ∀ query, (frames.foldl markFrameFree pmm).isFrameReserved query =
        (pmm.isFrameReserved query && !decide (query ∈ frames ∧ query < pmm.totalFrames)) :=
  foldl_release markFrameFree totalFrames_markFrameFree isFrameReserved_markFrameFree frames pmm

/-! The forward scan. -/

theorem skipReserved_spec (pmm : PhysicalFrameAllocator) (turns frame : Nat) :
    frame ≤ pmm.skipReserved turns frame ∧ pmm.skipReserved turns frame ≤ frame + turns ∧
      (∀ query, frame ≤ query → query < pmm.skipReserved turns frame →
        pmm.isFrameReserved query = true) ∧
      (pmm.skipReserved turns frame < frame + turns →
        pmm.isFrameReserved (pmm.skipReserved turns frame) = false) := by
  induction turns generalizing frame with
  | zero =>
      refine ⟨Nat.le_refl _, Nat.le_refl _, ?_, ?_⟩
      · intro query lower upper
        simp only [skipReserved] at upper
        omega
      · simp [skipReserved]
  | succ turns ih =>
      simp only [skipReserved]
      by_cases reserved : pmm.isFrameReserved frame = true
      · obtain ⟨lower, upper, passed, stopped⟩ := ih (frame + 1)
        simp only [reserved, if_true]
        refine ⟨by omega, by omega, ?_, fun early => stopped (by omega)⟩
        intro query above below
        by_cases first : query = frame
        · rw [first]
          exact reserved
        · exact passed query (by omega) below
      · simp only [reserved, Bool.false_eq_true, if_false]
        refine ⟨Nat.le_refl _, by omega, ?_, fun _ => trivial⟩
        intro query above below
        omega

@[simp] theorem totalFrames_advanceNextFree (pmm : PhysicalFrameAllocator) :
    pmm.advanceNextFree.totalFrames = pmm.totalFrames := rfl

@[simp] theorem isFrameReserved_advanceNextFree (pmm : PhysicalFrameAllocator) (frame : Nat) :
    pmm.advanceNextFree.isFrameReserved frame = pmm.isFrameReserved frame := rfl

/-- `next_free` is the frame count or the index of a free frame. -/
structure NextFreeSound (pmm : PhysicalFrameAllocator) : Prop where
  bound : pmm.nextFree ≤ pmm.totalFrames
  free : pmm.nextFree < pmm.totalFrames → pmm.isFrameReserved pmm.nextFree = false

/-- No free frame lies below `next_free`. -/
def NextFreeLowest (pmm : PhysicalFrameAllocator) : Prop :=
  ∀ frame, frame < pmm.nextFree → pmm.isFrameReserved frame = true

theorem advanceNextFree_sound (pmm : PhysicalFrameAllocator)
    (bound : pmm.nextFree ≤ pmm.totalFrames) : pmm.advanceNextFree.NextFreeSound := by
  obtain ⟨_, upper, _, stopped⟩ :=
    pmm.skipReserved_spec (pmm.totalFrames - pmm.nextFree) pmm.nextFree
  constructor
  · simp only [advanceNextFree]
    omega
  · intro below
    rw [isFrameReserved_advanceNextFree]
    simp only [advanceNextFree] at below ⊢
    exact stopped (by omega)

theorem advanceNextFree_lowest (pmm : PhysicalFrameAllocator)
    (below : ∀ frame, frame < pmm.nextFree → pmm.isFrameReserved frame = true) :
    pmm.advanceNextFree.NextFreeLowest := by
  obtain ⟨_, _, passed, _⟩ :=
    pmm.skipReserved_spec (pmm.totalFrames - pmm.nextFree) pmm.nextFree
  intro frame smaller
  by_cases first : frame < pmm.nextFree
  · exact below frame first
  · exact passed frame (by omega) smaller

theorem le_nextFree_advance (pmm : PhysicalFrameAllocator) :
    pmm.nextFree ≤ pmm.advanceNextFree.nextFree :=
  (pmm.skipReserved_spec (pmm.totalFrames - pmm.nextFree) pmm.nextFree).1

theorem lt_nextFree_advance (pmm : PhysicalFrameAllocator) (bound : pmm.nextFree < pmm.totalFrames)
    (reserved : pmm.isFrameReserved pmm.nextFree = true) :
    pmm.nextFree < pmm.advanceNextFree.nextFree := by
  refine Nat.lt_of_le_of_ne pmm.le_nextFree_advance fun same => ?_
  have free := (pmm.advanceNextFree_sound (Nat.le_of_lt bound)).free
  rw [isFrameReserved_advanceNextFree, totalFrames_advanceNextFree, ← same] at free
  rw [free bound] at reserved
  exact Bool.noConfusion reserved

theorem recalculateNextFree_sound (pmm : PhysicalFrameAllocator) :
    pmm.recalculateNextFree.NextFreeSound :=
  advanceNextFree_sound _ (Nat.zero_le _)

theorem recalculateNextFree_lowest (pmm : PhysicalFrameAllocator) :
    pmm.recalculateNextFree.NextFreeLowest :=
  advanceNextFree_lowest _ (fun frame below => absurd below (Nat.not_lt_zero frame))

@[simp] theorem isFrameReserved_recalculateNextFree (pmm : PhysicalFrameAllocator) (frame : Nat) :
    pmm.recalculateNextFree.isFrameReserved frame = pmm.isFrameReserved frame := rfl

def FreeBlock (pmm : PhysicalFrameAllocator) (start count : Nat) : Prop :=
  ∀ offset, offset < count → pmm.isFrameReserved (start + offset) = false

theorem FreeBlock.bound {pmm : PhysicalFrameAllocator} {start count : Nat}
    (block : pmm.FreeBlock start count) (positive : 0 < count) :
    start + count ≤ pmm.totalFrames := by
  have last := lt_of_free (block (count - 1) (by omega))
  omega

theorem reservedOffset_none {pmm : PhysicalFrameAllocator} {start count : Nat} :
    pmm.reservedOffset start count = none ↔ pmm.FreeBlock start count := by
  simp [reservedOffset, FreeBlock, List.find?_eq_none]

theorem reservedOffset_some {pmm : PhysicalFrameAllocator} {start count offset : Nat}
    (found : pmm.reservedOffset start count = some offset) :
    offset < count ∧ pmm.isFrameReserved (start + offset) = true := by
  have member := List.mem_of_find?_eq_some found
  have reserved := List.find?_some found
  exact ⟨List.mem_range.mp member, reserved⟩

theorem findBlock_free {pmm : PhysicalFrameAllocator} {count turns start found : Nat}
    (search : pmm.findBlock count turns start = some found) :
    start ≤ found ∧ pmm.FreeBlock found count := by
  induction turns generalizing start with
  | zero => simp [findBlock] at search
  | succ turns ih =>
      simp only [findBlock] at search
      split at search
      · split at search
        · obtain ⟨lower, block⟩ := ih search
          exact ⟨by omega, block⟩
        · rename_i none
          simp only [Option.some.injEq] at search
          subst found
          exact ⟨Nat.le_refl _, reservedOffset_none.mp none⟩
      · simp at search

theorem findBlock_complete {pmm : PhysicalFrameAllocator} {count turns start block : Nat}
    (positive : 0 < count) (enough : pmm.totalFrames < start + turns) (behind : start ≤ block)
    (free : pmm.FreeBlock block count) : (pmm.findBlock count turns start).isSome := by
  have blockBound := free.bound positive
  induction turns generalizing start with
  | zero => omega
  | succ turns ih =>
      simp only [findBlock]
      have fits : start + count ≤ pmm.totalFrames := by omega
      simp only [fits, if_true]
      split
      · rename_i offset found
        obtain ⟨offsetBound, reserved⟩ := reservedOffset_some found
        apply ih
        · omega
        · by_contra crossing
          -- The reserved frame lies inside the block that is supposed to be free.
          have inside := free (start + offset - block) (by omega)
          rw [show block + (start + offset - block) = start + offset by omega] at inside
          rw [inside] at reserved
          exact Bool.noConfusion reserved
      · rfl

/-! What one call does to the tracked frames. -/

@[simp] theorem bitmap_countAllocationFailure (pmm : PhysicalFrameAllocator) :
    pmm.countAllocationFailure.bitmap = pmm.bitmap ∧
      pmm.countAllocationFailure.totalFrames = pmm.totalFrames ∧
      pmm.countAllocationFailure.nextFree = pmm.nextFree := by
  unfold countAllocationFailure
  split <;> exact ⟨rfl, rfl, rfl⟩

@[simp] theorem bitmap_countInvalidFree (pmm : PhysicalFrameAllocator) :
    pmm.countInvalidFree.bitmap = pmm.bitmap ∧
      pmm.countInvalidFree.totalFrames = pmm.totalFrames ∧
      pmm.countInvalidFree.nextFree = pmm.nextFree := by
  unfold countInvalidFree
  split <;> exact ⟨rfl, rfl, rfl⟩

@[simp] theorem bitmap_countDoubleFree (pmm : PhysicalFrameAllocator) :
    pmm.countDoubleFree.bitmap = pmm.bitmap ∧
      pmm.countDoubleFree.totalFrames = pmm.totalFrames ∧
      pmm.countDoubleFree.nextFree = pmm.nextFree := by
  unfold countDoubleFree
  split <;> exact ⟨rfl, rfl, rfl⟩

structure SameFrames (left right : PhysicalFrameAllocator) : Prop where
  bitmap : left.bitmap = right.bitmap
  totalFrames : left.totalFrames = right.totalFrames
  nextFree : left.nextFree = right.nextFree

theorem SameFrames.reserved {left right : PhysicalFrameAllocator} (same : SameFrames left right)
    (frame : Nat) : left.isFrameReserved frame = right.isFrameReserved frame :=
  isFrameReserved_congr same.bitmap same.totalFrames frame

theorem countAllocationFailure_same (pmm : PhysicalFrameAllocator) :
    SameFrames pmm.countAllocationFailure pmm :=
  ⟨pmm.bitmap_countAllocationFailure.1, pmm.bitmap_countAllocationFailure.2.1,
    pmm.bitmap_countAllocationFailure.2.2⟩

theorem countInvalidFree_same (pmm : PhysicalFrameAllocator) :
    SameFrames pmm.countInvalidFree pmm :=
  ⟨pmm.bitmap_countInvalidFree.1, pmm.bitmap_countInvalidFree.2.1,
    pmm.bitmap_countInvalidFree.2.2⟩

theorem countDoubleFree_same (pmm : PhysicalFrameAllocator) :
    SameFrames pmm.countDoubleFree pmm :=
  ⟨pmm.bitmap_countDoubleFree.1, pmm.bitmap_countDoubleFree.2.1,
    pmm.bitmap_countDoubleFree.2.2⟩

theorem allocatedFrames_same (pmm : PhysicalFrameAllocator) (allocated : Nat) :
    SameFrames { pmm with allocatedFrames := allocated } pmm :=
  ⟨rfl, rfl, rfl⟩

theorem reserveRange_spec (pmm : PhysicalFrameAllocator) (start stop : PhysAddr) :
    (pmm.reserveRange start stop).totalFrames = pmm.totalFrames ∧
      (∀ frame, (pmm.reserveRange start stop).isFrameReserved frame =
        (decide (start.asU64 / frameSize ≤ frame ∧
          frame < (stop.asU64 + frameSize - 1) / frameSize) || pmm.isFrameReserved frame)) ∧
      (pmm.reserveRange start stop).NextFreeSound ∧
      (pmm.reserveRange start stop).NextFreeLowest := by
  obtain ⟨total, reserved⟩ := foldl_reserve reserveFrame totalFrames_reserveFrame
    isFrameReserved_reserveFrame
    (List.range' (start.asU64 / frameSize)
      (min ((stop.asU64 + frameSize - 1) / frameSize) pmm.totalFrames - start.asU64 / frameSize))
    pmm
  refine ⟨total, fun frame => ?_, recalculateNextFree_sound _, recalculateNextFree_lowest _⟩
  rw [reserveRange, isFrameReserved_recalculateNextFree, reserved]
  by_cases outside : pmm.totalFrames ≤ frame
  · simp [isFrameReserved_of_ge outside]
  · congr 1
    simp only [List.mem_range'_1, decide_eq_decide]
    omega

theorem allocateFrame_spec (pmm : PhysicalFrameAllocator) :
    (pmm.totalFrames ≤ pmm.nextFree ∧ pmm.allocateFrame.1 = none ∧
      SameFrames pmm.allocateFrame.2 pmm) ∨
    (pmm.nextFree < pmm.totalFrames ∧
      (∃ addr, pmm.allocateFrame.1 = some addr ∧ addr.asU64 = pmm.nextFree * frameSize) ∧
      pmm.allocateFrame.2.totalFrames = pmm.totalFrames ∧
      (∀ frame, pmm.allocateFrame.2.isFrameReserved frame =
        (decide (frame = pmm.nextFree) || pmm.isFrameReserved frame)) ∧
      pmm.nextFree < pmm.allocateFrame.2.nextFree ∧
      pmm.allocateFrame.2.NextFreeSound ∧
      (pmm.NextFreeLowest → pmm.allocateFrame.2.NextFreeLowest)) := by
  unfold allocateFrame
  split
  · rename_i full
    exact .inl ⟨full, rfl, countAllocationFailure_same pmm⟩
  · rename_i available
    refine .inr ⟨Nat.lt_of_not_le available, ⟨_, rfl, rfl⟩,
      totalFrames_markFrameReserved pmm _, fun frame => ?_, ?_, ?_, fun lowest => ?_⟩
    · rw [← isFrameReserved_markFrameReserved]
      exact isFrameReserved_counted _ _ _ frame
    · have next := nextFree_markFrameReserved pmm pmm.nextFree
      have total := totalFrames_markFrameReserved pmm pmm.nextFree
      have marked : (pmm.markFrameReserved pmm.nextFree).isFrameReserved pmm.nextFree = true := by
        simp [isFrameReserved_markFrameReserved]
      refine Nat.lt_of_le_of_lt (Nat.le_of_eq next.symm) (lt_nextFree_advance
        { pmm.markFrameReserved pmm.nextFree with
          allocatedFrames := wrap64 ((pmm.markFrameReserved pmm.nextFree).allocatedFrames + 1) }
        ?_ ?_)
      · simp only [next, total]
        omega
      · refine (isFrameReserved_counted _ _ _ _).trans ?_
        rw [next, marked]
    · apply advanceNextFree_sound
      simp only [nextFree_markFrameReserved, totalFrames_markFrameReserved]
      omega
    · apply advanceNextFree_lowest
      intro frame below
      simp only [nextFree_markFrameReserved] at below
      refine (isFrameReserved_counted _ _ _ frame).trans ?_
      rw [isFrameReserved_markFrameReserved, lowest frame below, Bool.or_true]

theorem takeBlock_spec (pmm : PhysicalFrameAllocator) (start count : Nat)
    (bound : start + count ≤ pmm.totalFrames) :
    (pmm.takeBlock start count).totalFrames = pmm.totalFrames ∧
      (∀ frame, (pmm.takeBlock start count).isFrameReserved frame =
        (decide (start ≤ frame ∧ frame < start + count) || pmm.isFrameReserved frame)) ∧
      (pmm.takeBlock start count).NextFreeSound ∧
      ((∀ frame, frame < start → pmm.isFrameReserved frame = true) →
        (pmm.takeBlock start count).NextFreeLowest) := by
  obtain ⟨total, reserved⟩ := foldl_reserve markFrameReserved totalFrames_markFrameReserved
    isFrameReserved_markFrameReserved (List.range' start count) pmm
  have marks (frame : Nat) : (pmm.takeBlock start count).isFrameReserved frame =
      (decide (start ≤ frame ∧ frame < start + count) || pmm.isFrameReserved frame) := by
    rw [takeBlock, isFrameReserved_advanceNextFree]
    refine (isFrameReserved_counted _ _ _ frame).trans ?_
    rw [reserved frame]
    simp only [List.mem_range'_1]
  refine ⟨total, marks, ?_, fun lowest => ?_⟩
  · apply advanceNextFree_sound
    show start + count ≤ ((List.range' start count).foldl markFrameReserved pmm).totalFrames
    rw [total]
    exact bound
  · apply advanceNextFree_lowest
    intro frame below
    refine (isFrameReserved_counted _ _ _ frame).trans ?_
    rw [reserved frame]
    by_cases before : frame < start
    · rw [lowest frame before, Bool.or_true]
    · have inside : frame ∈ List.range' start count := List.mem_range'_1.mpr ⟨by omega, below⟩
      rw [decide_eq_true inside, Bool.true_or]

theorem allocateFrames_spec (pmm : PhysicalFrameAllocator) (count : Nat) :
    ((pmm.allocateFrames count).1 = none ∧ SameFrames (pmm.allocateFrames count).2 pmm ∧
      (0 < count → ∀ start, pmm.nextFree ≤ start → ¬pmm.FreeBlock start count)) ∨
    (∃ start addr, 0 < count ∧ pmm.nextFree ≤ start ∧ pmm.FreeBlock start count ∧
      pmm.findBlock count (pmm.totalFrames + 1) pmm.nextFree = some start ∧
      (pmm.allocateFrames count).1 = some addr ∧ addr.asU64 = start * frameSize ∧
      (pmm.allocateFrames count).2 = pmm.takeBlock start count) := by
  unfold allocateFrames
  split
  · rename_i zero
    exact .inl ⟨rfl, ⟨rfl, rfl, rfl⟩, fun positive => absurd zero (by omega)⟩
  · rename_i nonzero
    split
    · rename_i tooLarge
      refine .inl ⟨rfl, countAllocationFailure_same pmm, fun positive start _ block => ?_⟩
      have := block.bound positive
      omega
    · split
      · rename_i start search
        obtain ⟨lower, block⟩ := findBlock_free search
        exact .inr ⟨start, _, Nat.pos_of_ne_zero nonzero, lower, block, search, rfl, rfl, rfl⟩
      · rename_i search
        refine .inl ⟨rfl, countAllocationFailure_same pmm, fun positive start behind block => ?_⟩
        have enough : pmm.totalFrames < pmm.nextFree + (pmm.totalFrames + 1) := by omega
        have found := findBlock_complete positive enough behind block
        rw [search] at found
        exact Bool.noConfusion found

theorem markFrameFree_sound {pmm : PhysicalFrameAllocator} (sound : pmm.NextFreeSound)
    (frame : Nat) : (pmm.markFrameFree frame).NextFreeSound := by
  by_cases inside : frame < pmm.totalFrames
  · have next : (pmm.markFrameFree frame).nextFree = min frame pmm.nextFree := by
      rw [nextFree_markFrameFree, if_pos inside]
    constructor
    · rw [next, totalFrames_markFrameFree]
      omega
    · intro below
      rw [next, totalFrames_markFrameFree] at below
      rw [next, isFrameReserved_markFrameFree]
      by_cases lower : frame ≤ pmm.nextFree
      · simp [Nat.min_eq_left lower, inside]
      · rw [Nat.min_eq_right (by omega)] at below ⊢
        rw [sound.free below, Bool.false_and]
  · have unchanged : pmm.markFrameFree frame = pmm := by
      rw [markFrameFree, if_neg inside]
    rw [unchanged]
    exact sound

theorem markFrameFree_lowest {pmm : PhysicalFrameAllocator} (lowest : pmm.NextFreeLowest)
    (frame : Nat) : (pmm.markFrameFree frame).NextFreeLowest := by
  intro query below
  rw [nextFree_markFrameFree] at below
  rw [isFrameReserved_markFrameFree]
  split at below
  · rw [lowest query (by omega)]
    have different : query ≠ frame := by omega
    simp [different]
  · rename_i outside
    rw [lowest query below]
    have different : ¬(query = frame ∧ query < pmm.totalFrames) := by
      rintro ⟨rfl, inside⟩
      exact outside inside
    simp [different]

theorem foldl_markFrameFree_keeps (property : PhysicalFrameAllocator → Prop)
    (kept : ∀ pmm frame, property pmm → property (pmm.markFrameFree frame))
    (frames : List Nat) {pmm : PhysicalFrameAllocator} (initially : property pmm) :
    property (frames.foldl markFrameFree pmm) := by
  induction frames generalizing pmm with
  | nil => exact initially
  | cons frame rest ih => exact ih (kept pmm frame initially)

theorem NextFreeSound.congr {left right : PhysicalFrameAllocator} (same : SameFrames left right)
    (sound : right.NextFreeSound) : left.NextFreeSound := by
  constructor
  · rw [same.nextFree, same.totalFrames]
    exact sound.bound
  · intro below
    rw [same.reserved, same.nextFree]
    rw [same.nextFree, same.totalFrames] at below
    exact sound.free below

theorem NextFreeLowest.congr {left right : PhysicalFrameAllocator} (same : SameFrames left right)
    (lowest : right.NextFreeLowest) : left.NextFreeLowest := by
  intro frame below
  rw [same.reserved]
  rw [same.nextFree] at below
  exact lowest frame below

theorem freeFrame_spec (pmm : PhysicalFrameAllocator) (addr : PhysAddr) :
    (∃ error, (pmm.freeFrame addr).1 = .error error ∧ SameFrames (pmm.freeFrame addr).2 pmm) ∨
    ((pmm.freeFrame addr).1 = .ok () ∧ addr.asU64 / frameSize < pmm.totalFrames ∧
      pmm.isFrameReserved (addr.asU64 / frameSize) = true ∧
      SameFrames (pmm.freeFrame addr).2 (pmm.markFrameFree (addr.asU64 / frameSize))) := by
  simp only [freeFrame]
  split
  · exact .inl ⟨_, rfl, countInvalidFree_same pmm⟩
  · rename_i inside
    split
    · exact .inl ⟨_, rfl, countDoubleFree_same pmm⟩
    · rename_i reserved
      exact .inr ⟨rfl, Nat.lt_of_not_le inside, by simpa using reserved, allocatedFrames_same _ _⟩

theorem freeFrames_spec (pmm : PhysicalFrameAllocator) (addr : PhysAddr) (count : Nat) :
    (∃ error, (pmm.freeFrames addr count).1 = .error error ∧
      SameFrames (pmm.freeFrames addr count).2 pmm) ∨
    ((pmm.freeFrames addr count).1 = .ok () ∧
      SameFrames (pmm.freeFrames addr count).2
        ((List.range' (addr.asU64 / frameSize)
          (wrap64 (addr.asU64 / frameSize + count) - addr.asU64 / frameSize)).foldl
            markFrameFree pmm)) := by
  simp only [freeFrames]
  split
  · exact .inl ⟨_, rfl, countInvalidFree_same pmm⟩
  · split
    · exact .inl ⟨_, rfl, countDoubleFree_same pmm⟩
    · exact .inr ⟨rfl, allocatedFrames_same _ _⟩

/-! The allocator as a machine. -/

inductive PmmCall
  | reserveRange (start stop : PhysAddr)
  | allocateFrame
  | allocateFrames (count : Nat)
  | freeFrame (addr : PhysAddr)
  | freeFrames (addr : PhysAddr) (count : Nat)

inductive PmmAnswer
  | granted (addr : Option PhysAddr)
  | done (result : PmmResult)

def step (pmm : PhysicalFrameAllocator) : PmmCall → PmmAnswer × PhysicalFrameAllocator
  | .reserveRange start stop => (.done (.ok ()), pmm.reserveRange start stop)
  | .allocateFrame => (.granted pmm.allocateFrame.1, pmm.allocateFrame.2)
  | .allocateFrames count => (.granted (pmm.allocateFrames count).1, (pmm.allocateFrames count).2)
  | .freeFrame addr => (.done (pmm.freeFrame addr).1, (pmm.freeFrame addr).2)
  | .freeFrames addr count => (.done (pmm.freeFrames addr count).1, (pmm.freeFrames addr count).2)

def machine : Machine PhysicalFrameAllocator PmmCall PmmAnswer := ⟨step⟩

def Grants : PmmCall → PmmAnswer → Nat → Prop
  | .allocateFrame, .granted (some addr), frame => frame = addr.asU64 / frameSize
  | .allocateFrames count, .granted (some addr), frame =>
      addr.asU64 / frameSize ≤ frame ∧ frame < addr.asU64 / frameSize + count
  | _, _, _ => False

def Frees : PmmCall → PmmAnswer → Nat → Prop
  | .freeFrame addr, .done (.ok ()), frame => frame = addr.asU64 / frameSize
  | .freeFrames addr count, .done (.ok ()), frame =>
      addr.asU64 / frameSize ≤ frame ∧ frame < addr.asU64 / frameSize + count
  | _, _, _ => False

theorem step_sound (pmm : PhysicalFrameAllocator) (call : PmmCall) (sound : pmm.NextFreeSound) :
    (pmm.step call).2.NextFreeSound := by
  cases call with
  | reserveRange start stop => exact (pmm.reserveRange_spec start stop).2.2.1
  | allocateFrame =>
      rcases pmm.allocateFrame_spec with ⟨_, _, same⟩ | ⟨_, _, _, _, _, next, _⟩
      · exact sound.congr same
      · exact next
  | allocateFrames count =>
      rcases pmm.allocateFrames_spec count with ⟨_, same, _⟩ |
        ⟨start, _, positive, _, block, _, _, _, taken⟩
      · exact sound.congr same
      · simp only [step, taken]
        exact (pmm.takeBlock_spec start count (block.bound positive)).2.2.1
  | freeFrame addr =>
      rcases pmm.freeFrame_spec addr with ⟨_, _, same⟩ | ⟨_, _, _, same⟩
      · exact sound.congr same
      · exact (markFrameFree_sound sound _).congr same
  | freeFrames addr count =>
      rcases pmm.freeFrames_spec addr count with ⟨_, _, same⟩ | ⟨_, same⟩
      · exact sound.congr same
      · exact (foldl_markFrameFree_keeps NextFreeSound
          (fun _ frame kept => markFrameFree_sound kept frame) _ sound).congr same

@[simp] theorem totalFrames_step (pmm : PhysicalFrameAllocator) (call : PmmCall) :
    (pmm.step call).2.totalFrames = pmm.totalFrames := by
  cases call with
  | reserveRange start stop => exact (pmm.reserveRange_spec start stop).1
  | allocateFrame =>
      rcases pmm.allocateFrame_spec with ⟨_, _, same⟩ | ⟨_, _, total, _⟩
      · exact same.totalFrames
      · exact total
  | allocateFrames count =>
      rcases pmm.allocateFrames_spec count with ⟨_, same, _⟩ |
        ⟨start, _, positive, _, block, _, _, _, taken⟩
      · exact same.totalFrames
      · simp only [step, taken]
        exact (pmm.takeBlock_spec start count (block.bound positive)).1
  | freeFrame addr =>
      rcases pmm.freeFrame_spec addr with ⟨_, _, same⟩ | ⟨_, _, _, same⟩
      · exact same.totalFrames
      · exact same.totalFrames.trans (totalFrames_markFrameFree _ _)
  | freeFrames addr count =>
      rcases pmm.freeFrames_spec addr count with ⟨_, _, same⟩ | ⟨_, same⟩
      · exact same.totalFrames
      · exact same.totalFrames.trans (foldl_markFrameFree _ pmm).1

theorem new_free (bitmap : Bitmap 8) (totalMemoryBytes frame : Nat)
    (inside : frame < (new bitmap totalMemoryBytes).totalFrames) :
    (new bitmap totalMemoryBytes).isFrameReserved frame = false := by
  have cleared : (new bitmap totalMemoryBytes).bitmap (frame / 8) = 0#8 := by
    have word : frame / 8 < ((new bitmap totalMemoryBytes).totalFrames + 7) / 8 := by omega
    exact if_pos word
  rw [isFrameReserved, if_neg (Nat.not_le_of_lt inside), Bitmap.test, cleared]
  simp

theorem new_sound (bitmap : Bitmap 8) (totalMemoryBytes : Nat) :
    (new bitmap totalMemoryBytes).NextFreeSound :=
  ⟨Nat.zero_le _, fun below => new_free bitmap totalMemoryBytes _ below⟩

theorem new_lowest (bitmap : Bitmap 8) (totalMemoryBytes : Nat) :
    (new bitmap totalMemoryBytes).NextFreeLowest :=
  fun frame below => absurd below (Nat.not_lt_zero frame)

end PhysicalFrameAllocator

end ArcadiaOs.Memory
