import ArcadiaOs.Memory.Physmem
import ArcadiaOs.Memory.PhysmemManagerCore
import Mathlib.Order.Interval.Finset.Nat

/-!
The counter of reserved frames beside the bitmap.  The counter is kept modulo 2^64, so it is
compared with the set bits up to an excess; the operations of the allocator keep the
excess, and `validate_bitmap` sees it.
-/

namespace ArcadiaOs.Memory

open Lib

theorem wrap64_small {value : Nat} (bound : value < 2 ^ 64) : wrap64 value = value := by
  rw [wrap64_eq, Nat.mod_eq_of_lt bound]

theorem wrap64_add (left right : Nat) : wrap64 (wrap64 left + right) = wrap64 (left + right) := by
  simp only [wrap64_eq, Nat.mod_add_mod]

theorem wrappingSub_wrap64 (left right : Nat) :
    wrappingSub (wrap64 (left + right)) right = wrap64 left := by
  simp only [wrappingSub, wrap64_eq]
  omega

theorem wrappingSub_small {left right : Nat} (bound : left < 2 ^ 64) (smaller : right ≤ left) :
    wrappingSub left right = left - right := by
  simp only [wrappingSub, wrap64_eq]
  omega

namespace PhysicalFrameAllocator

def reservedCount (pmm : PhysicalFrameAllocator) : Nat :=
  Nat.count (fun frame => pmm.isFrameReserved frame = true) pmm.totalFrames

/-- The bits of the last byte that stand for no frame are clear. -/
def Padded (pmm : PhysicalFrameAllocator) : Prop :=
  ∀ bit, pmm.totalFrames ≤ bit → bit < (pmm.totalFrames + 7) / 8 * 8 → pmm.bitmap.test bit = false

/-- The counter is ahead of the set bits by `excess`, up to its wrap at 2^64. -/
structure Accounts (pmm : PhysicalFrameAllocator) (excess : Nat) : Prop where
  counted : pmm.allocatedFrames = wrap64 (pmm.reservedCount + excess)
  padded : pmm.Padded

theorem reservedCount_le (pmm : PhysicalFrameAllocator) : pmm.reservedCount ≤ pmm.totalFrames :=
  Nat.count_le _

theorem totalFrames_small (pmm : PhysicalFrameAllocator) : pmm.totalFrames < 2 ^ 64 :=
  Nat.lt_of_le_of_lt pmm.totalBound (by decide)

theorem reservedCount_congr {left right : PhysicalFrameAllocator}
    (total : left.totalFrames = right.totalFrames)
    (bits : ∀ frame, left.isFrameReserved frame = right.isFrameReserved frame) :
    left.reservedCount = right.reservedCount := by
  rw [reservedCount, reservedCount, total]
  apply count_congr
  intro frame _
  rw [bits frame]

theorem reservedCount_gain {before after : PhysicalFrameAllocator} (frames : Finset Nat)
    (total : after.totalFrames = before.totalFrames)
    (marks : ∀ frame, after.isFrameReserved frame =
      (decide (frame ∈ frames) || before.isFrameReserved frame))
    (fresh : ∀ frame ∈ frames, before.isFrameReserved frame = false) :
    after.reservedCount = before.reservedCount + frames.card := by
  rw [reservedCount, reservedCount, total]
  apply count_gain
  · intro frame _
    rw [marks frame, Bool.or_eq_true, decide_eq_true_eq]
  · intro frame member
    have free := fresh frame member
    exact ⟨lt_of_free free, Bool.eq_false_iff.mp free⟩

/-! What one operation does to the counter. -/

theorem Accounts.congr {left right : PhysicalFrameAllocator} {excess : Nat}
    (accounts : right.Accounts excess) (bitmap : left.bitmap = right.bitmap)
    (total : left.totalFrames = right.totalFrames)
    (counter : left.allocatedFrames = right.allocatedFrames) : left.Accounts excess := by
  constructor
  · rw [counter, accounts.counted, reservedCount_congr total (isFrameReserved_congr bitmap total)]
  · intro bit lower upper
    rw [total] at lower upper
    rw [bitmap]
    exact accounts.padded bit lower upper

theorem Accounts.advance {pmm : PhysicalFrameAllocator} {excess : Nat}
    (accounts : pmm.Accounts excess) : pmm.advanceNextFree.Accounts excess :=
  accounts.congr rfl rfl rfl

theorem Accounts.recalculate {pmm : PhysicalFrameAllocator} {excess : Nat}
    (accounts : pmm.Accounts excess) : pmm.recalculateNextFree.Accounts excess :=
  accounts.congr rfl rfl rfl

theorem Accounts.of_marked {marked : PhysicalFrameAllocator} {excess allocated next : Nat}
    (counted : allocated = wrap64 (marked.reservedCount + excess)) (padded : marked.Padded) :
    ({ marked with allocatedFrames := allocated, nextFree := next } :
      PhysicalFrameAllocator).Accounts excess :=
  ⟨counted, padded⟩

theorem Accounts.gain {before marked : PhysicalFrameAllocator} {excess : Nat} (next : Nat)
    (frames : Finset Nat) (accounts : before.Accounts excess)
    (total : marked.totalFrames = before.totalFrames)
    (marks : ∀ frame, marked.isFrameReserved frame =
      (decide (frame ∈ frames) || before.isFrameReserved frame))
    (fresh : ∀ frame ∈ frames, before.isFrameReserved frame = false)
    (counter : marked.allocatedFrames = before.allocatedFrames) (padded : marked.Padded) :
    ({ marked with
      allocatedFrames := wrap64 (marked.allocatedFrames + frames.card)
      nextFree := next } : PhysicalFrameAllocator).Accounts excess := by
  apply Accounts.of_marked _ padded
  have gained := reservedCount_gain frames total marks fresh
  rw [counter, accounts.counted, wrap64_add, gained, Nat.add_right_comm]

theorem Accounts.loss {before marked : PhysicalFrameAllocator} {excess : Nat} (frames : Finset Nat)
    (accounts : before.Accounts excess) (total : marked.totalFrames = before.totalFrames)
    (marks : ∀ frame, before.isFrameReserved frame =
      (decide (frame ∈ frames) || marked.isFrameReserved frame))
    (freed : ∀ frame ∈ frames, marked.isFrameReserved frame = false)
    (counter : marked.allocatedFrames = before.allocatedFrames) (padded : marked.Padded) :
    ({ marked with
      allocatedFrames := wrappingSub marked.allocatedFrames frames.card } :
        PhysicalFrameAllocator).Accounts excess := by
  apply Accounts.of_marked _ padded
  have lost := reservedCount_gain frames total.symm marks freed
  rw [counter, accounts.counted, lost, Nat.add_right_comm, wrappingSub_wrap64]

theorem Padded.markFrameReserved {pmm : PhysicalFrameAllocator} (padded : pmm.Padded)
    (frame : Nat) : (pmm.markFrameReserved frame).Padded := by
  intro bit lower upper
  rw [totalFrames_markFrameReserved] at lower upper
  unfold PhysicalFrameAllocator.markFrameReserved
  split
  · have other : bit ≠ frame := by omega
    simp [Bitmap.test_set (by decide : 0 < 8), other, padded bit lower upper]
  · exact padded bit lower upper

theorem Padded.markFrameFree {pmm : PhysicalFrameAllocator} (padded : pmm.Padded) (frame : Nat) :
    (pmm.markFrameFree frame).Padded := by
  intro bit lower upper
  rw [totalFrames_markFrameFree] at lower upper
  unfold PhysicalFrameAllocator.markFrameFree
  split
  · simp [Bitmap.test_clear (by decide : 0 < 8), padded bit lower upper]
  · exact padded bit lower upper

theorem allocatedFrames_markFrameReserved (pmm : PhysicalFrameAllocator) (frame : Nat) :
    (pmm.markFrameReserved frame).allocatedFrames = pmm.allocatedFrames := by
  unfold markFrameReserved
  split <;> rfl

theorem allocatedFrames_markFrameFree (pmm : PhysicalFrameAllocator) (frame : Nat) :
    (pmm.markFrameFree frame).allocatedFrames = pmm.allocatedFrames := by
  unfold markFrameFree
  split <;> rfl

theorem foldl_field {Field : Type} (field : PhysicalFrameAllocator → Field)
    (operation : PhysicalFrameAllocator → Nat → PhysicalFrameAllocator)
    (kept : ∀ pmm frame, field (operation pmm frame) = field pmm)
    (frames : List Nat) (pmm : PhysicalFrameAllocator) :
    field (frames.foldl operation pmm) = field pmm := by
  induction frames generalizing pmm with
  | nil => rfl
  | cons frame rest ih => exact (ih (operation pmm frame)).trans (kept pmm frame)

theorem reserveFrame_accounts {pmm : PhysicalFrameAllocator} {excess : Nat}
    (accounts : pmm.Accounts excess) (frame : Nat) : (pmm.reserveFrame frame).Accounts excess := by
  unfold reserveFrame
  by_cases reserved : pmm.isFrameReserved frame = true
  · rw [if_pos reserved]
    exact accounts
  · rw [if_neg reserved]
    refine accounts.gain _ {frame} (totalFrames_markFrameReserved pmm frame) ?_ ?_
      (allocatedFrames_markFrameReserved pmm frame) (accounts.padded.markFrameReserved frame)
    · intro query
      rw [isFrameReserved_markFrameReserved]
      simp
    · intro query member
      rw [Finset.mem_singleton.mp member]
      exact Bool.eq_false_iff.mpr reserved

/-! The calls. -/

variable {pmm : PhysicalFrameAllocator} {excess : Nat}

theorem reserveRange_accounts (accounts : pmm.Accounts excess) (start stop : PhysAddr) :
    (pmm.reserveRange start stop).Accounts excess := by
  have marked (frames : List Nat) : (frames.foldl reserveFrame pmm).Accounts excess :=
    List.foldlRecOn frames reserveFrame (motive := fun pmm => pmm.Accounts excess) accounts
      fun _ kept frame _ => reserveFrame_accounts kept frame
  exact (marked _).recalculate

theorem countAllocationFailure_accounts (accounts : pmm.Accounts excess) :
    pmm.countAllocationFailure.Accounts excess := by
  refine accounts.congr pmm.bitmap_countAllocationFailure.1 pmm.bitmap_countAllocationFailure.2.1 ?_
  unfold countAllocationFailure
  split <;> rfl

theorem countInvalidFree_accounts (accounts : pmm.Accounts excess) :
    pmm.countInvalidFree.Accounts excess := by
  refine accounts.congr pmm.bitmap_countInvalidFree.1 pmm.bitmap_countInvalidFree.2.1 ?_
  unfold countInvalidFree
  split <;> rfl

theorem countDoubleFree_accounts (accounts : pmm.Accounts excess) :
    pmm.countDoubleFree.Accounts excess := by
  refine accounts.congr pmm.bitmap_countDoubleFree.1 pmm.bitmap_countDoubleFree.2.1 ?_
  unfold countDoubleFree
  split <;> rfl

theorem allocateFrame_accounts (accounts : pmm.Accounts excess) (sound : pmm.NextFreeSound) :
    pmm.allocateFrame.2.Accounts excess := by
  unfold allocateFrame
  split
  · exact countAllocationFailure_accounts accounts
  · rename_i available
    apply Accounts.advance
    refine accounts.gain _ {pmm.nextFree} (totalFrames_markFrameReserved pmm pmm.nextFree) ?_ ?_
      (allocatedFrames_markFrameReserved pmm pmm.nextFree)
      (accounts.padded.markFrameReserved pmm.nextFree)
    · intro query
      rw [isFrameReserved_markFrameReserved]
      simp
    · intro query member
      rw [Finset.mem_singleton.mp member]
      exact sound.free (Nat.lt_of_not_le available)

theorem takeBlock_accounts (accounts : pmm.Accounts excess) {start count : Nat}
    (block : pmm.FreeBlock start count) : (pmm.takeBlock start count).Accounts excess := by
  obtain ⟨total, reserved⟩ := foldl_reserve markFrameReserved totalFrames_markFrameReserved
    isFrameReserved_markFrameReserved (List.range' start count) pmm
  have size : (Finset.Ico start (start + count)).card = count := by
    rw [Nat.card_Ico, Nat.add_sub_cancel_left]
  have taken := accounts.gain (start + count) (Finset.Ico start (start + count)) total
    (fun query => by
      rw [reserved query]
      simp only [List.mem_range'_1, Finset.mem_Ico])
    (fun query member => by
      obtain ⟨lower, upper⟩ := Finset.mem_Ico.mp member
      have free := block (query - start) (by omega)
      rwa [Nat.add_sub_cancel' lower] at free)
    (foldl_field allocatedFrames markFrameReserved allocatedFrames_markFrameReserved _ pmm)
    (List.foldlRecOn (List.range' start count) markFrameReserved (motive := Padded)
      accounts.padded fun _ padded frame _ => padded.markFrameReserved frame)
  rw [size] at taken
  exact taken.advance

theorem allocateFrames_accounts (accounts : pmm.Accounts excess) (count : Nat) :
    (pmm.allocateFrames count).2.Accounts excess := by
  unfold allocateFrames
  split
  · exact accounts
  · split
    · exact countAllocationFailure_accounts accounts
    · split
      · rename_i start search
        exact takeBlock_accounts accounts (findBlock_free search).2
      · exact countAllocationFailure_accounts accounts

theorem freeFrame_accounts (accounts : pmm.Accounts excess) (addr : PhysAddr) :
    (pmm.freeFrame addr).2.Accounts excess := by
  simp only [freeFrame]
  split
  · exact countInvalidFree_accounts accounts
  · rename_i inside
    split
    · exact countDoubleFree_accounts accounts
    · rename_i reserved
      have wasReserved : pmm.isFrameReserved (addr.asU64 / frameSize) = true := by
        simpa using reserved
      refine accounts.loss {addr.asU64 / frameSize} (totalFrames_markFrameFree pmm _) ?_ ?_
        (allocatedFrames_markFrameFree pmm _) (accounts.padded.markFrameFree _)
      · intro query
        rw [isFrameReserved_markFrameFree]
        by_cases same : query = addr.asU64 / frameSize
        · simp [same, wasReserved]
        · simp [same]
      · intro query member
        rw [Finset.mem_singleton.mp member, isFrameReserved_markFrameFree]
        simp [Nat.lt_of_not_le inside]

/-- A range that wraps is empty, and the counter would still lose `count`. -/
theorem freeFrames_accounts (accounts : pmm.Accounts excess) (validating : pmm.validationEnabled)
    (addr : PhysAddr) (count : Nat) (fits : addr.asU64 / frameSize + count < 2 ^ 64) :
    (pmm.freeFrames addr count).2.Accounts excess := by
  simp only [freeFrames, wrap64_small fits, Nat.add_sub_cancel_left]
  split
  · exact countInvalidFree_accounts accounts
  · rename_i inside
    split
    · exact countDoubleFree_accounts accounts
    · rename_i reserved
      have wasReserved (query : Nat) (lower : addr.asU64 / frameSize ≤ query)
          (upper : query < addr.asU64 / frameSize + count) : pmm.isFrameReserved query = true := by
        simp only [validating, Bool.true_and, List.any_eq_true, not_exists, not_and,
          Bool.not_eq_true, Bool.not_eq_false', List.mem_range'_1] at reserved
        exact reserved query ⟨lower, upper⟩
      obtain ⟨total, freed⟩ := foldl_markFrameFree
        (List.range' (addr.asU64 / frameSize) count) pmm
      have size : (Finset.Ico (addr.asU64 / frameSize) (addr.asU64 / frameSize + count)).card =
          count := by
        rw [Nat.card_Ico, Nat.add_sub_cancel_left]
      have released := accounts.loss
        (Finset.Ico (addr.asU64 / frameSize) (addr.asU64 / frameSize + count)) total
        (fun query => by
          rw [freed query]
          simp only [List.mem_range'_1, Finset.mem_Ico]
          by_cases covered :
              addr.asU64 / frameSize ≤ query ∧ query < addr.asU64 / frameSize + count
          · simp [covered, wasReserved query covered.1 covered.2]
          · simp [covered])
        (fun query member => by
          obtain ⟨lower, upper⟩ := Finset.mem_Ico.mp member
          have tracked : query < pmm.totalFrames := by omega
          rw [freed query]
          simp [List.mem_range'_1, lower, upper, tracked])
        (foldl_field allocatedFrames markFrameFree allocatedFrames_markFrameFree _ pmm)
        (List.foldlRecOn (List.range' _ count) markFrameFree (motive := Padded)
          accounts.padded fun _ padded frame _ => padded.markFrameFree frame)
      rw [size] at released
      exact released

/-! Validation stays on. -/

theorem validationEnabled_markFrameReserved (pmm : PhysicalFrameAllocator) (frame : Nat) :
    (pmm.markFrameReserved frame).validationEnabled = pmm.validationEnabled := by
  unfold markFrameReserved
  split <;> rfl

theorem validationEnabled_markFrameFree (pmm : PhysicalFrameAllocator) (frame : Nat) :
    (pmm.markFrameFree frame).validationEnabled = pmm.validationEnabled := by
  unfold markFrameFree
  split <;> rfl

theorem validationEnabled_reserveFrame (pmm : PhysicalFrameAllocator) (frame : Nat) :
    (pmm.reserveFrame frame).validationEnabled = pmm.validationEnabled := by
  unfold reserveFrame
  split
  · rfl
  · exact validationEnabled_markFrameReserved pmm frame

theorem validationEnabled_counters (pmm : PhysicalFrameAllocator) :
    pmm.countAllocationFailure.validationEnabled = pmm.validationEnabled ∧
      pmm.countInvalidFree.validationEnabled = pmm.validationEnabled ∧
      pmm.countDoubleFree.validationEnabled = pmm.validationEnabled := by
  unfold countAllocationFailure countInvalidFree countDoubleFree
  refine ⟨?_, ?_, ?_⟩ <;> split <;> rfl

theorem validationEnabled_counted (pmm : PhysicalFrameAllocator) (allocated next : Nat) :
    ({ pmm with allocatedFrames := allocated, nextFree := next } :
      PhysicalFrameAllocator).validationEnabled = pmm.validationEnabled := rfl

theorem validationEnabled_step (pmm : PhysicalFrameAllocator) (call : PmmCall) :
    (pmm.step call).2.validationEnabled = pmm.validationEnabled := by
  obtain ⟨failure, invalid, double⟩ := validationEnabled_counters pmm
  cases call with
  | reserveRange start stop =>
      exact foldl_field validationEnabled reserveFrame validationEnabled_reserveFrame _ pmm
  | allocateFrame =>
      simp only [step, allocateFrame]
      split
      · exact failure
      · apply (validationEnabled_counted _ _ _).trans
        exact validationEnabled_markFrameReserved pmm _
  | allocateFrames count =>
      simp only [step]
      unfold allocateFrames
      split
      · rfl
      · split
        · exact failure
        · split
          · apply (validationEnabled_counted _ _ _).trans
            exact foldl_field validationEnabled markFrameReserved
              validationEnabled_markFrameReserved _ pmm
          · exact failure
  | freeFrame addr =>
      simp only [step, freeFrame]
      split
      · exact invalid
      · split
        · exact double
        · apply (validationEnabled_counted _ _ _).trans
          exact validationEnabled_markFrameFree pmm _
  | freeFrames addr count =>
      simp only [step, freeFrames]
      split
      · exact invalid
      · split
        · exact double
        · apply (validationEnabled_counted _ _ _).trans
          exact foldl_field validationEnabled markFrameFree validationEnabled_markFrameFree _ pmm

/-! What the accounts say about the checks. -/

theorem population_eq_reservedCount (padded : pmm.Padded) :
    pmm.bitmap.population ((pmm.totalFrames + 7) / 8) = pmm.reservedCount := by
  have split : (pmm.totalFrames + 7) / 8 * 8 =
      pmm.totalFrames + ((pmm.totalFrames + 7) / 8 * 8 - pmm.totalFrames) := by omega
  have tail : Nat.count (fun bit => pmm.bitmap.test (pmm.totalFrames + bit) = true)
      ((pmm.totalFrames + 7) / 8 * 8 - pmm.totalFrames) = 0 := by
    rw [Nat.count_iff_forall_not]
    intro bit inside
    exact Bool.eq_false_iff.mp (padded _ (by omega) (by omega))
  rw [Bitmap.population_eq_count (by decide), split, Nat.count_add, tail, Nat.add_zero,
    reservedCount]
  apply count_congr
  intro frame inside
  rw [isFrameReserved, if_neg (Nat.not_le_of_lt inside)]

theorem validateBitmap_iff (padded : pmm.Padded) :
    pmm.validateBitmap = true ↔ pmm.allocatedFrames = pmm.reservedCount := by
  simp only [validateBitmap, population_eq_reservedCount padded, beq_iff_eq]
  exact eq_comm

theorem Accounts.exact_iff (accounts : pmm.Accounts excess) :
    pmm.allocatedFrames = pmm.reservedCount ↔ 2 ^ 64 ∣ excess := by
  have small := pmm.reservedCount_le
  have bound := pmm.totalFrames_small
  rw [accounts.counted, wrap64_eq]
  omega

/-- The counter agrees with the bitmap, stays within the tracked frames, and the checks see it. -/
structure Exact (pmm : PhysicalFrameAllocator) : Prop where
  counted : pmm.allocatedFrames = pmm.reservedCount
  bounded : pmm.allocatedFrames ≤ pmm.totalFrames
  remaining : pmm.freeFrameCount + pmm.allocatedFrames = pmm.totalFrames
  padded : pmm.Padded
  valid : pmm.validateBitmap = true

theorem Accounts.exact (accounts : pmm.Accounts 0) : pmm.Exact := by
  have counted := accounts.exact_iff.mpr (Nat.dvd_zero _)
  have bounded : pmm.allocatedFrames ≤ pmm.totalFrames := by
    rw [counted]
    exact pmm.reservedCount_le
  refine ⟨counted, bounded, ?_, accounts.padded, (validateBitmap_iff accounts.padded).mpr counted⟩
  rw [freeFrameCount, wrappingSub_small pmm.totalFrames_small bounded, Nat.sub_add_cancel bounded]

theorem new_accounts (bitmap : Bitmap 8) (totalMemoryBytes : Nat) :
    (new bitmap totalMemoryBytes).Accounts 0 := by
  constructor
  · have none : (new bitmap totalMemoryBytes).reservedCount = 0 := by
      rw [reservedCount, Nat.count_iff_forall_not]
      intro frame inside
      exact Bool.eq_false_iff.mp (new_free bitmap totalMemoryBytes frame inside)
    rw [none, wrap64_small (by decide)]
    rfl
  · intro bit _ upper
    have word : bit / 8 < ((new bitmap totalMemoryBytes).totalFrames + 7) / 8 := by omega
    have cleared : (new bitmap totalMemoryBytes).bitmap (bit / 8) = 0#8 := if_pos word
    rw [Bitmap.test, cleared]
    simp

/-- The first frame and the count of a range free add up without a wrap. -/
def PmmCall.Fits : PmmCall → Prop
  | .freeFrames addr count => addr.asU64 / frameSize + count < 2 ^ 64
  | _ => True

theorem step_accounts (accounts : pmm.Accounts excess) (sound : pmm.NextFreeSound)
    (validating : pmm.validationEnabled) (call : PmmCall) (fits : call.Fits) :
    (pmm.step call).2.Accounts excess := by
  cases call with
  | reserveRange start stop => exact reserveRange_accounts accounts start stop
  | allocateFrame => exact allocateFrame_accounts accounts sound
  | allocateFrames count => exact allocateFrames_accounts accounts count
  | freeFrame addr => exact freeFrame_accounts accounts addr
  | freeFrames addr count => exact freeFrames_accounts accounts validating addr count fits

theorem run_accounts (accounts : pmm.Accounts excess) (sound : pmm.NextFreeSound)
    (validating : pmm.validationEnabled = true) (calls : List PmmCall)
    (fits : ∀ call ∈ calls, call.Fits) : (machine.final pmm calls).Accounts excess := by
  have kept := machine.final_invariant
    (fun pmm => pmm.Accounts excess ∧ pmm.NextFreeSound ∧ pmm.validationEnabled = true)
    (fun _ call => call.Fits)
    (fun pmm call invariant fits => by
      obtain ⟨accounts, sound, validating⟩ := invariant
      exact ⟨step_accounts accounts sound validating call fits, step_sound pmm call sound,
        (validationEnabled_step pmm call).trans validating⟩)
    pmm calls ⟨accounts, sound, validating⟩ (machine.meets_calls _ fits)
  exact kept.1

/-- The accounting is exact after every call of a run whose range frees do not wrap. -/
theorem accounting_exact (bitmap : Bitmap 8) (totalMemoryBytes : Nat) (calls : List PmmCall)
    (fits : ∀ call ∈ calls, call.Fits) :
    (machine.final (new bitmap totalMemoryBytes) calls).Exact := by
  have kept := run_accounts (new_accounts bitmap totalMemoryBytes)
    (new_sound bitmap totalMemoryBytes) rfl calls fits
  exact kept.exact

def sampleCalls : List PmmCall :=
  [.reserveRange ⟨0, PhysAddr.zero_inBounds⟩ ⟨0x1001, by decide⟩, .allocateFrames 3, .allocateFrames 3,
    .freeFrame ⟨0x2123, by decide⟩, .freeFrames ⟨0x2000, by decide⟩ 2]

theorem accounting_exact_sample :
    (machine.final (new (fun _ => 0#8) 0x6000) sampleCalls).Exact := by
  refine accounting_exact _ _ sampleCalls ?_
  simp [sampleCalls, PmmCall.Fits, frameSize]

end PhysicalFrameAllocator

end ArcadiaOs.Memory
