import ArcadiaOs.Memory.BootAccounting
import ArcadiaOs.Memory.FrameSafety

/-!
The history of a frame.  One bit stands for a frame that the kernel keeps and for a frame that
was handed out, so a free cannot tell them apart; which frees are lawful depends on the
calls before them.
-/

namespace ArcadiaOs.Memory

open Lib

namespace PhysicalFrameAllocator

/-- One of the events hands the frame out, and no later one frees it. -/
def Held (past : List (Event PhysicalFrameAllocator PmmCall PmmAnswer)) (frame : Nat) : Prop :=
  ∃ earlier event later, past = earlier ++ event :: later ∧
    Grants event.call event.answer frame ∧
    ∀ after ∈ later, ¬Frees after.call after.answer frame

/-- A free succeeds on held frames alone and fails with one of two errors, and no frame of a
standard reservation is handed out. -/
structure Lawful (past : List (Event PhysicalFrameAllocator PmmCall PmmAnswer))
    (pmm : PhysicalFrameAllocator) (call : PmmCall) : Prop where
  freed : ∀ frame, Frees call (pmm.step call).1 frame → Held past frame
  granted : ∀ frame, Grants call (pmm.step call).1 frame → ¬InStandardReservation frame
  refused : ∀ error, (pmm.step call).1 = .done (.error error) →
    error = .invalidFree ∨ error = .doubleFree

def PmmCall.Client : PmmCall → Prop
  | .reserveRange _ _ => False
  | .freeFrames _ count => count < 2 ^ 64
  | _ => True

/-- No tracked frame of a standard reservation is freed, neither alone nor in a range whose frames
are all reserved, and no range wraps around to an end among the tracked frames. -/
def Careful (pmm : PhysicalFrameAllocator) : PmmCall → Prop
  | .freeFrame addr =>
      addr.asU64 / frameSize < pmm.totalFrames → ¬InStandardReservation (addr.asU64 / frameSize)
  | .freeFrames addr count =>
      (addr.asU64 / frameSize + count < 2 ^ 64 ∨
        pmm.totalFrames < wrap64 (addr.asU64 / frameSize + count)) ∧
      (addr.asU64 / frameSize + count ≤ pmm.totalFrames →
        (∀ frame, addr.asU64 / frameSize ≤ frame → frame < addr.asU64 / frameSize + count →
          pmm.isFrameReserved frame = true) →
        ∀ frame, addr.asU64 / frameSize ≤ frame → frame < addr.asU64 / frameSize + count →
          ¬InStandardReservation frame)
  | _ => True

/-- What the bits mean after a past: a tracked frame is reserved when the kernel keeps it or when it
is held. -/
structure Ledger (past : List (Event PhysicalFrameAllocator PmmCall PmmAnswer))
    (pmm : PhysicalFrameAllocator) : Prop where
  sound : pmm.NextFreeSound
  validating : pmm.validationEnabled = true
  reserved : ∀ frame, frame < pmm.totalFrames →
    (pmm.isFrameReserved frame = true ↔ InStandardReservation frame ∨ Held past frame)
  tracked : ∀ frame, Held past frame → frame < pmm.totalFrames
  apart : ∀ frame, Held past frame → ¬InStandardReservation frame

theorem Ledger.not_standard {past : List (Event PhysicalFrameAllocator PmmCall PmmAnswer)}
    {pmm : PhysicalFrameAllocator} (ledger : Ledger past pmm) {frame : Nat}
    (free : pmm.isFrameReserved frame = false) : ¬InStandardReservation frame := by
  intro kept
  have reserved := (ledger.reserved frame (lt_of_free free)).mpr (.inl kept)
  rw [free] at reserved
  exact Bool.noConfusion reserved

theorem held_nil (frame : Nat) : ¬Held [] frame := by
  rintro ⟨earlier, event, later, split, _⟩
  simp at split

theorem held_append (past : List (Event PhysicalFrameAllocator PmmCall PmmAnswer))
    (event : Event PhysicalFrameAllocator PmmCall PmmAnswer) (frame : Nat) :
    Held (past ++ [event]) frame ↔
      Grants event.call event.answer frame ∨
        (Held past frame ∧ ¬Frees event.call event.answer frame) := by
  constructor
  · rintro ⟨earlier, grant, later, split, granted, kept⟩
    rcases List.eq_nil_or_concat later with none | ⟨front, last, rfl⟩
    · subst later
      obtain ⟨rfl, same⟩ := List.append_inj' split rfl
      obtain rfl := (List.cons.inj same).1
      exact .inl granted
    · rw [List.concat_eq_append, ← List.cons_append, ← List.append_assoc] at split
      obtain ⟨rfl, same⟩ := List.append_inj' split rfl
      obtain rfl := (List.cons.inj same).1
      refine .inr ⟨⟨earlier, grant, front, rfl, granted, fun after member => ?_⟩, ?_⟩
      · exact kept after (by simp [member])
      · exact kept event (by simp)
  · rintro (granted | ⟨⟨earlier, grant, later, rfl, granted, kept⟩, notFreed⟩)
    · exact ⟨past, event, [], rfl, granted, by simp⟩
    · refine ⟨earlier, grant, later ++ [event], by simp, granted, fun after member => ?_⟩
      rcases List.mem_append.mp member with old | new
      · exact kept after old
      · rw [List.mem_singleton.mp new]
        exact notFreed

/-! When a free succeeds. -/

theorem freeFrame_ok_iff (pmm : PhysicalFrameAllocator) (addr : PhysAddr) :
    (pmm.freeFrame addr).1 = .ok () ↔
      addr.asU64 / frameSize < pmm.totalFrames ∧
        pmm.isFrameReserved (addr.asU64 / frameSize) = true := by
  simp only [freeFrame]
  by_cases inside : addr.asU64 / frameSize < pmm.totalFrames
  · rw [if_neg (Nat.not_le_of_lt inside)]
    cases reserved : pmm.isFrameReserved (addr.asU64 / frameSize) <;> simp [inside]
  · rw [if_pos (Nat.le_of_not_lt inside)]
    simp [inside]

theorem freeFrame_refused (pmm : PhysicalFrameAllocator) (addr : PhysAddr) {error : PmmError}
    (failed : (pmm.freeFrame addr).1 = .error error) :
    error = .invalidFree ∨ error = .doubleFree := by
  simp only [freeFrame] at failed
  split at failed
  · exact .inl (Except.error.inj failed).symm
  · split at failed
    · exact .inr (Except.error.inj failed).symm
    · simp at failed

theorem freeFrames_ok_iff (pmm : PhysicalFrameAllocator) (addr : PhysAddr) (count : Nat)
    (validating : pmm.validationEnabled = true) :
    (pmm.freeFrames addr count).1 = .ok () ↔
      wrap64 (addr.asU64 / frameSize + count) ≤ pmm.totalFrames ∧
        ∀ frame, addr.asU64 / frameSize ≤ frame →
          frame < wrap64 (addr.asU64 / frameSize + count) → pmm.isFrameReserved frame = true := by
  simp only [freeFrames, validating, Bool.true_and]
  by_cases inside : wrap64 (addr.asU64 / frameSize + count) ≤ pmm.totalFrames
  · rw [if_neg (Nat.not_lt_of_le inside)]
    simp only [inside, true_and]
    split
    · rename_i found
      refine iff_of_false (by simp) fun reserved => ?_
      obtain ⟨frame, member, free⟩ := List.any_eq_true.mp found
      obtain ⟨lower, upper⟩ := List.mem_range'_1.mp member
      have taken := reserved frame lower (by omega)
      rw [taken] at free
      exact Bool.noConfusion free
    · rename_i none
      refine iff_of_true rfl fun frame lower upper => ?_
      by_contra free
      refine none (List.any_eq_true.mpr ⟨frame, List.mem_range'_1.mpr ⟨lower, by omega⟩, ?_⟩)
      simpa using free
  · rw [if_pos (Nat.lt_of_not_le inside)]
    simp [inside]

theorem freeFrames_refused (pmm : PhysicalFrameAllocator) (addr : PhysAddr) (count : Nat)
    {error : PmmError} (failed : (pmm.freeFrames addr count).1 = .error error) :
    error = .invalidFree ∨ error = .doubleFree := by
  simp only [freeFrames] at failed
  split at failed
  · exact .inl (Except.error.inj failed).symm
  · split at failed
    · exact .inr (Except.error.inj failed).symm
    · simp at failed

theorem frees_freeFrame {addr : PhysAddr} {result : PmmResult} {frame : Nat}
    (freed : Frees (.freeFrame addr) (.done result) frame) :
    result = .ok () ∧ frame = addr.asU64 / frameSize := by
  cases result with
  | ok => exact ⟨rfl, freed⟩
  | error failure => exact freed.elim

theorem frees_freeFrames {addr : PhysAddr} {count : Nat} {result : PmmResult} {frame : Nat}
    (freed : Frees (.freeFrames addr count) (.done result) frame) :
    result = .ok () ∧
      addr.asU64 / frameSize ≤ frame ∧ frame < addr.asU64 / frameSize + count := by
  cases result with
  | ok => exact ⟨rfl, freed⟩
  | error failure => exact freed.elim

/-! What a careful call does to the bits. -/

variable {pmm : PhysicalFrameAllocator} {call : PmmCall}

theorem Careful.freed (careful : pmm.Careful call) (validating : pmm.validationEnabled = true)
    {frame : Nat} (freed : Frees call (pmm.step call).1 frame) :
    frame < pmm.totalFrames ∧ pmm.isFrameReserved frame = true ∧
      ¬InStandardReservation frame ∧ (pmm.step call).2.isFrameReserved frame = false := by
  cases call with
  | reserveRange start stop => exact freed.elim
  | allocateFrame => exact freed.elim
  | allocateFrames count => exact freed.elim
  | freeFrame addr =>
      obtain ⟨success, rfl⟩ := frees_freeFrame freed
      obtain ⟨inside, reserved⟩ := (pmm.freeFrame_ok_iff addr).mp success
      refine ⟨inside, reserved, careful inside, ?_⟩
      rcases pmm.freeFrame_spec addr with ⟨_, failed, _⟩ | ⟨_, _, _, same⟩
      · rw [success] at failed
        nomatch failed
      · simp [step, same.reserved, isFrameReserved_markFrameFree, inside]
  | freeFrames addr count =>
      obtain ⟨success, lower, upper⟩ := frees_freeFrames freed
      obtain ⟨inside, reserved⟩ := (pmm.freeFrames_ok_iff addr count validating).mp success
      obtain ⟨fits, spared⟩ := careful
      have straight : wrap64 (addr.asU64 / frameSize + count) = addr.asU64 / frameSize + count :=
        wrap64_small (by omega)
      rw [straight] at inside reserved
      refine ⟨by omega, reserved frame lower upper, spared inside reserved frame lower upper, ?_⟩
      rcases pmm.freeFrames_spec addr count with ⟨_, failed, _⟩ | ⟨_, same⟩
      · rw [success] at failed
        nomatch failed
      · rw [straight, Nat.add_sub_cancel_left] at same
        have tracked : frame < pmm.totalFrames := by omega
        simp only [step]
        rw [same.reserved, (foldl_markFrameFree _ pmm).2]
        simp [List.mem_range'_1, lower, upper, tracked]

theorem grants_of_taken (client : call.Client) {frame : Nat}
    (free : pmm.isFrameReserved frame = false)
    (taken : (pmm.step call).2.isFrameReserved frame = true) :
    Grants call (pmm.step call).1 frame := by
  cases call with
  | reserveRange start stop => exact client.elim
  | allocateFrame =>
      rcases pmm.allocateFrame_spec with ⟨_, _, same⟩ | ⟨_, ⟨addr, success, address⟩, _, marks, _⟩
      · simp only [step, same.reserved, free] at taken
        exact Bool.noConfusion taken
      · simp only [step, marks, free, Bool.or_false, decide_eq_true_eq] at taken
        simp only [step, success, Grants, address, frameSize_div]
        exact taken
  | allocateFrames count =>
      rcases pmm.allocateFrames_spec count with ⟨_, same, _⟩ |
        ⟨start, addr, positive, _, block, _, success, address, result⟩
      · simp only [step, same.reserved, free] at taken
        exact Bool.noConfusion taken
      · have marks := (pmm.takeBlock_spec start count (block.bound positive)).2.1 frame
        simp only [step, result, marks, free, Bool.or_false, decide_eq_true_eq] at taken
        simp only [step, success, Grants, address, frameSize_div]
        exact taken
  | freeFrame addr =>
      rcases pmm.freeFrame_spec addr with ⟨_, _, same⟩ | ⟨_, _, _, same⟩
      · simp only [step, same.reserved, free] at taken
        exact Bool.noConfusion taken
      · simp only [step, same.reserved, isFrameReserved_markFrameFree, free, Bool.false_and] at taken
        exact Bool.noConfusion taken
  | freeFrames addr count =>
      rcases pmm.freeFrames_spec addr count with ⟨_, _, same⟩ | ⟨_, same⟩
      · simp only [step, same.reserved, free] at taken
        exact Bool.noConfusion taken
      · simp only [step, same.reserved, (foldl_markFrameFree _ pmm).2, free,
          Bool.false_and] at taken
        exact Bool.noConfusion taken

variable {past : List (Event PhysicalFrameAllocator PmmCall PmmAnswer)}

theorem Ledger.step (ledger : Ledger past pmm) (client : call.Client)
    (careful : pmm.Careful call) :
    Ledger (past ++ [⟨pmm, call, (pmm.step call).1, (pmm.step call).2⟩]) (pmm.step call).2 := by
  have total := totalFrames_step pmm call
  constructor
  · exact step_sound pmm call ledger.sound
  · exact (validationEnabled_step pmm call).trans ledger.validating
  · intro frame inside
    rw [total] at inside
    rw [held_append]
    by_cases granted : Grants call (pmm.step call).1 frame
    · have taken := (step_grants pmm call ledger.sound frame granted).2
      exact iff_of_true taken (.inr (.inl granted))
    · have bits : (pmm.step call).2.isFrameReserved frame = true ↔
          pmm.isFrameReserved frame = true ∧ ¬Frees call (pmm.step call).1 frame := by
        constructor
        · intro taken
          constructor
          · by_contra free
            exact granted (grants_of_taken client (Bool.eq_false_iff.mpr free) taken)
          · intro freed
            have released := (careful.freed ledger.validating freed).2.2.2
            rw [released] at taken
            exact Bool.noConfusion taken
        · rintro ⟨reserved, notFreed⟩
          by_contra released
          exact notFreed (step_releases pmm call frame reserved (Bool.eq_false_iff.mpr released))
      rw [bits, ledger.reserved frame inside]
      constructor
      · rintro ⟨kept | held, notFreed⟩
        · exact .inl kept
        · exact .inr (.inr ⟨held, notFreed⟩)
      · rintro (kept | granted' | ⟨held, notFreed⟩)
        · exact ⟨.inl kept, fun freed =>
            (careful.freed ledger.validating freed).2.2.1 kept⟩
        · exact absurd granted' granted
        · exact ⟨.inr held, notFreed⟩
  · intro frame held
    rw [total]
    rcases (held_append past _ frame).mp held with granted | ⟨held, _⟩
    · exact lt_of_free (step_grants pmm call ledger.sound frame granted).1
    · exact ledger.tracked frame held
  · intro frame held
    rcases (held_append past _ frame).mp held with granted | ⟨held, _⟩
    · exact ledger.not_standard (step_grants pmm call ledger.sound frame granted).1
    · exact ledger.apart frame held

theorem Lawful.careful (lawful : Lawful past pmm call) (ledger : Ledger past pmm)
    (client : call.Client) : pmm.Careful call := by
  cases call with
  | reserveRange start stop => exact client.elim
  | allocateFrame => exact trivial
  | allocateFrames count => exact trivial
  | freeFrame addr =>
      intro inside kept
      have reserved := (ledger.reserved _ inside).mpr (.inl kept)
      have success := (pmm.freeFrame_ok_iff addr).mpr ⟨inside, reserved⟩
      have held := lawful.freed (addr.asU64 / frameSize) (by
        simp only [step, success]
        exact rfl)
      exact ledger.apart _ held kept
  | freeFrames addr count =>
      have bound : count < 2 ^ 64 := client
      have freed (success : (pmm.freeFrames addr count).1 = .ok ()) (frame : Nat)
          (lower : addr.asU64 / frameSize ≤ frame)
          (upper : frame < addr.asU64 / frameSize + count) : Held past frame := by
        apply lawful.freed frame
        simp only [step, success]
        exact ⟨lower, upper⟩
      constructor
      · -- A range that wraps is empty and frees nothing, yet its call succeeds.
        by_contra wraps
        rw [not_or] at wraps
        have startBound : addr.asU64 / frameSize < 2 ^ 52 :=
          Nat.lt_of_le_of_lt (Nat.div_le_self _ _) addr.inBounds
        have folded : wrap64 (addr.asU64 / frameSize + count) =
            addr.asU64 / frameSize + count - 2 ^ 64 := by
          rw [wrap64_eq]
          omega
        have success := (pmm.freeFrames_ok_iff addr count ledger.validating).mpr
          ⟨by omega, fun frame lower upper => by omega⟩
        have held := freed success (addr.asU64 / frameSize + count - 1) (by omega) (by omega)
        have tracked := ledger.tracked _ held
        have small := pmm.totalFrames_small
        omega
      · intro inside reserved frame lower upper
        have small := pmm.totalFrames_small
        have straight : wrap64 (addr.asU64 / frameSize + count) =
            addr.asU64 / frameSize + count := wrap64_small (by omega)
        have success : (pmm.freeFrames addr count).1 = .ok () := by
          rw [freeFrames_ok_iff pmm addr count ledger.validating, straight]
          exact ⟨inside, reserved⟩
        exact ledger.apart frame (freed success frame lower upper)

theorem Careful.lawful (careful : pmm.Careful call) (ledger : Ledger past pmm) :
    Lawful past pmm call := by
  constructor
  · intro frame freed
    obtain ⟨inside, reserved, spared, _⟩ := careful.freed ledger.validating freed
    exact ((ledger.reserved frame inside).mp reserved).resolve_left spared
  · intro frame granted
    exact ledger.not_standard (step_grants pmm call ledger.sound frame granted).1
  · intro error failed
    cases call with
    | reserveRange start stop => simp [PhysicalFrameAllocator.step] at failed
    | allocateFrame => simp [PhysicalFrameAllocator.step] at failed
    | allocateFrames count => simp [PhysicalFrameAllocator.step] at failed
    | freeFrame addr => exact pmm.freeFrame_refused addr (PmmAnswer.done.inj failed)
    | freeFrames addr count => exact pmm.freeFrames_refused addr count (PmmAnswer.done.inj failed)

/-! The allocator after `init`. -/

structure Restored (after before : PhysicalFrameAllocator) : Prop where
  totalFrames : after.totalFrames = before.totalFrames
  reserved : ∀ frame, after.isFrameReserved frame = before.isFrameReserved frame
  sound : after.NextFreeSound
  validating : after.validationEnabled = before.validationEnabled

theorem Restored.trans {first second third : PhysicalFrameAllocator}
    (later : Restored third second) (earlier : Restored second first) : Restored third first :=
  ⟨later.totalFrames.trans earlier.totalFrames,
    fun frame => (later.reserved frame).trans (earlier.reserved frame), later.sound,
    later.validating.trans earlier.validating⟩

theorem freeFrame_restored (sound : pmm.NextFreeSound) (addr : PhysAddr)
    (refused : (pmm.freeFrame addr).1 ≠ .ok ()) : Restored (pmm.freeFrame addr).2 pmm := by
  have kept := step_sound pmm (.freeFrame addr) sound
  have validating := validationEnabled_step pmm (.freeFrame addr)
  rcases pmm.freeFrame_spec addr with ⟨_, _, same⟩ | ⟨success, _⟩
  · exact ⟨same.totalFrames, same.reserved, kept, validating⟩
  · exact absurd success refused

theorem allocateFrame_restored (sound : pmm.NextFreeSound) {addr : PhysAddr}
    (granted : pmm.allocateFrame.1 = some addr) :
    (pmm.allocateFrame.2.freeFrame addr).1 = .ok () ∧
      Restored (pmm.allocateFrame.2.freeFrame addr).2 pmm ∧
      pmm.isFrameReserved (addr.asU64 / frameSize) = false := by
  rcases pmm.allocateFrame_spec with ⟨_, failed, _⟩ |
    ⟨available, ⟨other, success, address⟩, total, marks, _, next, _⟩
  · rw [granted] at failed
    cases failed
  · obtain rfl := Option.some.inj (granted.symm.trans success)
    have frame : addr.asU64 / frameSize = pmm.nextFree := by rw [address, frameSize_div]
    have freed : (pmm.allocateFrame.2.freeFrame addr).1 = .ok () := by
      rw [freeFrame_ok_iff, frame, total, marks]
      exact ⟨available, by simp⟩
    refine ⟨freed, ⟨?_, ?_, ?_, ?_⟩, ?_⟩
    · exact (totalFrames_step pmm.allocateFrame.2 (.freeFrame addr)).trans total
    · intro query
      rcases pmm.allocateFrame.2.freeFrame_spec addr with ⟨_, failed, _⟩ | ⟨_, _, _, same⟩
      · rw [freed] at failed
        nomatch failed
      · rw [same.reserved, isFrameReserved_markFrameFree, marks, frame, total]
        by_cases same : query = pmm.nextFree
        · simp [same, available, sound.free available]
        · simp [same]
    · exact step_sound pmm.allocateFrame.2 (.freeFrame addr) next
    · exact (validationEnabled_step pmm.allocateFrame.2 (.freeFrame addr)).trans
        (validationEnabled_step pmm .allocateFrame)
    · rw [frame]
      exact sound.free available

theorem allocateFrames_restored (sound : pmm.NextFreeSound)
    (validating : pmm.validationEnabled = true) {count : Nat} {addr : PhysAddr}
    (granted : (pmm.allocateFrames count).1 = some addr) :
    Restored ((pmm.allocateFrames count).2.freeFrames addr count).2 pmm := by
  have keptSound := step_sound _ (.freeFrames addr count)
    (step_sound pmm (.allocateFrames count) sound)
  have stillValidating := (validationEnabled_step (pmm.allocateFrames count).2
    (.freeFrames addr count)).trans (validationEnabled_step pmm (.allocateFrames count))
  have total := (totalFrames_step (pmm.allocateFrames count).2 (.freeFrames addr count)).trans
    (totalFrames_step pmm (.allocateFrames count))
  refine ⟨total, fun query => ?_, keptSound, stillValidating⟩
  rcases pmm.allocateFrames_spec count with ⟨failed, _⟩ |
    ⟨start, other, positive, _, block, _, success, address, taken⟩
  · rw [granted] at failed
    cases failed
  · obtain rfl := Option.some.inj (granted.symm.trans success)
    have bound := block.bound positive
    have small := pmm.totalFrames_small
    obtain ⟨takenTotal, marks, _⟩ := pmm.takeBlock_spec start count bound
    have first : addr.asU64 / frameSize = start := by rw [address, frameSize_div]
    have straight : wrap64 (start + count) = start + count := wrap64_small (by omega)
    have freed : ((pmm.takeBlock start count).freeFrames addr count).1 = .ok () := by
      have validatingTaken := (validationEnabled_step pmm (.allocateFrames count)).trans validating
      simp only [step, taken] at validatingTaken
      rw [freeFrames_ok_iff _ addr count validatingTaken, first, straight, takenTotal]
      refine ⟨bound, fun frame lower upper => ?_⟩
      rw [marks, decide_eq_true ⟨lower, upper⟩, Bool.true_or]
    rw [taken]
    rcases (pmm.takeBlock start count).freeFrames_spec addr count with ⟨_, failed, _⟩ | ⟨_, same⟩
    · rw [freed] at failed
      cases failed
    · rw [first, straight, Nat.add_sub_cancel_left] at same
      rw [same.reserved, (foldl_markFrameFree _ _).2, marks, takenTotal]
      by_cases covered : start ≤ query ∧ query < start + count
      · have free := block (query - start) (by omega)
        rw [Nat.add_sub_cancel' covered.1] at free
        have tracked : query < pmm.totalFrames := by omega
        simp [List.mem_range'_1, covered, free, tracked]
      · simp [List.mem_range'_1, covered]

theorem beyondTracked_refused (pmm : PhysicalFrameAllocator) :
    (pmm.freeFrame beyondTracked).1 ≠ .ok () := by
  intro success
  have inside := ((pmm.freeFrame_ok_iff beyondTracked).mp success).1
  have outside : maxTrackedFrames ≤ beyondTracked.asU64 / frameSize := by decide
  exact Nat.not_le_of_lt inside (pmm.totalBound.trans outside)

theorem selfTestFreed_restored (sound : pmm.NextFreeSound)
    (validating : pmm.validationEnabled = true) (addr : PhysAddr)
    (free : pmm.isFrameReserved (addr.asU64 / frameSize) = false) :
    Restored (pmm.selfTestFreed addr).2 pmm := by
  have again := freeFrame_restored sound addr (by
    rw [ne_eq, freeFrame_ok_iff, free]
    simp)
  have invalid :=
    (freeFrame_restored again.sound beyondTracked (beyondTracked_refused _)).trans again
  unfold selfTestFreed
  split
  · exact ⟨rfl, fun _ => rfl, sound, rfl⟩
  · dsimp only
    split
    · exact again
    · split
      · exact invalid
      · dsimp only
        cases granted : (((pmm.freeFrame addr).2.freeFrame beyondTracked).2.allocateFrames 4).1 with
        | some start =>
            exact (allocateFrames_restored invalid.sound (invalid.validating.trans validating)
              granted).trans invalid
        | none =>
            have total := totalFrames_step ((pmm.freeFrame addr).2.freeFrame beyondTracked).2
              (.allocateFrames 4)
            rcases ((pmm.freeFrame addr).2.freeFrame beyondTracked).2.allocateFrames_spec 4 with
              ⟨_, same, _⟩ | ⟨_, _, _, _, _, _, success, _⟩
            · exact Restored.trans ⟨total, same.reserved, invalid.sound.congr same,
                validationEnabled_step _ (.allocateFrames 4)⟩ invalid
            · rw [granted] at success
              nomatch success

theorem selfTest_restored (sound : pmm.NextFreeSound) (validating : pmm.validationEnabled = true) :
    Restored pmm.selfTest.2 pmm := by
  unfold selfTest
  split
  · exact ⟨rfl, fun _ => rfl, sound, rfl⟩
  · dsimp only
    split
    · rename_i failed
      rcases pmm.allocateFrame_spec with ⟨_, _, same⟩ | ⟨_, ⟨_, success, _⟩, _⟩
      · exact ⟨same.totalFrames, same.reserved, sound.congr same,
          validationEnabled_step pmm .allocateFrame⟩
      · rw [failed] at success
        nomatch success
    · rename_i addr granted
      obtain ⟨freed, restored, free⟩ := allocateFrame_restored sound granted
      split
      · exact restored
      · rw [freed]
        have testFree := (restored.reserved (addr.asU64 / frameSize)).trans free
        exact (selfTestFreed_restored restored.sound (restored.validating.trans validating) addr
          testFree).trans restored

theorem initStandardReservations_ledger (bitmap : Bitmap 8) (totalMemoryBytes : Nat) :
    Ledger [] (new bitmap totalMemoryBytes).initStandardReservations := by
  obtain ⟨total, bits⟩ := PhysicalMemoryManager.initStandardReservations_spec
    (new bitmap totalMemoryBytes)
  constructor
  · exact List.foldlRecOn standardReservations _ (motive := NextFreeSound)
      (new_sound bitmap totalMemoryBytes) fun pmm sound range _ =>
        step_sound pmm (.reserveRange range.1 range.2) sound
  · exact List.foldlRecOn standardReservations _
      (motive := fun pmm : PhysicalFrameAllocator => pmm.validationEnabled = true) rfl
      fun pmm validating range _ =>
        (validationEnabled_step pmm (.reserveRange range.1 range.2)).trans validating
  · intro frame inside
    rw [total] at inside
    rw [bits, new_free bitmap totalMemoryBytes frame inside]
    simp [held_nil]
  · exact fun frame held => (held_nil frame held).elim
  · exact fun frame held => (held_nil frame held).elim

theorem Ledger.restored {after : PhysicalFrameAllocator} (ledger : Ledger past pmm)
    (restored : Restored after pmm) : Ledger past after := by
  constructor
  · exact restored.sound
  · exact restored.validating.trans ledger.validating
  · intro frame inside
    rw [restored.totalFrames] at inside
    rw [restored.reserved]
    exact ledger.reserved frame inside
  · intro frame held
    rw [restored.totalFrames]
    exact ledger.tracked frame held
  · exact ledger.apart

theorem computeStatistics_restored (manager : PhysicalMemoryManager)
    (sound : manager.frameAllocator.NextFreeSound) :
    Restored manager.computeStatistics.frameAllocator manager.frameAllocator := by
  obtain ⟨same, _⟩ := PhysicalMemoryManager.computeStatistics_same manager
  exact ⟨same.totalFrames, same.reserved, sound.congr same, rfl⟩

theorem init_restored (manager : PhysicalMemoryManager)
    (sound : manager.frameAllocator.initStandardReservations.NextFreeSound)
    (validating : manager.frameAllocator.initStandardReservations.validationEnabled = true) :
    Restored manager.init.frameAllocator manager.frameAllocator.initStandardReservations := by
  rw [PhysicalMemoryManager.init]
  generalize manager.frameAllocator.initStandardReservations = reserved at sound validating ⊢
  have counted := computeStatistics_restored
    ({ manager with frameAllocator := reserved } : PhysicalMemoryManager).buildMemoryMap sound
  exact (selfTest_restored counted.sound (counted.validating.trans validating)).trans counted

theorem init_ledger (bitmap : Bitmap 8) (totalMemoryBytes : Nat) :
    (PhysicalMemoryManager.new bitmap totalMemoryBytes).init.frameAllocator.totalFrames =
        (new bitmap totalMemoryBytes).totalFrames ∧
      Ledger [] (PhysicalMemoryManager.new bitmap totalMemoryBytes).init.frameAllocator := by
  have ledger := initStandardReservations_ledger bitmap totalMemoryBytes
  have restored := init_restored (PhysicalMemoryManager.new bitmap totalMemoryBytes)
    ledger.sound ledger.validating
  have total := (PhysicalMemoryManager.initStandardReservations_spec
    (new bitmap totalMemoryBytes)).1
  exact ⟨restored.totalFrames.trans total, ledger.restored restored⟩

/-- After `init` the frees of a run are lawful exactly when every one of them is careful. -/
theorem frees_lawful_iff (bitmap : Bitmap 8) (totalMemoryBytes : Nat) (calls : List PmmCall)
    (client : ∀ call ∈ calls, call.Client) :
    machine.Lawful Lawful []
        (PhysicalMemoryManager.new bitmap totalMemoryBytes).init.frameAllocator calls ↔
      machine.Meets Careful
        (PhysicalMemoryManager.new bitmap totalMemoryBytes).init.frameAllocator calls := by
  refine machine.lawful_iff_meets Lawful Careful Ledger ?_ ?_ [] _ calls
    (init_ledger bitmap totalMemoryBytes).2 client
  · intro past pmm call ledger client
    exact ⟨fun lawful => lawful.careful ledger client, fun careful => careful.lawful ledger⟩
  · intro past pmm call ledger client careful
    exact ledger.step client careful

theorem frees_lawful_returned :
    machine.Lawful Lawful [] (PhysicalMemoryManager.new (fun _ => 0#8) 0x600000).init.frameAllocator
      [.allocateFrame, .freeFrame ⟨0x200000, by decide⟩, .freeFrame ⟨0x200000, by decide⟩] := by
  have apart : ¬InStandardReservation (0x200000 / frameSize) := by
    unfold InStandardReservation
    decide
  refine (frees_lawful_iff (fun _ => 0#8) 0x600000 _ ?_).mpr ?_
  · simp [PmmCall.Client]
  · exact ⟨trivial, fun _ => apart, fun _ => apart, trivial⟩

/-- A free of frame 0, which the kernel keeps, succeeds. -/
theorem frees_take_bios_frame :
    ¬∀ (bitmap : Bitmap 8) (totalMemoryBytes : Nat) (calls : List PmmCall),
      (∀ call ∈ calls, call.Client) → machine.Lawful Lawful []
        (PhysicalMemoryManager.new bitmap totalMemoryBytes).init.frameAllocator calls := by
  intro claimed
  have lawful := (claimed (fun _ => 0#8) 0x600000 [.freeFrame ⟨0, by decide⟩]
    (by simp [PmmCall.Client])).1
  obtain ⟨total, ledger⟩ := init_ledger (fun _ => 0#8) 0x600000
  have spared := lawful.careful ledger trivial
  have tracked : 0 / frameSize < (PhysicalMemoryManager.new (fun _ => 0#8)
      0x600000).init.frameAllocator.totalFrames := by
    rw [total]
    decide
  refine spared tracked ?_
  unfold InStandardReservation
  decide

end PhysicalFrameAllocator

end ArcadiaOs.Memory
