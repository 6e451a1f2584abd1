import ArcadiaOs.Memory.Physmem

/-!
No frame is handed out twice: the frames a call grants were free, the bitmap
remembers the grant, and only a free of that very frame forgets it.
-/

namespace ArcadiaOs.Memory

open Lib

namespace PhysicalFrameAllocator

theorem frameSize_div (frame : Nat) : frame * frameSize / frameSize = frame :=
  Nat.mul_div_cancel frame (by decide)

theorem wrap64_le (value : Nat) : wrap64 value ≤ value := by
  rw [wrap64_eq]
  exact Nat.mod_le _ _

theorem step_grants (pmm : PhysicalFrameAllocator) (call : PmmCall) (sound : pmm.NextFreeSound)
    (frame : Nat) (granted : Grants call (pmm.step call).1 frame) :
    pmm.isFrameReserved frame = false ∧ (pmm.step call).2.isFrameReserved frame = true := by
  cases call with
  | reserveRange start stop => exact granted.elim
  | freeFrame addr => exact granted.elim
  | freeFrames addr count => exact granted.elim
  | allocateFrame =>
      rcases pmm.allocateFrame_spec with ⟨_, failed, _⟩ |
        ⟨available, ⟨addr, success, address⟩, _, marks, _⟩
      · simp only [step, failed] at granted
        exact granted.elim
      · simp only [step, success, Grants, address, frameSize_div] at granted
        subst frame
        refine ⟨sound.free available, ?_⟩
        simp only [step]
        rw [marks, decide_eq_true rfl, Bool.true_or]
  | allocateFrames count =>
      rcases pmm.allocateFrames_spec count with ⟨failed, _, _⟩ |
        ⟨start, addr, positive, _, block, _, success, address, taken⟩
      · simp only [step, failed] at granted
        exact granted.elim
      · simp only [step, success, Grants, address, frameSize_div] at granted
        have inside := block (frame - start) (by omega)
        rw [show start + (frame - start) = frame by omega] at inside
        refine ⟨inside, ?_⟩
        simp only [step, taken]
        rw [(pmm.takeBlock_spec start count (block.bound positive)).2.1, decide_eq_true granted,
          Bool.true_or]

theorem step_releases (pmm : PhysicalFrameAllocator) (call : PmmCall) (frame : Nat)
    (reserved : pmm.isFrameReserved frame = true)
    (released : (pmm.step call).2.isFrameReserved frame = false) :
    Frees call (pmm.step call).1 frame := by
  cases call with
  | reserveRange start stop =>
      simp only [step, (pmm.reserveRange_spec start stop).2.1, reserved, Bool.or_true] at released
      exact Bool.noConfusion released
  | allocateFrame =>
      rcases pmm.allocateFrame_spec with ⟨_, _, same⟩ | ⟨_, _, _, marks, _⟩
      · simp only [step, same.reserved, reserved] at released
        exact Bool.noConfusion released
      · simp only [step, marks, reserved, Bool.or_true] at released
        exact Bool.noConfusion released
  | allocateFrames count =>
      rcases pmm.allocateFrames_spec count with ⟨_, same, _⟩ |
        ⟨start, _, positive, _, block, _, _, _, taken⟩
      · simp only [step, same.reserved, reserved] at released
        exact Bool.noConfusion released
      · have marks := (pmm.takeBlock_spec start count (block.bound positive)).2.1 frame
        simp only [step, taken, marks, reserved, Bool.or_true] at released
        exact Bool.noConfusion released
  | freeFrame addr =>
      rcases pmm.freeFrame_spec addr with ⟨_, _, same⟩ | ⟨success, _, _, same⟩
      · simp only [step, same.reserved, reserved] at released
        exact Bool.noConfusion released
      · simp only [step, same.reserved, isFrameReserved_markFrameFree, reserved, Bool.true_and,
          Bool.not_eq_eq_eq_not, Bool.not_false, decide_eq_true_eq] at released
        simp only [step, success, Frees]
        exact released.1
  | freeFrames addr count =>
      rcases pmm.freeFrames_spec addr count with ⟨_, _, same⟩ | ⟨success, same⟩
      · simp only [step, same.reserved, reserved] at released
        exact Bool.noConfusion released
      · simp only [step, same.reserved, (foldl_markFrameFree _ pmm).2, reserved, Bool.true_and,
          Bool.not_eq_eq_eq_not, Bool.not_false, decide_eq_true_eq, List.mem_range'_1] at released
        simp only [step, success, Frees]
        have wrapped := wrap64_le (addr.asU64 / frameSize + count)
        omega

/-- Every frame a run of the allocator hands out was free and tracked, only a free covering a
frame makes it free again, and so two grants of one frame have such a free between them. -/
theorem no_double_allocation (bitmap : Bitmap 8) (totalMemoryBytes : Nat) :
    (∀ calls, ∀ event ∈ machine.events (new bitmap totalMemoryBytes) calls,
      (∀ frame, Grants event.call event.answer frame →
        frame < event.before.totalFrames ∧ event.before.isFrameReserved frame = false ∧
          event.after.isFrameReserved frame = true) ∧
      (∀ frame, event.before.isFrameReserved frame = true →
        event.after.isFrameReserved frame = false → Frees event.call event.answer frame)) ∧
    (∀ earlier first middle second frame,
      let firstStep := machine.step (machine.final (new bitmap totalMemoryBytes) earlier) first
      let secondStep := machine.step (machine.final firstStep.2 middle) second
      Grants first firstStep.1 frame → Grants second secondStep.1 frame →
        ∃ event ∈ machine.events firstStep.2 middle, Frees event.call event.answer frame) := by
  have preserved (state : PhysicalFrameAllocator) (call : PmmCall) (sound : state.NextFreeSound)
      (_ : True) : (machine.step state call).2.NextFreeSound := step_sound state call sound
  have initially := new_sound bitmap totalMemoryBytes
  constructor
  · intro calls event member
    have sound := (machine.events_invariant NextFreeSound _ preserved _ calls initially
      (machine.meets_trivial _ calls) event member).1
    have stepped := machine.event_step _ calls event member
    have answered : event.answer = (event.before.step event.call).1 := (congrArg Prod.fst stepped).symm
    have moved : event.after = (event.before.step event.call).2 := (congrArg Prod.snd stepped).symm
    rw [answered, moved]
    constructor
    · intro frame granted
      obtain ⟨wasFree, isReserved⟩ := step_grants _ _ sound frame granted
      exact ⟨lt_of_free wasFree, wasFree, isReserved⟩
    · exact step_releases event.before event.call
  · intro earlier first middle second frame firstStep secondStep granted grantedAgain
    have soundEarlier := machine.final_invariant NextFreeSound _ preserved _ earlier initially
      (machine.meets_trivial _ earlier)
    have reserved := (step_grants _ first soundEarlier frame granted).2
    have soundMiddle := machine.final_invariant NextFreeSound _ preserved _ middle
      (step_sound _ first soundEarlier) (machine.meets_trivial _ middle)
    have free := (step_grants _ second soundMiddle frame grantedAgain).1
    obtain ⟨event, member, held, lost⟩ := machine.exists_loss
      (fun state => state.isFrameReserved frame = true) firstStep.2 middle reserved
      (fun still => Bool.noConfusion (still.symm.trans free))
    refine ⟨event, member, ?_⟩
    have stepped := machine.event_step _ middle event member
    have answered : event.answer = (event.before.step event.call).1 := (congrArg Prod.fst stepped).symm
    have moved : event.after = (event.before.step event.call).2 := (congrArg Prod.snd stepped).symm
    rw [answered]
    rw [moved] at lost
    exact step_releases event.before event.call frame held (Bool.eq_false_iff.mpr lost)

end PhysicalFrameAllocator

end ArcadiaOs.Memory
