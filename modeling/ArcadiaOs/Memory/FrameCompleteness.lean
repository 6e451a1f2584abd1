import ArcadiaOs.Memory.Physmem

/-!
When the first-fit search finds every free frame and block.  It never looks below
`next_free`, so it is complete while nothing free lies there; the one step that
leaves a free frame behind is an `allocate_frames` that skips a hole.
-/

namespace ArcadiaOs.Memory

open Lib

namespace PhysicalFrameAllocator

/-- Both allocation calls succeed exactly when the bitmap holds what they ask for. -/
def Complete (pmm : PhysicalFrameAllocator) : Prop :=
  (pmm.allocateFrame.1.isSome ↔ ∃ frame, frame < pmm.totalFrames ∧
    pmm.isFrameReserved frame = false) ∧
  ∀ count, 1 ≤ count →
    ((pmm.allocateFrames count).1.isSome ↔ ∃ start, pmm.FreeBlock start count)

/-- An `allocate_frames` call skips no hole: the frames from `next_free` on already make up the
block, or there is no block of the size at all. -/
def SkipsNoHole (pmm : PhysicalFrameAllocator) : PmmCall → Prop
  | .allocateFrames count => count = 0 ∨ pmm.FreeBlock pmm.nextFree count ∨
      ∀ start, ¬pmm.FreeBlock start count
  | _ => True

theorem lowest_free {pmm : PhysicalFrameAllocator} (lowest : pmm.NextFreeLowest) {frame : Nat}
    (free : pmm.isFrameReserved frame = false) : pmm.nextFree ≤ frame := by
  by_contra below
  rw [lowest frame (by omega)] at free
  exact Bool.noConfusion free

theorem lowest_block {pmm : PhysicalFrameAllocator} (lowest : pmm.NextFreeLowest)
    {start count : Nat} (positive : 0 < count) (block : pmm.FreeBlock start count) :
    pmm.nextFree ≤ start := by
  have first := block 0 positive
  rw [Nat.add_zero] at first
  exact lowest_free lowest first

theorem complete_of_lowest {pmm : PhysicalFrameAllocator} (sound : pmm.NextFreeSound)
    (lowest : pmm.NextFreeLowest) : pmm.Complete := by
  constructor
  · rcases pmm.allocateFrame_spec with ⟨full, failed, _⟩ | ⟨available, ⟨addr, success, _⟩, _⟩
    · rw [failed]
      refine ⟨fun found => Bool.noConfusion found, ?_⟩
      rintro ⟨frame, inside, free⟩
      have := lowest_free lowest free
      omega
    · rw [success]
      exact ⟨fun _ => ⟨pmm.nextFree, available, sound.free available⟩, fun _ => rfl⟩
  · intro count positive
    rcases pmm.allocateFrames_spec count with ⟨failed, _, missing⟩ |
      ⟨start, addr, _, _, block, _, success, _, _⟩
    · rw [failed]
      refine ⟨fun found => Bool.noConfusion found, ?_⟩
      rintro ⟨start, block⟩
      exact absurd block (missing positive start (lowest_block lowest positive block))
    · rw [success]
      exact ⟨fun _ => ⟨start, block⟩, fun _ => rfl⟩

theorem findBlock_start {pmm : PhysicalFrameAllocator} {start count : Nat} (positive : 0 < count)
    (block : pmm.FreeBlock start count) (turns : Nat) :
    pmm.findBlock count (turns + 1) start = some start := by
  have bound := block.bound positive
  simp only [findBlock, bound, if_true, reservedOffset_none.mpr block]

theorem step_lowest (pmm : PhysicalFrameAllocator) (call : PmmCall)
    (lowest : pmm.NextFreeLowest) (guarded : pmm.SkipsNoHole call) :
    (pmm.step call).2.NextFreeLowest := by
  cases call with
  | reserveRange start stop => exact (pmm.reserveRange_spec start stop).2.2.2
  | allocateFrame =>
      rcases pmm.allocateFrame_spec with ⟨_, _, same⟩ | ⟨_, _, _, _, _, _, next⟩
      · exact lowest.congr same
      · exact next lowest
  | allocateFrames count =>
      rcases pmm.allocateFrames_spec count with ⟨_, same, _⟩ |
        ⟨start, _, positive, _, block, search, _, _, taken⟩
      · exact lowest.congr same
      · have atNext : pmm.FreeBlock pmm.nextFree count := by
          rcases guarded with zero | atNext | missing
          · omega
          · exact atNext
          · exact absurd block (missing start)
        rw [findBlock_start positive atNext] at search
        simp only [Option.some.injEq] at search
        subst start
        simp only [step, taken]
        exact (pmm.takeBlock_spec pmm.nextFree count (block.bound positive)).2.2.2 lowest
  | freeFrame addr =>
      rcases pmm.freeFrame_spec addr with ⟨_, _, same⟩ | ⟨_, _, _, same⟩
      · exact lowest.congr same
      · exact (markFrameFree_lowest lowest _).congr same
  | freeFrames addr count =>
      rcases pmm.freeFrames_spec addr count with ⟨_, _, same⟩ | ⟨_, same⟩
      · exact lowest.congr same
      · exact (foldl_markFrameFree_keeps NextFreeLowest
          (fun _ frame kept => markFrameFree_lowest kept frame) _ lowest).congr same

theorem step_skips_hole {pmm : PhysicalFrameAllocator} {call : PmmCall} (sound : pmm.NextFreeSound)
    (lowest : pmm.NextFreeLowest) (skips : ¬pmm.SkipsNoHole call) :
    ∃ frame, frame < (pmm.step call).2.nextFree ∧
      (pmm.step call).2.isFrameReserved frame = false := by
  cases call with
  | reserveRange start stop => exact absurd trivial skips
  | allocateFrame => exact absurd trivial skips
  | freeFrame addr => exact absurd trivial skips
  | freeFrames addr count => exact absurd trivial skips
  | allocateFrames count =>
      simp only [SkipsNoHole, not_or, not_forall, not_not] at skips
      obtain ⟨nonzero, notAtNext, other, otherBlock⟩ := skips
      rcases pmm.allocateFrames_spec count with ⟨_, _, missing⟩ |
        ⟨start, _, positive, lower, block, _, _, _, taken⟩
      · have positive := Nat.pos_of_ne_zero nonzero
        exact absurd otherBlock (missing positive other (lowest_block lowest positive otherBlock))
      · have bound := block.bound positive
        have later : pmm.nextFree < start := by
          refine Nat.lt_of_le_of_ne lower fun same => notAtNext ?_
          rw [same]
          exact block
        simp only [step, taken]
        refine ⟨pmm.nextFree, ?_, ?_⟩
        · exact Nat.lt_of_lt_of_le (by omega) (skipReserved_spec _ _ (start + count)).1
        · rw [(pmm.takeBlock_spec start count bound).2.1, sound.free (by omega), Bool.or_false,
            decide_eq_false_iff_not]
          omega

theorem hole_exhausts (pmm : PhysicalFrameAllocator) (hole : Nat)
    (below : hole < pmm.nextFree) (free : pmm.isFrameReserved hole = false) :
    ∃ more, ¬(machine.final pmm more).Complete := by
  generalize left : pmm.totalFrames - pmm.nextFree = remaining
  induction remaining using Nat.strongRecOn generalizing pmm with
  | ind remaining ih =>
      rcases pmm.allocateFrame_spec with ⟨full, failed, _⟩ |
        ⟨available, _, total, marks, advanced, _⟩
      · refine ⟨[], fun complete => ?_⟩
        have found := complete.1.mpr ⟨hole, lt_of_free free, free⟩
        rw [show (machine.final pmm []).allocateFrame.1 = none from failed] at found
        exact Bool.noConfusion found
      · obtain ⟨more, incomplete⟩ := ih
          (pmm.allocateFrame.2.totalFrames - pmm.allocateFrame.2.nextFree) (by omega)
          pmm.allocateFrame.2 (by omega)
          (by rw [marks, free, Bool.or_false, decide_eq_false_iff_not]; omega) rfl
        exact ⟨.allocateFrame :: more, incomplete⟩

theorem new_invariant (bitmap : Bitmap 8) (totalMemoryBytes : Nat) :
    (new bitmap totalMemoryBytes).NextFreeSound ∧ (new bitmap totalMemoryBytes).NextFreeLowest :=
  ⟨new_sound bitmap totalMemoryBytes, new_lowest bitmap totalMemoryBytes⟩

theorem guarded_step (pmm : PhysicalFrameAllocator) (call : PmmCall)
    (invariant : pmm.NextFreeSound ∧ pmm.NextFreeLowest) (guarded : pmm.SkipsNoHole call) :
    (machine.step pmm call).2.NextFreeSound ∧ (machine.step pmm call).2.NextFreeLowest :=
  ⟨step_sound pmm call invariant.1, step_lowest pmm call invariant.2 guarded⟩

/-- In every run whose `allocate_frames` calls skip no hole, both allocation calls are complete
in every state reached; and the first call that does skip one can be followed by calls that
reach a state where they are not. -/
theorem allocation_complete (bitmap : Bitmap 8) (totalMemoryBytes : Nat) (calls : List PmmCall)
    (meets : machine.Meets SkipsNoHole (new bitmap totalMemoryBytes) calls) :
    (∀ reached, reached <+: calls →
      (machine.final (new bitmap totalMemoryBytes) reached).Complete) ∧
    (∀ call, ¬(machine.final (new bitmap totalMemoryBytes) calls).SkipsNoHole call →
      ∃ more, ¬(machine.final (new bitmap totalMemoryBytes) (calls ++ call :: more)).Complete) := by
  have initially := new_invariant bitmap totalMemoryBytes
  constructor
  · rintro reached ⟨rest, rfl⟩
    have met := ((machine.meets_append _ _ reached rest).mp meets).1
    have kept := machine.final_invariant _ _ guarded_step _ reached initially met
    exact complete_of_lowest kept.1 kept.2
  · intro call skips
    have kept := machine.final_invariant _ _ guarded_step _ calls initially meets
    obtain ⟨hole, below, free⟩ := step_skips_hole kept.1 kept.2 skips
    obtain ⟨more, incomplete⟩ := hole_exhausts _ hole below free
    refine ⟨more, ?_⟩
    rw [machine.final_append]
    exact incomplete

theorem allocation_complete_refill :
    (∀ reached, reached <+: [PmmCall.allocateFrames 3, .freeFrame ⟨0, by decide⟩, .allocateFrames 1] →
      (machine.final (new (fun _ => 0#8) 0x6000) reached).Complete) ∧
    (∀ call, ¬(machine.final (new (fun _ => 0#8) 0x6000)
        [.allocateFrames 3, .freeFrame ⟨0, by decide⟩, .allocateFrames 1]).SkipsNoHole call →
      ∃ more, ¬(machine.final (new (fun _ => 0#8) 0x6000)
        ([.allocateFrames 3, .freeFrame ⟨0, by decide⟩, .allocateFrames 1] ++ call :: more)).Complete) := by
  apply allocation_complete
  refine ⟨.inr (.inl ?_), trivial, .inr (.inl ?_), trivial⟩
  · unfold FreeBlock
    decide
  · unfold FreeBlock
    decide

/-- After frames 0 and 1 are taken and frame 0 is given back, a block of two skips frame 0; once
the last frame is taken too, frame 0 is free and is never found. -/
theorem allocation_misses_hole :
    ¬∀ (bitmap : Bitmap 8) (totalMemoryBytes : Nat) (calls : List PmmCall),
      (machine.final (new bitmap totalMemoryBytes) calls).Complete := by
  intro claimed
  have complete := claimed (fun _ => 0#8) 0x5000
    [.allocateFrame, .allocateFrame, .freeFrame ⟨0, by decide⟩, .allocateFrames 2, .allocateFrame]
  have missed := complete.1.mpr ⟨0, by decide, by decide⟩
  revert missed
  decide

end PhysicalFrameAllocator

end ArcadiaOs.Memory
