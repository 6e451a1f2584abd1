import ArcadiaOs.Memory.Physmem

/-!
Frames handed out one after the other: `allocate_frame` moves upwards, so what a row of
calls hands out is new and in ascending order.
-/

namespace ArcadiaOs.Memory.PhysicalFrameAllocator

def allocations : Nat → PhysicalFrameAllocator → PhysicalFrameAllocator
  | 0, pmm => pmm
  | count + 1, pmm => allocations count pmm.allocateFrame.2

/-- The addresses a row of `allocate_frame` calls hands out; a failing call adds none. -/
def grants : Nat → PhysicalFrameAllocator → List Nat
  | 0, _ => []
  | count + 1, pmm =>
      (pmm.allocateFrame.1.map PhysAddr.asU64).toList ++ grants count pmm.allocateFrame.2

variable {pmm pmm' : PhysicalFrameAllocator}

structure Grown (pmm pmm' : PhysicalFrameAllocator) : Prop where
  total : pmm'.totalFrames = pmm.totalFrames
  reserved : ∀ frame, pmm.isFrameReserved frame = true → pmm'.isFrameReserved frame = true
  nextFree : pmm.nextFree ≤ pmm'.nextFree

theorem Grown.refl (pmm : PhysicalFrameAllocator) : Grown pmm pmm :=
  ⟨rfl, fun _ reserved => reserved, Nat.le_refl _⟩

theorem Grown.trans {pmm'' : PhysicalFrameAllocator} (first : Grown pmm pmm')
    (second : Grown pmm' pmm'') : Grown pmm pmm'' :=
  ⟨second.total.trans first.total,
    fun frame reserved => second.reserved frame (first.reserved frame reserved),
    Nat.le_trans first.nextFree second.nextFree⟩

theorem allocateFrame_grown (pmm : PhysicalFrameAllocator) : Grown pmm pmm.allocateFrame.2 := by
  rcases pmm.allocateFrame_spec with ⟨_, _, same⟩ | ⟨_, _, total, reserved, later, _⟩
  · exact ⟨same.totalFrames, fun frame held => (same.reserved frame).trans held,
      same.nextFree.ge⟩
  · refine ⟨total, fun frame held => ?_, Nat.le_of_lt later⟩
    rw [reserved, held, Bool.or_true]

theorem allocations_grown (count : Nat) (pmm : PhysicalFrameAllocator) :
    Grown pmm (allocations count pmm) := by
  induction count generalizing pmm with
  | zero => exact .refl pmm
  | succ count ih => exact pmm.allocateFrame_grown.trans (ih _)

theorem allocateFrame_sound (sound : pmm.NextFreeSound) : pmm.allocateFrame.2.NextFreeSound := by
  rcases pmm.allocateFrame_spec with ⟨_, _, same⟩ | ⟨_, _, _, _, _, after, _⟩
  · exact sound.congr same
  · exact after

theorem allocations_sound (count : Nat) (sound : pmm.NextFreeSound) :
    (allocations count pmm).NextFreeSound := by
  induction count generalizing pmm with
  | zero => exact sound
  | succ count ih => exact ih (allocateFrame_sound sound)

/-- The frame of a successful call: aligned, at `next_free`, and reserved from then on. -/
structure Granted (pmm : PhysicalFrameAllocator) (address : Nat) : Prop where
  place : address = pmm.nextFree * frameSize
  bound : pmm.nextFree < pmm.totalFrames
  reserved : pmm.allocateFrame.2.isFrameReserved pmm.nextFree = true
  next : pmm.nextFree < pmm.allocateFrame.2.nextFree
  sound : pmm.allocateFrame.2.NextFreeSound

theorem allocateFrame_granted {addr : PhysAddr} (given : pmm.allocateFrame.1 = some addr) :
    Granted pmm addr.asU64 := by
  rcases pmm.allocateFrame_spec with ⟨_, refused, _⟩ |
    ⟨bound, ⟨taken, same, place⟩, _, reserved, next, sound, _⟩
  · rw [given] at refused
    cases refused
  · rw [given, Option.some.injEq] at same
    subst same
    exact ⟨place, bound, by rw [reserved, decide_eq_true rfl, Bool.true_or], next, sound⟩

theorem Granted.aligned {address : Nat} (granted : Granted pmm address) :
    address % frameSize = 0 := by
  rw [granted.place, Nat.mul_mod_left]

theorem Granted.frame {address : Nat} (granted : Granted pmm address) :
    address / frameSize = pmm.nextFree := by
  rw [granted.place, Nat.mul_div_cancel _ (by decide)]

theorem mem_grants {count address : Nat} (member : address ∈ grants count pmm) :
    address % frameSize = 0 ∧ address < 2 ^ 52 ∧ pmm.nextFree ≤ address / frameSize ∧
      address / frameSize < (allocations count pmm).nextFree ∧
      (allocations count pmm).isFrameReserved (address / frameSize) = true ∧
      (pmm.NextFreeSound → pmm.isFrameReserved (address / frameSize) = false) := by
  induction count generalizing pmm with
  | zero => cases member
  | succ count ih =>
      have grown := allocations_grown count pmm.allocateFrame.2
      rcases List.mem_append.mp member with first | later
      · cases given : pmm.allocateFrame.1 with
        | none =>
            rw [given] at first
            cases first
        | some addr =>
            rw [given] at first
            obtain rfl : address = addr.asU64 := by simpa using first
            have granted := allocateFrame_granted given
            rw [granted.frame]
            refine ⟨granted.aligned, addr.inBounds, Nat.le_refl _, Nat.lt_of_lt_of_le granted.next grown.nextFree,
              grown.reserved _ granted.reserved, fun sound => sound.free granted.bound⟩
      · obtain ⟨aligned, small, above, below, reserved, free⟩ := ih later
        have first := pmm.allocateFrame_grown
        refine ⟨aligned, small, Nat.le_trans first.nextFree above, below, reserved, fun sound => ?_⟩
        have after := free (allocateFrame_sound sound)
        cases held : pmm.isFrameReserved (address / frameSize) with
        | false => rfl
        | true =>
            rw [first.reserved _ held] at after
            cases after

theorem grants_mono {count more address : Nat} (le : count ≤ more)
    (member : address ∈ grants count pmm) : address ∈ grants more pmm := by
  induction count generalizing pmm more with
  | zero => cases member
  | succ count ih =>
      obtain ⟨rest, rfl⟩ := Nat.exists_eq_add_of_le' (Nat.lt_of_lt_of_le (Nat.succ_pos _) le)
      rcases List.mem_append.mp member with first | later
      · exact List.mem_append.mpr (.inl first)
      · exact List.mem_append.mpr (.inr (ih (by omega) later))

end ArcadiaOs.Memory.PhysicalFrameAllocator
