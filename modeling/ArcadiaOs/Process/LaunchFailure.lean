import ArcadiaOs.Process.OffsetPageTable
import ArcadiaOs.Process.Stages

/-!
What a failed launch leaves behind.  Nothing is undone on the early returns: from the
first frame taken on, the frames stay reserved.
-/

namespace ArcadiaOs.Process

open Lib Memory PhysicalFrameAllocator

/-- The free frames, the process table and the current process are those of before. -/
structure Traceless (kernel kernel' : Kernel) : Prop where
  frames : ∀ frame, kernel'.pmm.isFrameReserved frame = kernel.pmm.isFrameReserved frame
  processTable : kernel'.processTable = kernel.processTable
  currentPid : kernel'.currentPid = kernel.currentPid

def RejectedEarly (elfData : ElfData) (kernel : Kernel) : Prop :=
  (∃ stop, parseElf elfData = .error stop) ∨ unusedSlot kernel = none ∨
    kernel.pmm.totalFrames ≤ kernel.pmm.nextFree

def Takes (kernel kernel' : Kernel) : Prop := Grown kernel.pmm kernel'.pmm

theorem Takes.refl (kernel : Kernel) : Takes kernel kernel := Grown.refl _

theorem Takes.trans (before middle after : Kernel) (first : Takes before middle)
    (second : Takes middle after) : Takes before after := Grown.trans first second

theorem Takes.rule {mapTo : MapTo} (documented : mapTo.Documented) : LaunchRule mapTo Takes where
  refl := Takes.refl
  trans := Takes.trans
  allocated := fun kernel => allocateFrame_grown kernel.pmm
  written := fun kernel _ => Takes.refl kernel
  mapped := fun kernel pml4 page frame flags answer memory pmm mapped => by
    obtain ⟨count, _, took⟩ := documented.allocates kernel.memory kernel.pmm pml4 page frame flags
    have grown := allocations_grown count kernel.pmm
    rw [← took, mapped] at grown
    exact grown
  filled := fun kernel _ _ _ => Takes.refl kernel

theorem required_pml4 {kernel : Kernel} {frame : PhysAddr}
    (given : kernel.pmm.allocateFrame.1 = some frame) :
    required "Failed to create page tables" createUserPageTables kernel =
      .ok frame.asU64 { kernel with
        memory := (kernel.memory.fill frame.asU64 4096 0).copy
          (kernel.kernelPml4Phys.asU64 + 256 * 8) (frame.asU64 + 256 * 8) (256 * 8)
        pmm := kernel.pmm.allocateFrame.2 } := by
  have took : allocatePage kernel =
      .ok (some frame.asU64) { kernel with pmm := kernel.pmm.allocateFrame.2 } := by
    simp only [allocatePage, given, Option.map_some]
  rw [required, bind_apply, createUserPageTables, bind_apply, took]
  rfl

theorem required_none {kernel : Kernel} (refused : kernel.pmm.allocateFrame.1 = none) :
    required "Failed to create page tables" createUserPageTables kernel =
      .error (.error "Failed to create page tables")
        { kernel with pmm := kernel.pmm.allocateFrame.2 } := by
  have took : allocatePage kernel =
      .ok none { kernel with pmm := kernel.pmm.allocateFrame.2 } := by
    simp only [allocatePage, refused, Option.map_none]
  rw [required, bind_apply, createUserPageTables, bind_apply, took]
  rfl

theorem launchIn_takes {mapTo : MapTo} (documented : mapTo.Documented) (elfData : ElfData)
    (elfInfo : ElfLoadInfo) (slot : Nat) {kernel : Kernel} {frame : PhysAddr}
    (given : kernel.pmm.allocateFrame.1 = some frame) :
    Grown kernel.pmm.allocateFrame.2 (stateOf (launchIn mapTo elfData elfInfo slot kernel)).pmm := by
  have rule := Takes.rule documented
  refine Along.after Takes (required_pml4 given) ?_
  refine .bind Takes.trans (rule.updateProcess slot fun proc => ⟨rfl, rfl⟩) fun _ => ?_
  exact (rule.launchFrom elfData elfInfo slot frame.asU64).along fun _ _ goes => goes

/-- A failed launch leaves no trace exactly when it stops before it takes a frame. -/
theorem launchInitProcess_traceless_iff {mapTo : MapTo} (documented : mapTo.Documented)
    (elfData : ElfData) (kernel kernel' : Kernel) (sound : kernel.pmm.NextFreeSound)
    (reason : String)
    (failed : launchInitProcess mapTo elfData kernel = .error (.error reason) kernel') :
    Traceless kernel kernel' ↔ RejectedEarly elfData kernel := by
  cases parsed : parseElf elfData with
  | error stop =>
      rw [launch_rejected parsed] at failed
      obtain ⟨_, rfl⟩ : Stop.error reason = stop ∧ kernel' = kernel := by
        injection failed with same state
        exact ⟨same.symm, state.symm⟩
      exact ⟨fun _ => .inl ⟨_, parsed⟩, fun _ => ⟨fun _ => rfl, rfl, rfl⟩⟩
  | ok elfInfo =>
      cases free : unusedSlot kernel with
      | none =>
          rw [launch_full parsed free] at failed
          obtain rfl : kernel' = kernel := by
            injection failed with _ state
            exact state.symm
          exact ⟨fun _ => .inr (.inl free), fun _ => ⟨fun _ => rfl, rfl, rfl⟩⟩
      | some slot =>
          rw [launch_entered parsed free] at failed
          rcases kernel.pmm.allocateFrame_spec with ⟨full, refused, same⟩ |
            ⟨bound, ⟨frame, given, _⟩, _, reserved, _⟩
          · refine ⟨fun _ => .inr (.inr full), fun _ => ?_⟩
            rw [launchIn, bind_apply, required_none refused] at failed
            injection failed with _ state
            subst state
            exact ⟨same.reserved, rfl, rfl⟩
          · constructor
            · intro traceless
              have grown := launchIn_takes documented elfData elfInfo slot given
              rw [failed] at grown
              have taken := grown.reserved kernel.pmm.nextFree (by
                rw [reserved, decide_eq_true rfl, Bool.true_or])
              have kept := traceless.frames kernel.pmm.nextFree
              rw [sound.free bound] at kept
              exact absurd (taken.symm.trans kept) (by decide)
            · rintro (⟨stop, rejected⟩ | none | full)
              · rw [parsed] at rejected
                cases rejected
              · rw [free] at none
                cases none
              · omega

/-- The one free frame becomes the PML4 and stays reserved. -/
theorem launchInitProcess_leaves_trace :
    ∃ kernel', launchInitProcess offsetPageTable oneByteElf (idleKernel 1) =
        .error (.error "Out of memory for ELF") kernel' ∧
      (idleKernel 1).pmm.isFrameReserved 4 = false ∧ kernel'.pmm.isFrameReserved 4 = true ∧
      ¬Traceless (idleKernel 1) kernel' := by
  have run : failsWith (.error "Out of memory for ELF") (fun kernel => kernel.pmm.isFrameReserved 4)
      (launchInitProcess offsetPageTable oneByteElf (idleKernel 1)) = true := by decide +kernel
  have free : (idleKernel 1).pmm.isFrameReserved 4 = false := by decide
  obtain ⟨kernel', failed, taken⟩ := failsWith_error run
  refine ⟨kernel', failed, free, taken, fun traceless => ?_⟩
  have kept := traceless.frames 4
  rw [free, taken] at kept
  cases kept

theorem launchInitProcess_traceless_full :
    ∃ kernel', RejectedEarly oneByteElf (idleKernel 0) ∧ Traceless (idleKernel 0) kernel' := by
  have run : failsWith (.error "Failed to create page tables") (fun _ => true)
      (launchInitProcess offsetPageTable oneByteElf (idleKernel 0)) = true := by decide +kernel
  obtain ⟨kernel', failed, _⟩ := failsWith_error run
  have early : RejectedEarly oneByteElf (idleKernel 0) := .inr (.inr (by decide))
  exact ⟨kernel', early, (launchInitProcess_traceless_iff offsetPageTable_documented oneByteElf
    (idleKernel 0) kernel' (idleKernel_sound 0) _ failed).mpr early⟩

end ArcadiaOs.Process
