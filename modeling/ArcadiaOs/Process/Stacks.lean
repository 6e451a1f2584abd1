import ArcadiaOs.Process.EnterUserMode
import ArcadiaOs.Process.Opening
import ArcadiaOs.Process.ProcessTable
import ArcadiaOs.Process.UserPointer

/-!
The stacks of a launched process.  A launch takes one frame for the kernel stack, while the frame
for user mode is pushed from 8 KiB above its base.
-/

namespace ArcadiaOs.Process

open Lib Memory PhysicalFrameAllocator

/-- The processor translates `addr` through present entries that all pass `allowed`, to a place in
the given frame. -/
def Translates (memory : Memory) (pml4 addr frame : Nat) (allowed : PageTableEntry → Bool) : Prop :=
  ∃ p4Entry p3Entry p2Entry p1Entry,
    walk memory pml4 addr = [p4Entry, p3Entry, p2Entry, p1Entry] ∧
      (∀ entry ∈ [p4Entry, p3Entry, p2Entry, p1Entry],
        entry.present = true ∧ allowed entry = true) ∧
      p1Entry.addr / frameSize = frame

def kernelStackFrame (proc : ProcessControlBlock) : Nat := proc.kernelStackPhys / frameSize

/-- The frame for user mode is written in the frame of the kernel stack and read there through the
new PML4, and each page of the user stack is mapped, writable and open to user mode, to a frame that
the launch took. -/
structure StacksOwned (kernel launched : Kernel) (proc : ProcessControlBlock) : Prop where
  written : ∀ place, stackTop proc - 8 * (initialFrame proc).length ≤ place →
    place < stackTop proc → place / frameSize = kernelStackFrame proc
  reachable : ∀ place, proc.kernelRsp ≤ place → place < stackTop proc →
    Translates launched.memory proc.pml4Phys place (kernelStackFrame proc) fun _ => true
  userStack : ∀ addr, userStackTop - userStackSize ≤ addr → addr < userStackTop →
    ∃ frame, kernel.pmm.isFrameReserved frame = false ∧
      launched.pmm.isFrameReserved frame = true ∧
      Translates launched.memory proc.pml4Phys addr frame fun entry =>
        entry.writable && entry.userAccessible

theorem Kept.found {before after : Kernel} {slot : Nat} {old : ProcessControlBlock}
    (kept : Kept before after) (found : before.processTable[slot]? = some old) :
    ∃ proc, after.processTable[slot]? = some proc := by
  have long := congrArg List.length kept.pids
  simp only [Process.pids, List.length_map] at long
  have bound : slot < before.processTable.length := (List.getElem?_eq_some_iff.mp found).1
  exact ⟨_, List.getElem?_eq_getElem (by omega)⟩

theorem launched_stack {mapTo : MapTo} {elfData : ElfData} {kernel launched : Kernel}
    (done : launchInitProcess mapTo elfData kernel = .ok () launched) :
    ∃ (proc : ProcessControlBlock) (stacked : Kernel) (kernelStack : PhysAddr),
      launchedProcess kernel launched = some proc ∧
      stacked.pmm.allocateFrame.1 = some kernelStack ∧
      proc.kernelStackPhys = kernelStack.asU64 ∧ proc.kernelRsp = stackTop proc - 160 := by
  obtain ⟨elfInfo, slot, pml4, _, free, _, run⟩ := launchInitProcess_ok done
  obtain ⟨loaded, stacked, topped, userStack, kernelStack, stages⟩ := launchFrom_stages run
  obtain ⟨before, found⟩ := unusedSlot_found free
  have opening : (opened kernel slot pml4).processTable[slot]? =
      some { before with pml4Phys := pml4.asU64 } := by
    simp only [opened, List.getElem?_modify_eq, found, Option.map_eq_map, Option.map_some]
  have kept := (Kept.rule mapTo).loadSegments elfData pml4.asU64 elfInfo.segments
    (opened kernel slot pml4)
  rw [stages.loads] at kept
  obtain ⟨_, table, _⟩ := mapUserPage_ok stages.mapsUser
  obtain ⟨proc, process⟩ := kept.found opening
  replace process : stacked.processTable[slot]? = some proc :=
    (congrArg (·[slot]?) table).trans process
  refine ⟨_, stacked, kernelStack, .trans ?_ (stages.process process), stages.givenKernel, rfl, rfl⟩
  rw [launchedProcess, free, Option.bind_some]

theorem written_behind {proc : ProcessControlBlock} (aligned : proc.kernelStackPhys % frameSize = 0)
    {place : Nat} (above : stackTop proc - 8 * (initialFrame proc).length ≤ place)
    (below : place < stackTop proc) : place / frameSize = kernelStackFrame proc + 1 := by
  have long : (initialFrame proc).length = 20 := rfl
  unfold stackTop kernelStackSize at above below
  unfold kernelStackFrame
  unfold frameSize at aligned ⊢
  omega

theorem not_stacksOwned {kernel launched : Kernel} {proc : ProcessControlBlock}
    (aligned : proc.kernelStackPhys % frameSize = 0) : ¬StacksOwned kernel launched proc := by
  intro owned
  have long : (initialFrame proc).length = 20 := rfl
  have above : stackTop proc - 8 * (initialFrame proc).length ≤ stackTop proc - 1 := by omega
  have below : stackTop proc - 1 < stackTop proc := by
    unfold stackTop kernelStackSize
    omega
  have own := owned.written _ above below
  rw [written_behind aligned above below] at own
  omega

/-- No launch leaves stacks that the process owns: the frame for user mode is written behind the one
frame that the launch took for the kernel stack. -/
theorem stacks_never_owned {mapTo : MapTo} (elfData : ElfData) (kernel launched : Kernel)
    (done : launchInitProcess mapTo elfData kernel = .ok () launched) :
    ∃ proc, launchedProcess kernel launched = some proc ∧
      (∀ place, proc.kernelRsp ≤ place → place < stackTop proc →
        place / frameSize = kernelStackFrame proc + 1) ∧
      ¬StacksOwned kernel launched proc := by
  obtain ⟨proc, stacked, kernelStack, process, given, stack, rsp⟩ := launched_stack done
  have aligned : proc.kernelStackPhys % frameSize = 0 := by
    rw [stack]
    exact (allocateFrame_granted given).aligned
  refine ⟨proc, process, fun place above below => written_behind aligned ?_ below,
    not_stacksOwned aligned⟩
  have long : (initialFrame proc).length = 20 := rfl
  omega

theorem stacks_never_owned_idle :
    ∃ launched proc, launchInitProcess offsetPageTable oneByteElf (idleKernel 20) = .ok () launched ∧
      launchedProcess (idleKernel 20) launched = some proc ∧
      ¬StacksOwned (idleKernel 20) launched proc := by
  have run : returnsWith (fun _ => true)
      (launchInitProcess offsetPageTable oneByteElf (idleKernel 20)) = true := by decide +kernel
  obtain ⟨_, launched, done, _⟩ := returnsWith_ok run
  obtain ⟨proc, process, _, stray⟩ := stacks_never_owned oneByteElf (idleKernel 20) launched done
  exact ⟨launched, proc, done, process, stray⟩

/-- The kernel stack is frame 13, and the frame for user mode overwrites frame 14, the page table
that the mapping of the kernel stack has just taken. -/
theorem launch_overwrites_table :
    ∃ launched proc, launchInitProcess offsetPageTable oneByteElf (idleKernel 20) = .ok () launched ∧
      launchedProcess (idleKernel 20) launched = some proc ∧
      proc.kernelStackPhys = 0xD000 ∧ launched.memory.readU64 0xEFF8 = userSs ∧
      ¬StacksOwned (idleKernel 20) launched proc := by
  have run : returnsWith (fun launched =>
      (launchedProcess (idleKernel 20) launched).any (fun proc => proc.kernelStackPhys == 0xD000) &&
        launched.memory.readU64 0xEFF8 == userSs)
      (launchInitProcess offsetPageTable oneByteElf (idleKernel 20)) = true := by decide +kernel
  obtain ⟨_, launched, done, checked⟩ := returnsWith_ok run
  simp only [Bool.and_eq_true, beq_iff_eq] at checked
  obtain ⟨started, value⟩ := checked
  obtain ⟨proc, process, stack⟩ := (Option.any_eq_true _ _).mp started
  rw [beq_iff_eq] at stack
  refine ⟨launched, proc, done, process, stack, value, not_stacksOwned ?_⟩
  rw [stack]
  decide

end ArcadiaOs.Process
