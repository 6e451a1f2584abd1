import ArcadiaOs.Lib.Footprint
import ArcadiaOs.Process.LaunchCore

/-!
The rule for `launch_init_process`.  It is a sequence of stages that change the memory, take
frames or fill in fields of the process; what these keep, a launch keeps up to its last
step, which marks the process as running.
-/

namespace ArcadiaOs.Process

open Lib Memory

def launchFrom (mapTo : MapTo) (elfData : ElfData) (elfInfo : ElfLoadInfo) (slot pml4 : Nat) :
    Launch Unit := do
  loadSegments mapTo elfData pml4 elfInfo.segments
  let userStack ← required "Out of memory for user stack" allocatePage
  zeroPage userStack
  mapUserPage mapTo pml4 (userStackTop - userStackSize) userStack
    (PageTableFlags.present + PageTableFlags.writable + PageTableFlags.userAccessible)
  updateProcess slot fun proc => { proc with userStackPhys := userStack, userRsp := userStackTop }
  let kernelStack ← required "Out of memory for kernel stack" allocatePage
  zeroPage kernelStack
  updateProcess slot fun proc =>
    { proc with kernelStackPhys := kernelStack, kernelRsp := kernelStack + kernelStackSize }
  mapUserPage mapTo pml4 kernelStack kernelStack
    (PageTableFlags.present + PageTableFlags.writable)
  updateProcess slot fun proc => { proc with elfEntry := elfInfo.entry }
  buildInitialKernelStack slot
  updateProcess slot fun proc => { proc with state := .running }
  modify fun kernel =>
    { kernel with currentPid := (kernel.processTable[slot]?.map fun proc => proc.pid).getD 0 }

section Launch

variable {mapTo : MapTo} {elfData : ElfData} {elfInfo : ElfLoadInfo} {kernel : Kernel}

theorem launch_rejected {stop : Stop} (parsed : parseElf elfData = .error stop) :
    launchInitProcess mapTo elfData kernel = .error stop kernel := by
  rw [launchInitProcess, parsed]
  rfl

theorem launch_full (parsed : parseElf elfData = .ok elfInfo) (full : unusedSlot kernel = none) :
    launchInitProcess mapTo elfData kernel = .error (.error "No free process slot") kernel := by
  rw [launchInitProcess, parsed]
  simp only [bind_apply, get_apply, full]
  rfl

theorem launch_entered {slot : Nat} (parsed : parseElf elfData = .ok elfInfo)
    (free : unusedSlot kernel = some slot) :
    launchInitProcess mapTo elfData kernel = launchIn mapTo elfData elfInfo slot kernel := by
  rw [launchInitProcess, parsed]
  simp only [bind_apply, get_apply, free]

end Launch

/-- A relation that the stages of a launch respect. -/
structure LaunchRule (mapTo : MapTo) (rel : Kernel → Kernel → Prop) : Prop where
  refl : ∀ kernel, rel kernel kernel
  trans : ∀ before middle after, rel before middle → rel middle after → rel before after
  allocated : ∀ kernel, rel kernel { kernel with pmm := kernel.pmm.allocateFrame.2 }
  written : ∀ kernel memory, rel kernel { kernel with memory }
  mapped : ∀ kernel pml4 page frame flags answer memory pmm,
    mapTo kernel.memory kernel.pmm pml4 page frame flags = (answer, memory, pmm) →
    rel kernel { kernel with memory, pmm }
  filled : ∀ kernel slot change,
    (∀ proc, (change proc).pid = proc.pid ∧ (change proc).state = proc.state) →
    rel kernel { kernel with processTable := kernel.processTable.modify slot change }

def started (slot : Nat) (kernel : Kernel) : Kernel :=
  let processTable := kernel.processTable.modify slot fun proc => { proc with state := .running }
  { kernel with
    processTable
    currentPid := (processTable[slot]?.map fun proc => proc.pid).getD 0 }

/-- A failure along the relation, or a success along it up to a last step. -/
def Ended (rel : Kernel → Kernel → Prop) (last : Kernel → Kernel) (kernel : Kernel) :
    EStateM.Result Stop Kernel Unit → Prop
  | .error _ after => rel kernel after
  | .ok _ after => ∃ middle, rel kernel middle ∧ after = last middle

def Finishes (rel : Kernel → Kernel → Prop) (last : Kernel → Kernel) (action : Launch Unit) : Prop :=
  ∀ kernel, Ended rel last kernel (action kernel)

section Rule

variable {mapTo : MapTo} {rel : Kernel → Kernel → Prop}

theorem Finishes.bind {α : Type} {last : Kernel → Kernel}
    (trans : ∀ before middle after, rel before middle → rel middle after → rel before after)
    {first : Launch α} {next : α → Launch Unit} (moves : Along rel first)
    (finishes : ∀ value, Finishes rel last (next value)) : Finishes rel last (first >>= next) := by
  intro kernel
  have here := moves kernel
  rw [bind_apply]
  cases ran : first kernel with
  | error reason middle =>
      rw [ran] at here
      exact here
  | ok value middle =>
      rw [ran] at here
      have rest := finishes value middle
      simp only
      cases ended : next value middle with
      | error reason after =>
          rw [ended] at rest
          exact trans _ _ _ here rest
      | ok done after =>
          rw [ended] at rest
          obtain ⟨between, goes, final⟩ := rest
          exact ⟨between, trans _ _ _ here goes, final⟩

theorem Finishes.along {last : Kernel → Kernel} {action : Launch Unit}
    (finishes : Finishes rel last action)
    (ends : ∀ before middle, rel before middle → rel before (last middle)) : Along rel action := by
  intro kernel
  have ended := finishes kernel
  cases ran : action kernel with
  | error reason after =>
      rw [ran] at ended
      exact ended
  | ok value after =>
      rw [ran] at ended
      obtain ⟨middle, goes, rfl⟩ := ended
      exact ends kernel middle goes

variable (rule : LaunchRule mapTo rel)
include rule

theorem LaunchRule.allocatePage : Along rel allocatePage := fun kernel => rule.allocated kernel

theorem LaunchRule.required {α : Type} (reason : String) {action : Launch (Option α)}
    (moves : Along rel action) : Along rel (required reason action) := by
  refine .bind rule.trans moves fun value => ?_
  cases value with
  | none => exact .throw rule.refl _
  | some value => exact .pure rule.refl value

theorem LaunchRule.modifyMemory (change : Memory → Memory) : Along rel (modifyMemory change) :=
  .modify fun kernel => rule.written kernel _

theorem LaunchRule.updateProcess (slot : Nat) {change : ProcessControlBlock → ProcessControlBlock}
    (same : ∀ proc, (change proc).pid = proc.pid ∧ (change proc).state = proc.state) :
    Along rel (updateProcess slot change) :=
  .modify fun kernel => rule.filled kernel slot change same

theorem LaunchRule.createUserPageTables : Along rel createUserPageTables := by
  refine .bind rule.trans rule.allocatePage fun frame => ?_
  cases frame with
  | none => exact .pure rule.refl _
  | some newPml4 =>
      refine .bind rule.trans (rule.modifyMemory _) fun _ => ?_
      refine .bind rule.trans (fun kernel => rule.refl kernel) fun kernel => ?_
      exact .bind rule.trans (rule.modifyMemory _) fun _ => .pure rule.refl _

theorem LaunchRule.mapUserPage (pml4 virt phys flags : Nat) :
    Along rel (mapUserPage mapTo pml4 virt phys flags) := by
  intro kernel
  simp only [Process.mapUserPage]
  split
  · exact rule.refl kernel
  · split <;> rename_i answer <;> exact rule.mapped _ _ _ _ _ _ _ _ answer

theorem LaunchRule.loadPage (elfData : ElfData) (pml4 : Nat) (seg : ElfSegment) (pageIdx : Nat) :
    Along rel (loadPage mapTo elfData pml4 seg pageIdx) := by
  refine .bind rule.trans (rule.required _ rule.allocatePage) fun pagePhys => ?_
  refine .bind rule.trans (rule.modifyMemory _) fun _ => ?_
  cases pageSource elfData.bytes seg pageIdx with
  | none => exact .throw rule.refl _
  | some src =>
      exact .bind rule.trans (rule.modifyMemory _) fun _ => rule.mapUserPage _ _ _ _

theorem LaunchRule.loadPages (elfData : ElfData) (pml4 : Nat) (seg : ElfSegment) (count index : Nat) :
    Along rel (loadPages mapTo elfData pml4 seg count index) := by
  induction count generalizing index with
  | zero => exact .pure rule.refl _
  | succ count ih => exact .bind rule.trans (rule.loadPage elfData pml4 seg index) fun _ => ih _

theorem LaunchRule.loadSegments (elfData : ElfData) (pml4 : Nat) (segments : List ElfSegment) :
    Along rel (loadSegments mapTo elfData pml4 segments) := by
  induction segments with
  | nil => exact .pure rule.refl _
  | cons seg rest ih => exact .bind rule.trans (rule.loadPages elfData pml4 seg _ 0) fun _ => ih

theorem LaunchRule.buildInitialKernelStack (slot : Nat) :
    Along rel (buildInitialKernelStack slot) := by
  intro kernel
  cases found : kernel.processTable[slot]? with
  | none =>
      simp only [Process.buildInitialKernelStack, found, stateOf]
      exact rule.refl kernel
  | some proc =>
      simp only [Process.buildInitialKernelStack, found, stateOf]
      generalize pushValues _ _ _ = memory
      generalize proc.kernelStackPhys + kernelStackSize - 8 * (initialFrame proc).length = rsp
      exact rule.trans _ _ _ (rule.written kernel memory)
        (rule.filled _ slot (fun proc => { proc with kernelRsp := rsp }) fun proc => ⟨rfl, rfl⟩)

theorem LaunchRule.launchFrom (elfData : ElfData) (elfInfo : ElfLoadInfo) (slot pml4 : Nat) :
    Finishes rel (started slot) (launchFrom mapTo elfData elfInfo slot pml4) := by
  refine .bind rule.trans (rule.loadSegments elfData pml4 elfInfo.segments) fun _ => ?_
  refine .bind rule.trans (rule.required _ rule.allocatePage) fun userStack => ?_
  refine .bind rule.trans (rule.modifyMemory _) fun _ => ?_
  refine .bind rule.trans (rule.mapUserPage _ _ _ _) fun _ => ?_
  refine .bind rule.trans (rule.updateProcess slot fun proc => ⟨rfl, rfl⟩) fun _ => ?_
  refine .bind rule.trans (rule.required _ rule.allocatePage) fun kernelStack => ?_
  refine .bind rule.trans (rule.modifyMemory _) fun _ => ?_
  refine .bind rule.trans (rule.updateProcess slot fun proc => ⟨rfl, rfl⟩) fun _ => ?_
  refine .bind rule.trans (rule.mapUserPage _ _ _ _) fun _ => ?_
  refine .bind rule.trans (rule.updateProcess slot fun proc => ⟨rfl, rfl⟩) fun _ => ?_
  refine .bind rule.trans (rule.buildInitialKernelStack slot) fun _ => ?_
  exact fun kernel => ⟨kernel, rule.refl kernel, rfl⟩

theorem LaunchRule.launchIn (elfData : ElfData) (elfInfo : ElfLoadInfo) (slot : Nat) :
    Finishes rel (started slot) (launchIn mapTo elfData elfInfo slot) := by
  refine .bind rule.trans (rule.required _ rule.createUserPageTables) fun pml4 => ?_
  refine .bind rule.trans (rule.updateProcess slot fun proc => ⟨rfl, rfl⟩) fun _ => ?_
  exact rule.launchFrom elfData elfInfo slot pml4

/-- A launch fails along the relation, or it goes along it and starts the first unused process. -/
theorem LaunchRule.launch (elfData : ElfData) (kernel : Kernel) :
    (∃ stop after, launchInitProcess mapTo elfData kernel = .error stop after ∧ rel kernel after) ∨
    ∃ slot middle, launchInitProcess mapTo elfData kernel = .ok () (started slot middle) ∧
      unusedSlot kernel = some slot ∧ rel kernel middle := by
  cases parsed : parseElf elfData with
  | error stop =>
      exact .inl ⟨stop, kernel, launch_rejected parsed, rule.refl kernel⟩
  | ok elfInfo =>
      cases free : unusedSlot kernel with
      | none => exact .inl ⟨_, kernel, launch_full parsed free, rule.refl kernel⟩
      | some slot =>
          have finishes := rule.launchIn elfData elfInfo slot kernel
          rw [launch_entered parsed free]
          cases ended : Process.launchIn mapTo elfData elfInfo slot kernel with
          | error reason after =>
              rw [ended] at finishes
              exact .inl ⟨reason, after, rfl, finishes⟩
          | ok done after =>
              rw [ended] at finishes
              obtain ⟨middle, goes, rfl⟩ := finishes
              exact .inr ⟨slot, middle, rfl, rfl, goes⟩

end Rule

end ArcadiaOs.Process
