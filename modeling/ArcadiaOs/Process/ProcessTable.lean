import ArcadiaOs.Lib.Machine
import ArcadiaOs.Process.LaunchFailure

/-!
The process table over runs of launches and exits.  `launch_init_process` takes an unused
slot and leaves the pid in it as it is; `exit_process` marks the slot as exited, and nothing
makes it unused again.
-/

namespace ArcadiaOs.Process

open Lib Memory

inductive ProcessCall
  | launch (elfData : ElfData)
  | exit (code : Nat)

def stopOf : EStateM.Result Stop Kernel Unit → Option Stop
  | .ok _ _ => none
  | .error stop _ => some stop

def ProcessCall.run (mapTo : MapTo) : ProcessCall → Launch Unit
  | .launch elfData => launchInitProcess mapTo elfData
  | .exit code => exitProcess code

def processMachine (mapTo : MapTo) : Machine Kernel ProcessCall (Option Stop) where
  step kernel call := (stopOf (call.run mapTo kernel), stateOf (call.run mapTo kernel))

def maxProcesses : Nat := 8

def emptyProcess : ProcessControlBlock where
  pid := 0
  state := .unused
  kernelRsp := 0
  userRsp := 0
  pml4Phys := 0
  elfEntry := 0
  exitCode := 0
  kernelStackPhys := 0
  userStackPhys := 0
  sleepUntil := 0

/-- The statics of `process/mod.rs` before the first launch. -/
structure Initial (kernel : Kernel) : Prop where
  processTable : kernel.processTable = List.replicate maxProcesses emptyProcess
  currentPid : kernel.currentPid = 0

def ProcessState.live : ProcessState → Bool
  | .unused | .exited => false
  | .ready | .running | .blocked | .sleeping => true

def states (kernel : Kernel) : List ProcessState := kernel.processTable.map fun proc => proc.state

def pids (kernel : Kernel) : List Nat := kernel.processTable.map fun proc => proc.pid

def slots (test : ProcessState → Bool) (kernel : Kernel) : Nat := (states kernel).countP test

def isUnused (state : ProcessState) : Bool := state = .unused

def isExited (state : ProcessState) : Bool := state = .exited

def Ends (event : Event Kernel ProcessCall (Option Stop)) : Bool :=
  match event.call with
  | .launch _ => false
  | .exit _ => (runningSlot event.before).isSome

def Starts (event : Event Kernel ProcessCall (Option Stop)) : Bool :=
  match event.call with
  | .launch _ => event.answer.isNone
  | .exit _ => false

/-! What one call does to the states and the pids. -/

structure Kept (before after : Kernel) : Prop where
  pids : pids after = pids before
  states : states after = states before
  currentPid : after.currentPid = before.currentPid

theorem map_modify_same {α β : Type} (field : α → β) {change : α → α} (list : List α) (slot : Nat)
    (same : ∀ value, field (change value) = field value) :
    (list.modify slot change).map field = list.map field := by
  apply List.ext_getElem?
  intro index
  rw [List.getElem?_map, List.getElem?_map, List.getElem?_modify]
  cases list[index]? with
  | none => rfl
  | some value =>
      by_cases here : slot = index
      · simp [here, same]
      · simp [here]

theorem Kept.rule (mapTo : MapTo) : LaunchRule mapTo Kept where
  refl := fun _ => ⟨rfl, rfl, rfl⟩
  trans := fun _ _ _ first second =>
    ⟨second.pids.trans first.pids, second.states.trans first.states,
      second.currentPid.trans first.currentPid⟩
  allocated := fun _ => ⟨rfl, rfl, rfl⟩
  written := fun _ _ => ⟨rfl, rfl, rfl⟩
  mapped := fun _ _ _ _ _ _ _ _ _ => ⟨rfl, rfl, rfl⟩
  filled := fun kernel slot _ same =>
    ⟨map_modify_same _ kernel.processTable slot fun proc => (same proc).1,
      map_modify_same _ kernel.processTable slot fun proc => (same proc).2, rfl⟩

theorem states_modify (kernel : Kernel) (slot : Nat) {change : ProcessControlBlock → ProcessControlBlock}
    {state : ProcessState} (becomes : ∀ proc, (change proc).state = state) :
    (kernel.processTable.modify slot change).map (fun proc => proc.state) =
      (states kernel).set slot state := by
  apply List.ext_getElem?
  intro index
  rw [states, List.getElem?_map, List.getElem?_modify, List.getElem?_set, List.getElem?_map,
    List.length_map]
  by_cases here : slot = index
  · subst here
    by_cases bound : slot < kernel.processTable.length
    · simp [bound, becomes]
    · simp [bound]
  · simp [here]

theorem pids_started (slot : Nat) (kernel : Kernel) : pids (started slot kernel) = pids kernel :=
  map_modify_same (fun proc : ProcessControlBlock => proc.pid) kernel.processTable slot fun _ => rfl

/-- What a launch does: nothing to the states when it fails, and it turns an unused slot into a
running one when it succeeds. -/
theorem launch_effect (mapTo : MapTo) (elfData : ElfData) (kernel : Kernel) :
    (∃ stop after, launchInitProcess mapTo elfData kernel = .error stop after ∧ Kept kernel after) ∨
    ∃ slot after, launchInitProcess mapTo elfData kernel = .ok () after ∧
      (states kernel)[slot]? = some .unused ∧ states after = (states kernel).set slot .running ∧
      pids after = pids kernel ∧ after.currentPid = ((pids kernel)[slot]?).getD 0 := by
  rcases (Kept.rule mapTo).launch elfData kernel with failed | ⟨slot, middle, done, free, kept⟩
  · exact .inl failed
  · refine .inr ⟨slot, started slot middle, done, ?_, ?_, ?_, ?_⟩
    · obtain ⟨bound, unused, _⟩ := List.findIdx?_eq_some_iff_getElem.mp free
      rw [states, List.getElem?_map, List.getElem?_eq_getElem bound, Option.map_some,
        of_decide_eq_true unused]
    · rw [← kept.states]
      exact states_modify middle slot fun proc => rfl
    · exact (pids_started slot middle).trans kept.pids
    · rw [← kept.pids, ← pids_started slot middle, pids, List.getElem?_map]
      rfl

def Resets (before after : Kernel) : Prop :=
  pids after = pids before ∧ states after = states before ∧
    (after.currentPid = 0 ∨ after.currentPid = before.currentPid)

theorem Resets.refl (kernel : Kernel) : Resets kernel kernel := ⟨rfl, rfl, .inr rfl⟩

theorem Resets.trans (before middle after : Kernel) (first : Resets before middle)
    (second : Resets middle after) : Resets before after := by
  refine ⟨second.1.trans first.1, second.2.1.trans first.2.1, ?_⟩
  rcases second.2.2 with reset | same
  · exact .inl reset
  · rw [same]
    exact first.2.2

theorem freePages_resets (frees : List Nat) : Along Resets (freePages frees) := by
  induction frees with
  | nil => exact fun kernel => .refl kernel
  | cons phys rest ih =>
      intro kernel
      rw [freePages]
      cases PhysAddr.new? phys with
      | none => exact .refl kernel
      | some addr => exact ih { kernel with pmm := (kernel.pmm.freeFrame addr).2 }

/-- What an exit does: the running slot becomes an exited one, and no process is current, unless a
free has panicked. -/
theorem exit_effect (code : Nat) (kernel : Kernel) :
    pids (stateOf (exitProcess code kernel)) = pids kernel ∧
      states (stateOf (exitProcess code kernel)) = (match runningSlot kernel with
        | none => states kernel
        | some slot => (states kernel).set slot .exited) ∧
      ((stateOf (exitProcess code kernel)).currentPid = 0 ∨
        (stateOf (exitProcess code kernel)).currentPid = kernel.currentPid) := by
  simp only [exitProcess]
  cases running : runningSlot kernel with
  | none => exact ⟨rfl, rfl, .inl rfl⟩
  | some slot =>
      obtain ⟨bound, _⟩ := List.findIdx?_eq_some_iff_getElem.mp running
      simp only [List.getElem?_eq_getElem bound]
      have finishes : Along Resets (do
          freePages (exitFrees kernel.memory kernel.processTable[slot])
          modify fun kernel => { kernel with currentPid := 0 } : Launch Unit) := by
        refine .bind Resets.trans (freePages_resets _) fun _ => ?_
        exact .modify fun kernel => ⟨rfl, rfl, .inl rfl⟩
      obtain ⟨samePids, sameStates, current⟩ := finishes { kernel with
        processTable := kernel.processTable.set slot
          { kernel.processTable[slot] with
            state := .exited
            exitCode := code
            kernelRsp := 0
            kernelStackPhys := 0
            userStackPhys := 0 } }
      refine ⟨samePids.trans ?_, sameStates.trans ?_, current⟩
      · have inside : slot < (pids kernel).length := by rwa [pids, List.length_map]
        have own : kernel.processTable[slot].pid = (pids kernel)[slot] := (List.getElem_map _).symm
        rw [pids, List.map_set]
        change (pids kernel).set slot kernel.processTable[slot].pid = pids kernel
        rw [own, List.set_getElem_self]
      · rw [states, List.map_set]
        rfl

end ArcadiaOs.Process
