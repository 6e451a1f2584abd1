import ArcadiaOs.Process.ProcessTable

/-!
Whether process slots can be used again.  Each exit of a running process adds an exited
slot, no call removes one, and a launch only takes an unused slot.
-/

namespace ArcadiaOs.Process

open Lib Memory

/-- A slot that no live process holds can be taken by a launch. -/
def Reusable (kernel : Kernel) : Prop :=
  maxProcesses - slots ProcessState.live kernel ≤ slots isUnused kernel

theorem slots_partition (kernel : Kernel) :
    slots isUnused kernel + slots ProcessState.live kernel + slots isExited kernel =
      (states kernel).length := by
  simp only [slots]
  induction states kernel with
  | nil => rfl
  | cons state rest ih =>
      rw [List.countP_cons, List.countP_cons, List.countP_cons, List.length_cons]
      cases state <;> simp [isUnused, isExited, ProcessState.live] <;> omega

theorem exited_set {list : List ProcessState} {slot : Nat} {old new : ProcessState}
    (held : list[slot]? = some old) (alive : isExited old = false) :
    (list.set slot new).countP isExited =
      list.countP isExited + if isExited new then 1 else 0 := by
  obtain ⟨bound, here⟩ := List.getElem?_eq_some_iff.mp held
  rw [List.countP_set bound, here, alive]
  rfl

theorem runningSlot_state {kernel : Kernel} {slot : Nat} (found : runningSlot kernel = some slot) :
    (states kernel)[slot]? = some .running := by
  obtain ⟨bound, running, _⟩ := List.findIdx?_eq_some_iff_getElem.mp found
  rw [states, List.getElem?_map, List.getElem?_eq_getElem bound, Option.map_some,
    of_decide_eq_true running]

theorem unusedSlot_none {kernel : Kernel} : unusedSlot kernel = none ↔ slots isUnused kernel = 0 := by
  rw [unusedSlot, List.findIdx?_eq_none_iff, slots, List.countP_eq_zero]
  simp only [states, List.forall_mem_map, isUnused, Bool.not_eq_true]

section Step

variable (mapTo : MapTo) (kernel : Kernel) (call : ProcessCall)

def eventOf : Event Kernel ProcessCall (Option Stop) :=
  ⟨kernel, call, ((processMachine mapTo).step kernel call).1, ((processMachine mapTo).step kernel call).2⟩

theorem step_exited :
    slots isExited ((processMachine mapTo).step kernel call).2 =
      slots isExited kernel + (if Ends (eventOf mapTo kernel call) then 1 else 0) ∧
    (states ((processMachine mapTo).step kernel call).2).length = (states kernel).length := by
  cases call with
  | launch elfData =>
      change slots isExited (stateOf (launchInitProcess mapTo elfData kernel)) =
        slots isExited kernel + 0 ∧
        (states (stateOf (launchInitProcess mapTo elfData kernel))).length = _
      rcases launch_effect mapTo elfData kernel with ⟨stop, after, failed, kept⟩ |
        ⟨slot, after, done, unused, changed, _⟩
      · rw [failed]
        constructor
        · exact congrArg (List.countP isExited) kept.states
        · exact congrArg List.length kept.states
      · rw [done]
        constructor
        · rw [slots, stateOf, changed]
          exact exited_set unused rfl
        · rw [stateOf, changed, List.length_set]
  | exit code =>
      change slots isExited (stateOf (exitProcess code kernel)) =
        slots isExited kernel + (if (runningSlot kernel).isSome = true then 1 else 0) ∧
        (states (stateOf (exitProcess code kernel))).length = _
      obtain ⟨_, changed, _⟩ := exit_effect code kernel
      rw [slots, changed]
      cases found : runningSlot kernel with
      | none => exact ⟨rfl, rfl⟩
      | some slot =>
          constructor
          · exact exited_set (runningSlot_state found) rfl
          · exact List.length_set

end Step

theorem run_exited (mapTo : MapTo) (kernel : Kernel) (calls : List ProcessCall) :
    slots isExited ((processMachine mapTo).final kernel calls) =
      slots isExited kernel + ((processMachine mapTo).events kernel calls).countP Ends ∧
    (states ((processMachine mapTo).final kernel calls)).length = (states kernel).length := by
  induction calls generalizing kernel with
  | nil => exact ⟨rfl, rfl⟩
  | cons call rest ih =>
      obtain ⟨exited, length⟩ := step_exited mapTo kernel call
      obtain ⟨exitedRest, lengthRest⟩ := ih ((processMachine mapTo).step kernel call).2
      rw [Machine.final_cons, Machine.events_cons, List.countP_cons]
      refine ⟨?_, lengthRest.trans length⟩
      rw [exitedRest, exited, eventOf]
      omega

theorem Initial.slots {kernel : Kernel} (initial : Initial kernel) :
    Process.slots isExited kernel = 0 ∧ (states kernel).length = maxProcesses := by
  rw [Process.slots, states, initial.processTable]
  decide

/-- After any run from the start, a slot that no live process holds can be taken exactly when the run
has ended no process; and no slot is left once the ended and the live processes fill the table. -/
theorem slots_reusable_iff (mapTo : MapTo) {kernel : Kernel} (initial : Initial kernel)
    (calls : List ProcessCall) :
    (Reusable ((processMachine mapTo).final kernel calls) ↔
      ∀ event ∈ (processMachine mapTo).events kernel calls, Ends event = false) ∧
    (unusedSlot ((processMachine mapTo).final kernel calls) = none ↔
      ((processMachine mapTo).events kernel calls).countP Ends +
        slots ProcessState.live ((processMachine mapTo).final kernel calls) = maxProcesses) := by
  obtain ⟨exited, length⟩ := run_exited mapTo kernel calls
  obtain ⟨none, size⟩ := initial.slots
  have partition := slots_partition ((processMachine mapTo).final kernel calls)
  have ended : ((processMachine mapTo).events kernel calls).countP Ends = 0 ↔
      ∀ event ∈ (processMachine mapTo).events kernel calls, Ends event = false := by
    rw [List.countP_eq_zero]
    simp only [Bool.not_eq_true]
  constructor
  · rw [← ended, Reusable]
    omega
  · rw [unusedSlot_none]
    omega

def startKernel : Kernel :=
  { idleKernel 20 with processTable := List.replicate maxProcesses emptyProcess }

theorem startKernel_initial : Initial startKernel := ⟨rfl, rfl⟩

def roomyKernel : Kernel :=
  { idleKernel 40 with processTable := List.replicate maxProcesses emptyProcess }

/-- Two processes have been launched, and an exit before them ended none. -/
theorem slots_reusable_launched :
    slots ProcessState.live ((processMachine offsetPageTable).final roomyKernel
        [.exit 0, .launch oneByteElf, .launch oneByteElf]) = 2 ∧
      Reusable ((processMachine offsetPageTable).final roomyKernel
        [.exit 0, .launch oneByteElf, .launch oneByteElf]) := by
  have initial : Initial roomyKernel := ⟨rfl, rfl⟩
  have reusable := (slots_reusable_iff offsetPageTable initial
    [.exit 0, .launch oneByteElf, .launch oneByteElf]).1
  exact ⟨by decide +kernel, reusable.mpr (by decide +kernel)⟩

theorem final_lifetime {mapTo : MapTo} {elfData : ElfData} {kernel launched : Kernel}
    (done : launchInitProcess mapTo elfData kernel = .ok () launched) (code : Nat) :
    (processMachine mapTo).final kernel [.launch elfData, .exit code] =
      stateOf (exitProcess code launched) := by
  have first : ((processMachine mapTo).step kernel (.launch elfData)).2 = launched := by
    change stateOf (launchInitProcess mapTo elfData kernel) = launched
    rw [done]
    rfl
  rw [Machine.final_cons, first]
  rfl

/-- One life of a process: nothing is live afterwards, and seven slots are left of eight. -/
theorem exited_slot_lost :
    ∃ launched, launchInitProcess offsetPageTable oneByteElf startKernel = .ok () launched ∧
      slots ProcessState.live (stateOf (exitProcess 0 launched)) = 0 ∧
      slots isUnused (stateOf (exitProcess 0 launched)) = 7 ∧
      ¬Reusable ((processMachine offsetPageTable).final startKernel [.launch oneByteElf, .exit 0]) := by
  have run : returnsWith (fun launched => runningSlot launched == some 0 &&
      states launched == .running :: List.replicate 7 .unused)
      (launchInitProcess offsetPageTable oneByteElf startKernel) = true := by decide +kernel
  obtain ⟨_, launched, done, checked⟩ := returnsWith_ok run
  simp only [Bool.and_eq_true, beq_iff_eq] at checked
  obtain ⟨_, changed, _⟩ := exit_effect 0 launched
  rw [checked.1, checked.2] at changed
  have live : slots ProcessState.live (stateOf (exitProcess 0 launched)) = 0 := by
    rw [slots, changed]
    decide
  have unused : slots isUnused (stateOf (exitProcess 0 launched)) = 7 := by
    rw [slots, changed]
    decide
  refine ⟨launched, done, live, unused, ?_⟩
  rw [Reusable, final_lifetime done 0, live, unused]
  decide

end ArcadiaOs.Process
