import ArcadiaOs.Process.SlotReuse

/-!
The identity of processes.  No call gives a process a pid of its own: the table starts with
pid 0 in every slot, and a launch copies the pid of its slot to `CURRENT_PID`.
-/

namespace ArcadiaOs.Process

open Lib Memory

/-- Processes are told apart by their pids, and the current one is the one that runs. -/
structure Identified (kernel : Kernel) : Prop where
  running : (kernel.processTable.filter fun proc => proc.state = .running).length ≤ 1
  nonzero : ∀ proc ∈ kernel.processTable, proc.state ≠ .unused → proc.pid ≠ 0
  distinct : ((kernel.processTable.filter fun proc => proc.state ≠ .unused).map fun proc => proc.pid).Nodup
  current : ∀ proc ∈ kernel.processTable, proc.state = .running → kernel.currentPid = proc.pid
  idle : kernel.currentPid = 0 ↔ ∀ proc ∈ kernel.processTable, proc.state ≠ .running

def Idle (kernel : Kernel) : Prop := ∀ proc ∈ kernel.processTable, proc.state = .unused

structure Anonymous (kernel : Kernel) : Prop where
  pids : ∀ pid ∈ pids kernel, pid = 0
  currentPid : kernel.currentPid = 0

theorem idle_iff (kernel : Kernel) : Idle kernel ↔ ∀ state ∈ states kernel, state = .unused := by
  rw [states, List.forall_mem_map, Idle]

section Step

variable (mapTo : MapTo) {kernel : Kernel} (call : ProcessCall)

theorem step_anonymous (anonymous : Anonymous kernel) :
    Anonymous ((processMachine mapTo).step kernel call).2 := by
  obtain ⟨noPids, noCurrent⟩ := anonymous
  cases call with
  | launch elfData =>
      change Anonymous (stateOf (launchInitProcess mapTo elfData kernel))
      rcases launch_effect mapTo elfData kernel with ⟨stop, after, failed, kept⟩ |
        ⟨slot, after, done, _, _, same, current⟩
      · rw [failed]
        exact ⟨by rw [stateOf, kept.pids]; exact noPids, kept.currentPid.trans noCurrent⟩
      · rw [done]
        refine ⟨by rw [stateOf, same]; exact noPids, current.trans ?_⟩
        cases held : (Process.pids kernel)[slot]? with
        | none => rfl
        | some pid => exact noPids pid (List.mem_of_getElem? held)
  | exit code =>
      change Anonymous (stateOf (exitProcess code kernel))
      obtain ⟨same, _, current⟩ := exit_effect code kernel
      refine ⟨by rw [same]; exact noPids, ?_⟩
      rcases current with reset | unchanged
      · exact reset
      · exact unchanged.trans noCurrent

theorem step_idle : Idle ((processMachine mapTo).step kernel call).2 ↔
    Idle kernel ∧ Starts (eventOf mapTo kernel call) = false := by
  simp only [idle_iff]
  cases call with
  | launch elfData =>
      change (∀ state ∈ states (stateOf (launchInitProcess mapTo elfData kernel)), state = _) ↔
        _ ∧ (stopOf (launchInitProcess mapTo elfData kernel)).isNone = false
      rcases launch_effect mapTo elfData kernel with ⟨stop, after, failed, kept⟩ |
        ⟨slot, after, done, unused, changed, _⟩
      · rw [failed, stateOf, kept.states]
        exact (and_iff_left rfl).symm
      · rw [done, stateOf, changed]
        obtain ⟨bound, _⟩ := List.getElem?_eq_some_iff.mp unused
        refine iff_of_false (fun idle => ?_) fun both => Bool.false_ne_true both.2.symm
        have taken := idle _ (List.mem_set bound .running)
        cases taken
  | exit code =>
      change (∀ state ∈ states (stateOf (exitProcess code kernel)), state = _) ↔ _ ∧ false = false
      obtain ⟨_, changed, _⟩ := exit_effect code kernel
      rw [changed]
      cases found : runningSlot kernel with
      | none => exact (and_iff_left rfl).symm
      | some slot =>
          have running := runningSlot_state found
          obtain ⟨bound, _⟩ := List.getElem?_eq_some_iff.mp running
          refine iff_of_false (fun idle => ?_) fun both => ?_
          · have exited := idle _ (List.mem_set bound .exited)
            cases exited
          · have unused := both.1 _ (List.mem_of_getElem? running)
            cases unused

end Step

theorem run_anonymous (mapTo : MapTo) {kernel : Kernel} (anonymous : Anonymous kernel)
    (calls : List ProcessCall) : Anonymous ((processMachine mapTo).final kernel calls) :=
  (processMachine mapTo).final_invariant Anonymous (fun _ _ => True)
    (fun _ call here _ => step_anonymous mapTo call here) kernel calls anonymous
    ((processMachine mapTo).meets_trivial kernel calls)

theorem run_idle (mapTo : MapTo) (kernel : Kernel) (calls : List ProcessCall) :
    Idle ((processMachine mapTo).final kernel calls) ↔
      Idle kernel ∧ ∀ event ∈ (processMachine mapTo).events kernel calls, Starts event = false := by
  induction calls generalizing kernel with
  | nil => simp
  | cons call rest ih =>
      rw [Machine.final_cons, Machine.events_cons, List.forall_mem_cons, ih, step_idle, and_assoc]
      rfl

theorem Anonymous.identified_iff {kernel : Kernel} (anonymous : Anonymous kernel) :
    Identified kernel ↔ Idle kernel := by
  obtain ⟨noPids, noCurrent⟩ := anonymous
  constructor
  · intro identified proc member
    by_contra taken
    exact identified.nonzero proc member taken (noPids _ (List.mem_map.mpr ⟨proc, member, rfl⟩))
  · intro idle
    have none : ∀ proc ∈ kernel.processTable, proc.state ≠ .running := by
      intro proc member running
      rw [idle proc member] at running
      cases running
    have noRunning : (kernel.processTable.filter fun proc => proc.state = .running) = [] := by
      apply List.filter_eq_nil_iff.mpr
      intro proc member running
      exact none proc member (of_decide_eq_true running)
    have noTaken : (kernel.processTable.filter fun proc => proc.state ≠ .unused) = [] := by
      apply List.filter_eq_nil_iff.mpr
      intro proc member taken
      exact of_decide_eq_true taken (idle proc member)
    constructor
    · rw [noRunning]
      exact Nat.zero_le 1
    · exact fun proc member taken => absurd (idle proc member) taken
    · rw [noTaken]
      exact List.nodup_nil
    · exact fun proc member running => absurd running (none proc member)
    · exact iff_of_true noCurrent none

theorem Initial.anonymous {kernel : Kernel} (initial : Initial kernel) : Anonymous kernel := by
  refine ⟨?_, initial.currentPid⟩
  rw [pids, initial.processTable]
  decide

theorem Initial.idle {kernel : Kernel} (initial : Initial kernel) : Idle kernel := by
  rw [Idle, initial.processTable]
  decide

/-- After any run from the start, processes are identified exactly while no slot has been taken: in
the runs that have started no process. -/
theorem process_identity_iff (mapTo : MapTo) {kernel : Kernel} (initial : Initial kernel)
    (calls : List ProcessCall) :
    (Identified ((processMachine mapTo).final kernel calls) ↔
      Idle ((processMachine mapTo).final kernel calls)) ∧
    (Idle ((processMachine mapTo).final kernel calls) ↔
      ∀ event ∈ (processMachine mapTo).events kernel calls, Starts event = false) := by
  constructor
  · exact (run_anonymous mapTo initial.anonymous calls).identified_iff
  · exact (run_idle mapTo kernel calls).trans (and_iff_right initial.idle)

/-- Two files without an ELF header are refused, and an exit between them ends nothing. -/
def refusedCalls : List ProcessCall :=
  [.launch ⟨[], fun _ => 0, by decide⟩, .exit 0, .launch ⟨[0x7F], fun _ => 0, by decide⟩]

theorem process_identity_refused :
    Identified ((processMachine offsetPageTable).final startKernel refusedCalls) := by
  have identity := process_identity_iff offsetPageTable startKernel_initial refusedCalls
  exact identity.1.mpr (identity.2.mpr (by decide +kernel))

theorem launched_without_pid :
    ¬Identified ((processMachine offsetPageTable).final startKernel [.launch oneByteElf]) := by
  have run : ((processMachine offsetPageTable).final startKernel
      [.launch oneByteElf]).processTable.any (fun proc => proc.state = .running && proc.pid = 0) =
      true := by decide +kernel
  intro identified
  obtain ⟨proc, member, fields⟩ := List.any_eq_true.mp run
  simp only [Bool.and_eq_true, decide_eq_true_eq] at fields
  have taken : proc.state ≠ .unused := by
    rw [fields.1]
    decide
  exact identified.nonzero proc member taken fields.2

end ArcadiaOs.Process
