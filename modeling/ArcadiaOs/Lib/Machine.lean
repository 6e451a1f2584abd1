import Mathlib.Data.List.Basic

/-!
Deterministic machines driven by a list of calls: the events of a run, guarded
runs, and the induction rules that carry an invariant through a run.
-/

namespace ArcadiaOs.Lib

universe u v w

/-- A machine answers one call at a time and moves on to the next state. -/
structure Machine (State : Type u) (Call : Type v) (Answer : Type w) where
  step : State → Call → Answer × State

/-- One answered call of a run together with the states around it. -/
structure Event (State : Type u) (Call : Type v) (Answer : Type w) where
  before : State
  call : Call
  answer : Answer
  after : State

namespace Machine

variable {State : Type u} {Call : Type v} {Answer : Type w}
variable (machine : Machine State Call Answer)

def events : State → List Call → List (Event State Call Answer)
  | _, [] => []
  | state, call :: rest =>
      let next := machine.step state call
      ⟨state, call, next.1, next.2⟩ :: events next.2 rest

def final : State → List Call → State
  | state, [] => state
  | state, call :: rest => final (machine.step state call).2 rest

/-- Every call of the run meets the guard in the state it is made in. -/
def Meets (guard : State → Call → Prop) : State → List Call → Prop
  | _, [] => True
  | state, call :: rest => guard state call ∧ Meets guard (machine.step state call).2 rest

@[simp] theorem events_nil (state : State) : machine.events state [] = [] := rfl

@[simp] theorem events_cons (state : State) (call : Call) (rest : List Call) :
    machine.events state (call :: rest) =
      ⟨state, call, (machine.step state call).1, (machine.step state call).2⟩ ::
        machine.events (machine.step state call).2 rest := rfl

@[simp] theorem final_nil (state : State) : machine.final state [] = state := rfl

@[simp] theorem final_cons (state : State) (call : Call) (rest : List Call) :
    machine.final state (call :: rest) = machine.final (machine.step state call).2 rest := rfl

theorem final_append (state : State) (first second : List Call) :
    machine.final state (first ++ second) = machine.final (machine.final state first) second := by
  induction first generalizing state with
  | nil => rfl
  | cons call rest ih => exact ih _

theorem events_append (state : State) (first second : List Call) :
    machine.events state (first ++ second) =
      machine.events state first ++ machine.events (machine.final state first) second := by
  induction first generalizing state with
  | nil => rfl
  | cons call rest ih => exact congrArg _ (ih _)

theorem meets_append (guard : State → Call → Prop) (state : State) (first second : List Call) :
    machine.Meets guard state (first ++ second) ↔
      machine.Meets guard state first ∧ machine.Meets guard (machine.final state first) second := by
  induction first generalizing state with
  | nil => simp [Meets]
  | cons call rest ih =>
      simp only [List.cons_append, Meets, final_cons, ih]
      exact and_assoc.symm

theorem meets_trivial (state : State) (calls : List Call) :
    machine.Meets (fun _ _ => True) state calls := by
  induction calls generalizing state with
  | nil => exact trivial
  | cons call rest ih => exact ⟨trivial, ih _⟩

theorem meets_calls {allowed : Call → Prop} (state : State) {calls : List Call}
    (all : ∀ call ∈ calls, allowed call) : machine.Meets (fun _ call => allowed call) state calls := by
  induction calls generalizing state with
  | nil => exact trivial
  | cons call rest ih =>
      exact ⟨all call (by simp), ih _ fun later member => all later (by simp [member])⟩

/-- Two guards that agree wherever an invariant holds are met by the same runs, when the steps that
meet them keep the invariant. -/
theorem meets_congr (invariant : State → Prop) (left right : State → Call → Prop)
    (agree : ∀ state call, invariant state → (left state call ↔ right state call))
    (preserved : ∀ state call, invariant state → left state call →
      invariant (machine.step state call).2)
    (state : State) (calls : List Call) (initially : invariant state) :
    machine.Meets left state calls ↔ machine.Meets right state calls := by
  induction calls generalizing state with
  | nil => exact Iff.rfl
  | cons call rest ih =>
      rw [Meets, Meets, ← agree state call initially]
      exact and_congr_right fun met => ih _ (preserved state call initially met)

theorem last_event (state : State) (calls : List Call) (call : Call) :
    ⟨machine.final state calls, call, (machine.step (machine.final state calls) call).1,
      (machine.step (machine.final state calls) call).2⟩ ∈ machine.events state (calls ++ [call]) := by
  induction calls generalizing state with
  | nil => exact List.mem_singleton_self _
  | cons first rest ih => exact List.mem_cons_of_mem _ (ih _)

theorem exists_last_event (state : State) (calls : List Call) (call : Call)
    (property : Event State Call Answer → Prop)
    (holds : ∀ answer after, machine.step (machine.final state calls) call = (answer, after) →
      property ⟨machine.final state calls, call, answer, after⟩) :
    ∃ event ∈ machine.events state (calls ++ [call]), property event :=
  ⟨_, machine.last_event state calls call, holds _ _ rfl⟩

theorem event_step (state : State) (calls : List Call)
    (event : Event State Call Answer) (member : event ∈ machine.events state calls) :
    machine.step event.before event.call = (event.answer, event.after) := by
  induction calls generalizing state with
  | nil => simp at member
  | cons call rest ih =>
      simp only [events_cons, List.mem_cons] at member
      rcases member with first | later
      · subst first
        rfl
      · exact ih _ later

/-- An invariant that guarded steps preserve holds before every event of a guarded run, and so
does the guard. -/
theorem events_invariant (invariant : State → Prop) (guard : State → Call → Prop)
    (preserved : ∀ state call, invariant state → guard state call →
      invariant (machine.step state call).2)
    (state : State) (calls : List Call) (initially : invariant state)
    (meets : machine.Meets guard state calls) :
    ∀ event ∈ machine.events state calls,
      invariant event.before ∧ guard event.before event.call := by
  induction calls generalizing state with
  | nil => simp
  | cons call rest ih =>
      intro event member
      simp only [events_cons, List.mem_cons] at member
      rcases member with first | later
      · subst first
        exact ⟨initially, meets.1⟩
      · exact ih _ (preserved state call initially meets.1) meets.2 event later

theorem final_invariant (invariant : State → Prop) (guard : State → Call → Prop)
    (preserved : ∀ state call, invariant state → guard state call →
      invariant (machine.step state call).2)
    (state : State) (calls : List Call) (initially : invariant state)
    (meets : machine.Meets guard state calls) :
    invariant (machine.final state calls) := by
  induction calls generalizing state with
  | nil => exact initially
  | cons call rest ih => exact ih _ (preserved state call initially meets.1) meets.2

/-- What holds at the start of a run and not at its end is lost by one of its events. -/
theorem exists_loss (property : State → Prop) (state : State) (calls : List Call)
    (initially : property state) (lost : ¬property (machine.final state calls)) :
    ∃ event ∈ machine.events state calls, property event.before ∧ ¬property event.after := by
  induction calls generalizing state with
  | nil => exact absurd initially lost
  | cons call rest ih =>
      by_cases kept : property (machine.step state call).2
      · obtain ⟨event, member, loses⟩ := ih _ kept lost
        exact ⟨event, List.mem_cons_of_mem _ member, loses⟩
      · exact ⟨_, List.mem_cons_self, initially, kept⟩

/-! A law that reads the past of a run. -/

/-- Every call of the run obeys the law, given the events before it. -/
def Lawful (law : List (Event State Call Answer) → State → Call → Prop) :
    List (Event State Call Answer) → State → List Call → Prop
  | _, _, [] => True
  | past, state, call :: rest =>
      let next := machine.step state call
      law past state call ∧ Lawful law (past ++ [⟨state, call, next.1, next.2⟩]) next.2 rest

theorem lawful_append (law : List (Event State Call Answer) → State → Call → Prop)
    (past : List (Event State Call Answer)) (state : State) (first second : List Call) :
    machine.Lawful law past state (first ++ second) ↔ machine.Lawful law past state first ∧
      machine.Lawful law (past ++ machine.events state first) (machine.final state first) second := by
  induction first generalizing past state with
  | nil => simp [Lawful]
  | cons call rest ih =>
      simp only [List.cons_append, Lawful, final_cons, events_cons, ih, List.append_assoc,
        List.nil_append]
      exact and_assoc.symm

/-- A relation between the past and the state that every step keeps holds at the end of the run. -/
theorem history_invariant (invariant : List (Event State Call Answer) → State → Prop)
    (preserved : ∀ past state call, invariant past state →
      invariant (past ++ [⟨state, call, (machine.step state call).1, (machine.step state call).2⟩])
        (machine.step state call).2)
    (past : List (Event State Call Answer)) (state : State) (calls : List Call)
    (initially : invariant past state) :
    invariant (past ++ machine.events state calls) (machine.final state calls) := by
  induction calls generalizing past state with
  | nil =>
      rw [events_nil, List.append_nil]
      exact initially
  | cons call rest ih =>
      have later := ih _ _ (preserved past state call initially)
      rw [List.append_assoc] at later
      exact later

/-- Under such a relation, kept by the steps that obey one law, a run of them obeys another law where
each step does. -/
theorem lawful_of_lawful (guard law : List (Event State Call Answer) → State → Call → Prop)
    (invariant : List (Event State Call Answer) → State → Prop)
    (decided : ∀ past state call, invariant past state → guard past state call →
      law past state call)
    (preserved : ∀ past state call, invariant past state → guard past state call →
      invariant (past ++ [⟨state, call, (machine.step state call).1, (machine.step state call).2⟩])
        (machine.step state call).2)
    (past : List (Event State Call Answer)) (state : State) (calls : List Call)
    (initially : invariant past state) (guarded : machine.Lawful guard past state calls) :
    machine.Lawful law past state calls := by
  induction calls generalizing past state with
  | nil => exact trivial
  | cons call rest ih =>
      obtain ⟨here, later⟩ := guarded
      exact ⟨decided past state call initially here,
        ih _ _ (preserved past state call initially here) later⟩

theorem lawful_of_invariant (law : List (Event State Call Answer) → State → Call → Prop)
    (invariant : List (Event State Call Answer) → State → Prop)
    (decided : ∀ past state call, invariant past state → law past state call)
    (preserved : ∀ past state call, invariant past state →
      invariant (past ++ [⟨state, call, (machine.step state call).1, (machine.step state call).2⟩])
        (machine.step state call).2)
    (past : List (Event State Call Answer)) (state : State) (calls : List Call)
    (initially : invariant past state) : machine.Lawful law past state calls := by
  induction calls generalizing past state with
  | nil => exact trivial
  | cons call rest ih =>
      exact ⟨decided past state call initially, ih _ _ (preserved past state call initially)⟩

/-- Where a guard on the state decides the law in every state that an invariant of the past allows,
a run obeys the law exactly when it meets the guard. -/
theorem lawful_iff_meets {allowed : Call → Prop}
    (law : List (Event State Call Answer) → State → Call → Prop) (guard : State → Call → Prop)
    (invariant : List (Event State Call Answer) → State → Prop)
    (decided : ∀ past state call, invariant past state → allowed call →
      (law past state call ↔ guard state call))
    (preserved : ∀ past state call, invariant past state → allowed call → guard state call →
      invariant (past ++ [⟨state, call, (machine.step state call).1, (machine.step state call).2⟩])
        (machine.step state call).2)
    (past : List (Event State Call Answer)) (state : State) (calls : List Call)
    (initially : invariant past state) (all : ∀ call ∈ calls, allowed call) :
    machine.Lawful law past state calls ↔ machine.Meets guard state calls := by
  induction calls generalizing past state with
  | nil => exact Iff.rfl
  | cons call rest ih =>
      have here := all call (by simp)
      rw [Lawful, Meets, decided past state call initially here]
      refine and_congr_right fun met => ?_
      exact ih _ _ (preserved past state call initially here met)
        fun later member => all later (by simp [member])

end Machine

end ArcadiaOs.Lib
