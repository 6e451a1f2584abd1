import ArcadiaOs.Lib.Machine

/-!
Specifications that allow several answers to a call, their runs, and machines that follow one: where
each step of a machine is allowed, its runs are runs of the specification.
-/

namespace ArcadiaOs.Lib

universe u v w x

variable {State : Type u} {Call : Type v} {Answer : Type w} {Spec : Type x}

/-- Calls answered one after another as a specification allows. -/
inductive Performance (allows : Spec → Call → Answer → Spec → Prop) :
    Spec → List (Call × Answer) → Spec → Prop
  | nil {spec : Spec} : Performance allows spec [] spec
  | cons {spec next last : Spec} {call : Call} {answer : Answer} {rest : List (Call × Answer)} :
      allows spec call answer next → Performance allows next rest last →
      Performance allows spec ((call, answer) :: rest) last

namespace Performance

variable {allows : Spec → Call → Answer → Spec → Prop} {spec next last : Spec}
  {trace : List (Call × Answer)}

theorem single {call : Call} {answer : Answer} (allowed : allows spec call answer next) :
    Performance allows spec [(call, answer)] next := .cons allowed .nil

theorem append {more : List (Call × Answer)} (first : Performance allows spec trace next)
    (second : Performance allows next more last) :
    Performance allows spec (trace ++ more) last := by
  induction first with
  | nil => exact second
  | cons allowed _ ih => exact .cons allowed (ih second)

theorem invariant (property : Spec → Prop) (performance : Performance allows spec trace last)
    (kept : ∀ spec call answer next, (call, answer) ∈ trace → allows spec call answer next →
      property spec → property next) (initially : property spec) : property last := by
  induction performance with
  | nil => exact initially
  | cons allowed _ ih =>
      refine ih (fun spec call answer next member => ?_) ?_
      · exact kept spec call answer next (List.mem_cons_of_mem _ member)
      · exact kept _ _ _ _ List.mem_cons_self allowed initially

theorem answers (property : Call → Answer → Prop)
    (performance : Performance allows spec trace last)
    (holds : ∀ spec call answer next, allows spec call answer next → property call answer) :
    ∀ pair ∈ trace, property pair.1 pair.2 := by
  induction performance with
  | nil => simp
  | cons allowed _ ih => exact List.forall_mem_cons.mpr ⟨holds _ _ _ _ allowed, ih⟩

end Performance

namespace Machine

variable (machine : Machine State Call Answer)

def answered (state : State) (calls : List Call) : List (Call × Answer) :=
  (machine.events state calls).map fun event => (event.call, event.answer)

theorem answered_cons (state : State) (call : Call) (rest : List Call) :
    machine.answered state (call :: rest) = (call, (machine.step state call).1) ::
      machine.answered (machine.step state call).2 rest := rfl

theorem answered_calls (state : State) (calls : List Call) :
    (machine.answered state calls).map Prod.fst = calls := by
  induction calls generalizing state with
  | nil => rfl
  | cons call rest ih => rw [answered_cons, List.map_cons, ih]

theorem meets_imp {guard weaker : State → Call → Prop}
    (weakens : ∀ state call, guard state call → weaker state call) {state : State}
    {calls : List Call} (meets : machine.Meets guard state calls) :
    machine.Meets weaker state calls := by
  induction calls generalizing state with
  | nil => exact trivial
  | cons call rest ih => exact ⟨weakens _ _ meets.1, ih meets.2⟩

theorem meets_and {guard : State → Call → Prop} {listed : Call → Prop} {state : State}
    {calls : List Call} (meets : machine.Meets guard state calls)
    (all : ∀ call ∈ calls, listed call) :
    machine.Meets (fun state call => listed call ∧ guard state call) state calls := by
  induction calls generalizing state with
  | nil => exact trivial
  | cons call rest ih =>
      rw [List.forall_mem_cons] at all
      exact ⟨⟨all.1, meets.1⟩, ih meets.2 all.2⟩

/-- A run of guarded steps, each allowed from what its state stands for, is a run of the
specification. -/
theorem simulates {allows : Spec → Call → Answer → Spec → Prop} (stands : State → Spec)
    (holds : State → Prop) (guard : State → Call → Prop)
    (step : ∀ state call, holds state → guard state call →
      allows (stands state) call (machine.step state call).1 (stands (machine.step state call).2) ∧
        holds (machine.step state call).2)
    {state : State} {calls : List Call} (initially : holds state)
    (meets : machine.Meets guard state calls) :
    Performance allows (stands state) (machine.answered state calls)
      (stands (machine.final state calls)) ∧ holds (machine.final state calls) := by
  induction calls generalizing state with
  | nil => exact ⟨.nil, initially⟩
  | cons call rest ih =>
      obtain ⟨allowed, next⟩ := step state call initially meets.1
      obtain ⟨performance, finally'⟩ := ih next meets.2
      exact ⟨.cons allowed performance, finally'⟩

end Machine

end ArcadiaOs.Lib
