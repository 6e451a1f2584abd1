import Mathlib.Init

/-!
Actions on a state that keep what they have done when they fail: how the outcome of a
sequence splits into the outcomes of its parts, and relations between the state before
and the state after that hold whatever the outcome is.
-/

namespace ArcadiaOs.Lib

section Outcome

variable {ε σ α β : Type}

def stateOf : EStateM.Result ε σ α → σ
  | .ok _ state => state
  | .error _ state => state

def returnsWith (check : σ → Bool) : EStateM.Result ε σ α → Bool
  | .ok _ state => check state
  | .error _ _ => false

theorem returnsWith_ok {check : σ → Bool} {result : EStateM.Result ε σ α}
    (passed : returnsWith check result = true) :
    ∃ value state, result = .ok value state ∧ check state = true := by
  cases result with
  | ok value state => exact ⟨value, state, rfl, passed⟩
  | error reason state => cases passed

def failsWith [DecidableEq ε] (reason : ε) (check : σ → Bool) : EStateM.Result ε σ α → Bool
  | .ok _ _ => false
  | .error why state => decide (why = reason) && check state

theorem failsWith_error [DecidableEq ε] {reason : ε} {check : σ → Bool}
    {result : EStateM.Result ε σ α} (failed : failsWith reason check result = true) :
    ∃ state, result = .error reason state ∧ check state = true := by
  cases result with
  | ok value state => cases failed
  | error why state =>
      simp only [failsWith, Bool.and_eq_true, decide_eq_true_eq] at failed
      exact ⟨state, by rw [failed.1], failed.2⟩

variable {first : EStateM ε σ α} {next : α → EStateM ε σ β} {state final : σ}

theorem bind_apply : (first >>= next) state =
    match first state with
    | .ok value middle => next value middle
    | .error reason middle => .error reason middle := rfl

theorem get_apply (state : σ) : (get : EStateM ε σ σ) state = .ok state state := rfl

theorem modify_apply (change : σ → σ) (state : σ) :
    (modify change : EStateM ε σ PUnit) state = .ok PUnit.unit (change state) := rfl

theorem bind_ok {value : β} : (first >>= next) state = .ok value final ↔
    ∃ result middle, first state = .ok result middle ∧ next result middle = .ok value final := by
  rw [bind_apply]
  constructor
  · intro done
    split at done
    · rename_i result middle ran
      exact ⟨result, middle, ran, done⟩
    · cases done
  · rintro ⟨result, middle, ran, done⟩
    rw [ran]
    exact done

theorem pure_ok {value result : α} :
    (pure value : EStateM ε σ α) state = .ok result final ↔ result = value ∧ final = state := by
  change EStateM.Result.ok value state = .ok result final ↔ _
  simp only [EStateM.Result.ok.injEq]
  exact ⟨fun same => ⟨same.1.symm, same.2.symm⟩, fun same => ⟨same.1.symm, same.2.symm⟩⟩

theorem modify_ok {change : σ → σ} {value : PUnit} :
    (modify change : EStateM ε σ PUnit) state = .ok value final ↔ final = change state := by
  change EStateM.Result.ok PUnit.unit (change state) = .ok value final ↔ _
  simp only [EStateM.Result.ok.injEq, true_and]
  exact ⟨Eq.symm, Eq.symm⟩

def StopsWith (reason : ε) : EStateM.Result ε σ α → Prop
  | .ok _ _ => False
  | .error why _ => why = reason

variable {reason : ε}

theorem bind_stops : StopsWith reason ((first >>= next) state) ↔
    StopsWith reason (first state) ∨
      ∃ value middle, first state = .ok value middle ∧ StopsWith reason (next value middle) := by
  rw [bind_apply]
  cases ran : first state with
  | ok value middle =>
      constructor
      · exact fun stops => .inr ⟨value, middle, rfl, stops⟩
      · rintro (stops | ⟨_, _, same, stops⟩)
        · exact stops.elim
        · obtain ⟨rfl, rfl⟩ := EStateM.Result.ok.inj same
          exact stops
  | error why middle =>
      constructor
      · exact fun stops => .inl stops
      · rintro (stops | ⟨_, _, same, _⟩)
        · exact stops
        · cases same

/-- What holds of the outcome: one property of a success, one of a failure. -/
inductive Yields (good : α → σ → Prop) (bad : ε → σ → Prop) : EStateM.Result ε σ α → Prop
  | ok {value : α} {state : σ} (reached : good value state) : Yields good bad (.ok value state)
  | error {reason : ε} {state : σ} (failed : bad reason state) : Yields good bad (.error reason state)

variable {good goal : α → σ → Prop} {bad worse : ε → σ → Prop}

theorem Yields.mono {result : EStateM.Result ε σ α} (yields : Yields good bad result)
    (reached : ∀ value state, good value state → goal value state)
    (failed : ∀ reason state, bad reason state → worse reason state) : Yields goal worse result := by
  cases yields with
  | ok here => exact .ok (reached _ _ here)
  | error here => exact .error (failed _ _ here)

theorem Yields.bind {passed : β → σ → Prop} (here : Yields good bad (first state))
    (goes : ∀ value middle, good value middle → Yields passed worse (next value middle))
    (failed : ∀ reason middle, bad reason middle → worse reason middle) :
    Yields passed worse ((first >>= next) state) := by
  rw [bind_apply]
  cases ran : first state with
  | ok value middle =>
      rw [ran] at here
      cases here with
      | ok reached => exact goes value middle reached
  | error reason middle =>
      rw [ran] at here
      cases here with
      | error stopped => exact .error (failed reason middle stopped)

end Outcome

section Along

variable {ε σ α β : Type} {rel : σ → σ → Prop}

/-- Whatever its outcome, the action moves the state along the relation. -/
def Along (rel : σ → σ → Prop) (action : EStateM ε σ α) : Prop :=
  ∀ state, rel state (stateOf (action state))

theorem Along.pure (refl : ∀ state, rel state state) (value : α) :
    Along rel (Pure.pure value : EStateM ε σ α) := fun state => refl state

theorem Along.throw (refl : ∀ state, rel state state) (reason : ε) :
    Along rel (throw reason : EStateM ε σ α) := fun state => refl state

theorem Along.modify {change : σ → σ} (moves : ∀ state, rel state (change state)) :
    Along rel (modify change : EStateM ε σ PUnit) := fun state => moves state

theorem Along.bind (trans : ∀ before middle after, rel before middle → rel middle after →
      rel before after)
    {first : EStateM ε σ α} {next : α → EStateM ε σ β} (moves : Along rel first)
    (goes : ∀ value, Along rel (next value)) : Along rel (first >>= next) := by
  intro state
  have here := moves state
  rw [bind_apply]
  cases ran : first state with
  | ok value middle =>
      rw [ran] at here
      exact trans _ _ _ here (goes value middle)
  | error reason middle =>
      rw [ran] at here
      exact here

theorem Along.after (rel : σ → σ → Prop) {first : EStateM ε σ α} {next : α → EStateM ε σ β}
    {state middle : σ} {value : α} (ran : first state = .ok value middle) (goes : Along rel (next value)) :
    rel middle (stateOf ((first >>= next) state)) := by
  rw [bind_apply, ran]
  exact goes middle

end Along

end ArcadiaOs.Lib
