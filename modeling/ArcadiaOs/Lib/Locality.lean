import ArcadiaOs.Lib.Footprint

/-!
Actions that stay within a part of the state: they keep the rest as it is, and what they
answer and leave in the part depends on the part alone.
-/

namespace ArcadiaOs.Lib

variable {ε σ α β : Type}

def SameOutcome (agree : σ → σ → Prop) : EStateM.Result ε σ α → EStateM.Result ε σ α → Prop
  | .ok value state, .ok other state' => value = other ∧ agree state state'
  | .error reason state, .error other state' => reason = other ∧ agree state state'
  | _, _ => False

/-- From a state, the action keeps what lies outside of a part and depends on the part only.  States
that agree have the same part; the second relation says that the rest is kept. -/
structure LocalAt (agree kept : σ → σ → Prop) (action : EStateM ε σ α) (state : σ) : Prop where
  keeps : kept state (stateOf (action state))
  agrees : ∀ other, agree state other → SameOutcome agree (action state) (action other)

namespace LocalAt

variable {agree kept : σ → σ → Prop} {state : σ}

theorem pure (refl : ∀ state, kept state state) (value : α) :
    LocalAt agree kept (Pure.pure value : EStateM ε σ α) state :=
  ⟨refl state, fun _ same => ⟨rfl, same⟩⟩

theorem throw (refl : ∀ state, kept state state) (reason : ε) :
    LocalAt agree kept (throw reason : EStateM ε σ α) state :=
  ⟨refl state, fun _ same => ⟨rfl, same⟩⟩

theorem bind (trans : ∀ before middle after, kept before middle → kept middle after →
      kept before after)
    {first : EStateM ε σ α} {next : α → EStateM ε σ β} (here : LocalAt agree kept first state)
    (later : ∀ value middle, first state = .ok value middle →
      LocalAt agree kept (next value) middle) :
    LocalAt agree kept (first >>= next) state := by
  constructor
  · have keeps := here.keeps
    rw [bind_apply]
    cases ran : first state with
    | ok value middle =>
        rw [ran] at keeps
        exact trans _ _ _ keeps (later value middle ran).keeps
    | error reason middle =>
        rw [ran] at keeps
        exact keeps
  · intro other same
    have outcome := here.agrees other same
    rw [bind_apply, bind_apply]
    cases ran : first state with
    | ok value middle =>
        rw [ran] at outcome
        cases ranOther : first other with
        | ok value' middle' =>
            rw [ranOther] at outcome
            obtain ⟨rfl, agreeing⟩ := outcome
            exact (later value middle ran).agrees middle' agreeing
        | error reason middle' =>
            rw [ranOther] at outcome
            exact outcome.elim
    | error reason middle =>
        rw [ran] at outcome
        cases ranOther : first other with
        | ok value' middle' =>
            rw [ranOther] at outcome
            exact outcome.elim
        | error reason' middle' =>
            rw [ranOther] at outcome
            exact outcome

end LocalAt

end ArcadiaOs.Lib
