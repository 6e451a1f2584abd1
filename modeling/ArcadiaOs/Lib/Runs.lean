import Mathlib.Data.Nat.Count
import Mathlib.Data.Set.Card
import Mathlib.Order.Bounds.Basic

/-!
Runs of neighbouring places that are all inside a set: how many maximal runs there are
below a bound and how long the longest one is, place by place from the left.
-/

namespace ArcadiaOs.Lib

/-- All the places from `start` on, `length` of them, are inside. -/
def Run (inside : Nat → Prop) (start length : Nat) : Prop :=
  ∀ place, start ≤ place → place < start + length → inside place

/-- A maximal run begins at the place. -/
def BeginsRun (inside : Nat → Prop) (place : Nat) : Prop :=
  inside place ∧ (place = 0 ∨ ¬inside (place - 1))

instance (inside : Nat → Prop) [DecidablePred inside] : DecidablePred (BeginsRun inside) :=
  fun _ => inferInstanceAs (Decidable (_ ∧ _))

def runCount (inside : Nat → Prop) [DecidablePred inside] (bound : Nat) : Nat :=
  Nat.count (BeginsRun inside) bound

def runLengths (inside : Nat → Prop) (bound : Nat) : Set Nat :=
  { length | ∃ start, start + length ≤ bound ∧ Run inside start length }

/-- The last `length` places below a bound are a run that cannot begin earlier. -/
structure Trailing (inside : Nat → Prop) (bound length : Nat) : Prop where
  le : length ≤ bound
  run : Run inside (bound - length) length
  before : length < bound → ¬inside (bound - length - 1)

section

variable {inside : Nat → Prop} {bound length longest : Nat}

theorem Trailing.zero (inside : Nat → Prop) : Trailing inside 0 0 := by
  constructor
  · exact Nat.le_refl 0
  · intro place above below
    omega
  · intro positive
    omega

theorem Trailing.extend (trailing : Trailing inside bound length) (here : inside bound) :
    Trailing inside (bound + 1) (length + 1) := by
  have le := trailing.le
  have same : bound + 1 - (length + 1) = bound - length := Nat.add_sub_add_right bound 1 length
  constructor
  · omega
  · intro place above below
    by_cases last : place = bound
    · rw [last]
      exact here
    · exact trailing.run place (by omega) (by omega)
  · intro room
    rw [same]
    exact trailing.before (by omega)

theorem Trailing.cut (absent : ¬inside bound) : Trailing inside (bound + 1) 0 := by
  constructor
  · exact Nat.zero_le _
  · intro place above below
    omega
  · exact fun _ => absent

theorem Trailing.begins_iff (trailing : Trailing inside bound length) :
    BeginsRun inside bound ↔ inside bound ∧ length = 0 := by
  have le := trailing.le
  refine and_congr_right fun _ => ?_
  constructor
  · intro first
    by_contra positive
    have last := trailing.run (bound - 1) (by omega) (by omega)
    rcases first with zero | absent
    · omega
    · exact absent last
  · rintro rfl
    by_cases zero : bound = 0
    · exact .inl zero
    · exact .inr (trailing.before (by omega))

theorem runLengths_zero (inside : Nat → Prop) : IsGreatest (runLengths inside 0) 0 := by
  constructor
  · exact ⟨0, Nat.le_refl 0, fun place above below => by omega⟩
  · rintro length ⟨start, fits, _⟩
    omega

theorem runLengths_mono {larger : Nat} (le : bound ≤ larger) :
    runLengths inside bound ⊆ runLengths inside larger := by
  rintro length ⟨start, fits, run⟩
  exact ⟨start, Nat.le_trans fits le, run⟩

theorem longest_extend (greatest : IsGreatest (runLengths inside bound) longest)
    (trailing : Trailing inside bound length) (here : inside bound) :
    IsGreatest (runLengths inside (bound + 1)) (max longest (length + 1)) := by
  have grown := trailing.extend here
  have le := trailing.le
  constructor
  · rcases Nat.le_total longest (length + 1) with shorter | longer
    · rw [Nat.max_eq_right shorter]
      exact ⟨_, Nat.le_of_eq (Nat.sub_add_cancel grown.le), grown.run⟩
    · rw [Nat.max_eq_left longer]
      exact runLengths_mono (Nat.le_succ bound) greatest.1
  · rintro other ⟨start, fits, run⟩
    by_cases below : start + other ≤ bound
    · exact Nat.le_trans (greatest.2 ⟨start, below, run⟩) (Nat.le_max_left _ _)
    · refine Nat.le_trans ?_ (Nat.le_max_right _ _)
      by_contra longer
      exact trailing.before (by omega) (run _ (by omega) (by omega))

theorem longest_cut (greatest : IsGreatest (runLengths inside bound) longest) (absent : ¬inside bound) :
    IsGreatest (runLengths inside (bound + 1)) longest := by
  constructor
  · exact runLengths_mono (Nat.le_succ bound) greatest.1
  · rintro other ⟨start, fits, run⟩
    by_cases below : start + other ≤ bound
    · exact greatest.2 ⟨start, below, run⟩
    · by_cases empty : other = 0
      · omega
      · exact absurd (run bound (by omega) (by omega)) absent

end

/-- A run below a bound that reaches as far as it can in both directions. -/
structure MaximalRun (inside : Nat → Prop) (bound start length : Nat) : Prop where
  positive : 0 < length
  fits : start + length ≤ bound
  run : Run inside start length
  before : start = 0 ∨ ¬inside (start - 1)
  behind : start + length = bound ∨ ¬inside (start + length)

section

variable {inside : Nat → Prop} {bound start length longest : Nat}

theorem MaximalRun.begins (maximal : MaximalRun inside bound start length) :
    start < bound ∧ BeginsRun inside start := by
  have positive := maximal.positive
  have fits := maximal.fits
  exact ⟨by omega, maximal.run start (Nat.le_refl _) (by omega), maximal.before⟩

theorem MaximalRun.le_of_run {other : Nat} (maximal : MaximalRun inside bound start length)
    (fits : start + other ≤ bound) (run : Run inside start other) : other ≤ length := by
  by_contra longer
  rcases maximal.behind with last | absent
  · omega
  · exact absent (run _ (by omega) (by omega))

theorem MaximalRun.length_unique {other : Nat} (left : MaximalRun inside bound start length)
    (right : MaximalRun inside bound start other) : length = other :=
  Nat.le_antisymm (right.le_of_run left.fits left.run) (left.le_of_run right.fits right.run)

theorem BeginsRun.maximal (begins : BeginsRun inside start) (below : start < bound) :
    ∃ length, MaximalRun inside bound start length := by
  classical
  -- the length is the distance to the first place that ends the run
  have stops : ∃ length, start + length = bound ∨ ¬inside (start + length) :=
    ⟨bound - start, .inl (by omega)⟩
  have minimal := fun shorter => @Nat.find_min _ _ stops shorter
  refine ⟨Nat.find stops, ?_, ?_, ?_, begins.2, Nat.find_spec stops⟩
  · rw [Nat.pos_iff_ne_zero, Ne, Nat.find_eq_zero]
    rintro (last | absent)
    · omega
    · exact absent begins.1
  · have reached : Nat.find stops ≤ bound - start := Nat.find_min' stops (.inl (by omega))
    omega
  · intro place above inner
    have going := minimal (place - start) (by omega)
    rw [not_or, not_not, Nat.add_sub_of_le above] at going
    exact going.2

theorem ncard_maximalRun (inside : Nat → Prop) [DecidablePred inside] (bound : Nat) :
    { run : Nat × Nat | MaximalRun inside bound run.1 run.2 }.ncard = runCount inside bound := by
  have starts : Prod.fst '' { run : Nat × Nat | MaximalRun inside bound run.1 run.2 } =
      ((Finset.range bound).filter (BeginsRun inside) : Set Nat) := by
    ext place
    rw [Finset.mem_coe, Finset.mem_filter, Finset.mem_range]
    constructor
    · rintro ⟨run, maximal, rfl⟩
      exact maximal.begins
    · rintro ⟨below, begins⟩
      obtain ⟨length, maximal⟩ := begins.maximal below
      exact ⟨(place, length), maximal, rfl⟩
  have apart : Set.InjOn Prod.fst { run : Nat × Nat | MaximalRun inside bound run.1 run.2 } := by
    rintro ⟨start, length⟩ left ⟨place, other⟩ right same
    obtain rfl : start = place := same
    exact Prod.ext rfl (MaximalRun.length_unique left right)
  rw [← apart.ncard_image, starts, Set.ncard_coe_finset, runCount,
    Nat.count_eq_card_filter_range]

theorem runCount_ne_zero_iff (inside : Nat → Prop) [DecidablePred inside] (bound : Nat) :
    runCount inside bound ≠ 0 ↔ ∃ start length, MaximalRun inside bound start length := by
  rw [runCount, Nat.count_ne_iff_exists]
  constructor
  · rintro ⟨start, below, begins⟩
    exact ⟨start, begins.maximal below⟩
  · rintro ⟨start, length, maximal⟩
    exact ⟨start, maximal.begins⟩

theorem MaximalRun.le_longest (maximal : MaximalRun inside bound start length)
    (greatest : IsGreatest (runLengths inside bound) longest) : length ≤ longest :=
  greatest.2 ⟨start, maximal.fits, maximal.run⟩

theorem exists_longest (greatest : IsGreatest (runLengths inside bound) longest)
    (positive : 0 < longest) : ∃ start, MaximalRun inside bound start longest := by
  obtain ⟨start, fits, run⟩ := greatest.1
  refine ⟨start, positive, fits, run, ?_, ?_⟩
  · by_contra inner
    rw [not_or, not_not] at inner
    have longer := greatest.2 ⟨start - 1, show start - 1 + (longest + 1) ≤ bound by omega, ?_⟩
    · omega
    · intro place above below
      by_cases first : place = start - 1
      · rw [first]
        exact inner.2
      · exact run place (by omega) (by omega)
  · by_contra inner
    rw [not_or, not_not] at inner
    have longer := greatest.2 ⟨start, show start + (longest + 1) ≤ bound by omega, ?_⟩
    · omega
    · intro place above below
      by_cases last : place = start + longest
      · rw [last]
        exact inner.2
      · exact run place above (by omega)

end

end ArcadiaOs.Lib
