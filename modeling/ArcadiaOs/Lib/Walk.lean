import ArcadiaOs.Lib.LinkedTable

/-!
Walks along a partial successor function that stop at a cell they have seen.  Such a
walk collects exactly the cells that are reached in as many steps as it has turns.
-/

namespace ArcadiaOs.Lib

universe u

variable {α : Type u}

def stepsTo (next : α → Option α) (start : α) : Nat → Option α
  | 0 => some start
  | steps + 1 => (stepsTo next start steps).bind next

variable {next next' : α → Option α}

/-- The cells in front of a walk are those of its first steps. -/
structure Traced (next : α → Option α) (start : α) (path : List α) (cell : α) : Prop where
  here : stepsTo next start path.length = some cell
  mem : ∀ other, other ∈ path ↔ ∃ steps, steps < path.length ∧ stepsTo next start steps = some other

theorem Traced.visited {start : α} {path : List α} {cell : α} (traced : Traced next start path cell)
    (other : α) : other ∈ path ++ [cell] ↔
      ∃ steps, steps < path.length + 1 ∧ stepsTo next start steps = some other := by
  rw [List.mem_append, List.mem_singleton, traced.mem]
  constructor
  · rintro (⟨steps, bound, reached⟩ | rfl)
    · exact ⟨steps, Nat.lt_succ_of_lt bound, reached⟩
    · exact ⟨path.length, Nat.lt_succ_self _, traced.here⟩
  · rintro ⟨steps, bound, reached⟩
    rcases Nat.lt_succ_iff_lt_or_eq.mp bound with before | rfl
    · exact .inl ⟨steps, before, reached⟩
    · rw [traced.here, Option.some.injEq] at reached
      exact .inr reached.symm

theorem Traced.closed {start : α} {path : List α} {cell : α} (traced : Traced next start path cell)
    (inside : ∀ later, next cell = some later → later ∈ path ++ [cell]) (steps : Nat) {other : α}
    (reached : stepsTo next start steps = some other) : other ∈ path ++ [cell] := by
  induction steps generalizing other with
  | zero => exact (traced.visited other).mpr ⟨0, Nat.succ_pos _, reached⟩
  | succ steps ih =>
      rw [stepsTo, Option.bind_eq_some_iff] at reached
      obtain ⟨before, led, follows⟩ := reached
      obtain ⟨place, bound, placed⟩ := (traced.visited before).mp (ih led)
      by_cases last : place = path.length
      · subst last
        rw [traced.here, Option.some.injEq] at placed
        subst placed
        exact inside other follows
      · refine (traced.visited other).mpr ⟨place + 1, by omega, ?_⟩
        rw [stepsTo, placed]
        exact follows

variable [DecidableEq α]

def walk (next : α → Option α) : Nat → List α → α → List α
  | 0, path, _ => path
  | turns + 1, path, cell =>
      match next cell with
      | none => path ++ [cell]
      | some later =>
          if later ∈ path ++ [cell] then path ++ [cell] else walk next turns (path ++ [cell]) later

theorem walk_extends (turns : Nat) (path : List α) (cell : α) :
    ∃ later, walk next turns path cell = path ++ later := by
  induction turns generalizing path cell with
  | zero => exact ⟨[], (List.append_nil _).symm⟩
  | succ turns ih =>
      rw [walk]
      split
      · exact ⟨_, rfl⟩
      · rename_i after _
        split
        · exact ⟨_, rfl⟩
        · obtain ⟨later, extended⟩ := ih (path ++ [cell]) after
          exact ⟨[cell] ++ later, by rw [extended, List.append_assoc]⟩

theorem mem_walk_self (turns : Nat) (path : List α) (cell : α) :
    cell ∈ walk next (turns + 1) path cell := by
  have visited : cell ∈ path ++ [cell] := List.mem_append_right _ (List.mem_singleton_self cell)
  rw [walk]
  split
  · exact visited
  · rename_i after _
    split
    · exact visited
    · obtain ⟨later, extended⟩ : ∃ later, walk next turns (path ++ [cell]) after =
          path ++ [cell] ++ later := walk_extends turns _ _
      rw [extended]
      exact List.mem_append_left _ visited

theorem walk_nodup (turns : Nat) {path : List α} {cell : α} (distinct : (path ++ [cell]).Nodup) :
    (walk next turns path cell).Nodup := by
  induction turns generalizing path cell with
  | zero => exact (List.nodup_append.mp distinct).1
  | succ turns ih =>
      rw [walk]
      split
      · exact distinct
      · split
        · exact distinct
        · rename_i after _ fresh
          refine ih (List.nodup_append.mpr ⟨distinct, List.nodup_singleton _, ?_⟩)
          rintro seen member other single rfl
          exact fresh (List.mem_singleton.mp single ▸ member)

theorem length_walk (turns : Nat) (path : List α) (cell : α) :
    (walk next turns path cell).length ≤ path.length + turns := by
  induction turns generalizing path cell with
  | zero => exact Nat.le_refl _
  | succ turns ih =>
      rw [walk]
      split
      · rw [List.length_append, List.length_singleton]
        omega
      · split
        · rw [List.length_append, List.length_singleton]
          omega
        · refine Nat.le_trans (ih _ _) ?_
          rw [List.length_append, List.length_singleton]
          omega

theorem walk_congr (turns : Nat) (path : List α) (cell : α)
    (same : ∀ other ∈ walk next turns path cell, next' other = next other) :
    walk next' turns path cell = walk next turns path cell := by
  induction turns generalizing path cell with
  | zero => rfl
  | succ turns ih =>
      have here := same cell (mem_walk_self turns path cell)
      rw [walk] at same
      rw [walk, walk, here]
      split
      · rfl
      · rename_i after found
        rw [found] at same
        simp only at same
        split
        · rfl
        · rename_i fresh
          rw [if_neg fresh] at same
          exact ih _ _ same

theorem Traced.mem_walk {start : α} {path : List α} {cell : α} (traced : Traced next start path cell)
    (turns : Nat) (other : α) : other ∈ walk next turns path cell ↔
      ∃ steps, steps < path.length + turns ∧ stepsTo next start steps = some other := by
  induction turns generalizing path cell with
  | zero => exact traced.mem other
  | succ turns ih =>
      have stopped (inside : ∀ later, next cell = some later → later ∈ path ++ [cell]) :
          other ∈ path ++ [cell] ↔
            ∃ steps, steps < path.length + (turns + 1) ∧ stepsTo next start steps = some other := by
        constructor
        · intro member
          obtain ⟨steps, bound, reached⟩ := (traced.visited other).mp member
          exact ⟨steps, by omega, reached⟩
        · rintro ⟨steps, _, reached⟩
          exact traced.closed inside steps reached
      rw [walk]
      split
      · rename_i ended
        exact stopped fun later found => by rw [ended] at found; cases found
      · rename_i after found
        split
        · rename_i seen
          refine stopped fun later led => ?_
          rw [found, Option.some.injEq] at led
          exact led ▸ seen
        · have later : Traced next start (path ++ [cell]) after := by
            refine ⟨?_, fun other => ?_⟩
            · rw [List.length_append, List.length_singleton, stepsTo, traced.here]
              exact found
            · rw [traced.visited, List.length_append, List.length_singleton]
          rw [ih later, List.length_append, List.length_singleton, Nat.add_assoc, Nat.add_comm 1]

theorem mem_walk_iff (turns : Nat) (start other : α) : other ∈ walk next turns [] start ↔
    ∃ steps, steps < turns ∧ stepsTo next start steps = some other := by
  have traced : Traced next start [] start := by
    refine ⟨rfl, fun other => ⟨nofun, ?_⟩⟩
    rintro ⟨steps, bound, _⟩
    cases bound
  rw [traced.mem_walk, List.length_nil, Nat.zero_add]

/-- A walk along a list that the successors thread collects it, as far as its turns go. -/
theorem walk_linked {κ : Type} [DecidableEq κ] {next : κ → Option κ} (turns : Nat)
    {path rest : List κ} {cell : κ}
    (linked : Linked next some (· = none) (cell :: rest)) (distinct : (path ++ cell :: rest).Nodup) :
    walk next turns path cell = path ++ (cell :: rest).take turns := by
  induction turns generalizing path rest cell with
  | zero => simp [walk]
  | succ turns ih =>
      have points := linked.1
      cases rest with
      | nil =>
          simp only [Points] at points
          simp [walk, points]
      | cons later others =>
          simp only [Points] at points
          have regular : path ++ cell :: later :: others = (path ++ [cell]) ++ later :: others := by simp
          rw [regular] at distinct
          have fresh : later ∉ path ++ [cell] := fun member =>
            (List.disjoint_of_nodup_append distinct) member List.mem_cons_self
          simp only [walk, points, if_neg fresh]
          rw [ih linked.2 distinct]
          simp

end ArcadiaOs.Lib
