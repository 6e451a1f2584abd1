import Mathlib.Data.List.Basic
import Mathlib.Data.List.Nodup
import Mathlib.Logic.Function.Basic

/-!
Lists threaded through a table: every cell on the list holds a pointer to the next
one, the last holds a final value.  This is the shape of a chain in an allocation
table, whatever its cells and values are.
-/

namespace ArcadiaOs.Lib

variable {α β : Type}

/-- What the last cell in front of `rest` has to hold. -/
def Points (ptr : α → β) (Final : β → Prop) (rest : List α) (value : β) : Prop :=
  match rest with
  | [] => Final value
  | next :: _ => value = ptr next

def Linked (table ptr : α → β) (Final : β → Prop) : List α → Prop
  | [] => True
  | cell :: rest => Points ptr Final rest (table cell) ∧ Linked table ptr Final rest

section Linked

variable {table table' ptr : α → β} {Final : β → Prop}

theorem linked_congr {cells : List α} (same : ∀ cell ∈ cells, table' cell = table cell)
    (linked : Linked table ptr Final cells) : Linked table' ptr Final cells := by
  induction cells with
  | nil => trivial
  | cons cell rest ih =>
      refine ⟨?_, ih (fun other member => same other (List.mem_cons_of_mem _ member)) linked.2⟩
      rw [same cell List.mem_cons_self]
      exact linked.1

theorem Linked.imp {Final' : β → Prop} (weaker : ∀ value, Final value → Final' value)
    {cells : List α} (linked : Linked table ptr Final cells) : Linked table ptr Final' cells := by
  induction cells with
  | nil => trivial
  | cons cell rest ih =>
      refine ⟨?_, ih linked.2⟩
      cases rest with
      | nil => exact weaker _ linked.1
      | cons next _ => exact linked.1

theorem linked_singleton (cell : α) : Linked table ptr Final [cell] ↔ Final (table cell) := by
  simp only [Linked, Points, and_true]

theorem linked_unique (injective : Function.Injective ptr) {left right : List α}
    (notFinalLeft : ∀ cell ∈ left, ¬Final (ptr cell))
    (notFinalRight : ∀ cell ∈ right, ¬Final (ptr cell)) (head : left.head? = right.head?)
    (linkedLeft : Linked table ptr Final left) (linkedRight : Linked table ptr Final right) :
    left = right := by
  induction left generalizing right with
  | nil =>
      cases right with
      | nil => rfl
      | cons cell rest => cases head
  | cons cell rest ih =>
      cases right with
      | nil => cases head
      | cons other others =>
          obtain rfl : cell = other := Option.some.inj head
          congr 1
          refine ih (fun c member => notFinalLeft c (List.mem_cons_of_mem _ member))
            (fun c member => notFinalRight c (List.mem_cons_of_mem _ member)) ?_ linkedLeft.2
            linkedRight.2
          have pointsLeft := linkedLeft.1
          have pointsRight := linkedRight.1
          cases rest with
          | nil =>
              cases others with
              | nil => rfl
              | cons next _ =>
                  simp only [Points] at pointsLeft pointsRight
                  rw [pointsRight] at pointsLeft
                  exact absurd pointsLeft (notFinalRight next (by simp))
          | cons next _ =>
              cases others with
              | nil =>
                  simp only [Points] at pointsLeft pointsRight
                  rw [pointsLeft] at pointsRight
                  exact absurd pointsRight (notFinalLeft next (by simp))
              | cons following _ =>
                  simp only [Points] at pointsLeft pointsRight
                  rw [pointsLeft] at pointsRight
                  rw [injective pointsRight]
                  rfl

end Linked

theorem linked_range' {table : Nat → Nat} {Final : Nat → Prop} (start count : Nat)
    (next : ∀ cell, start ≤ cell → cell + 1 < start + count → table cell = cell + 1)
    (last : ∀ cell, cell + 1 = start + count → Final (table cell)) :
    Linked table id Final (List.range' start count) := by
  induction count generalizing start with
  | zero => trivial
  | succ count ih =>
      rw [List.range'_succ]
      refine ⟨?_, ih (start + 1) (fun cell above below => next cell (by omega) (by omega))
        fun cell ended => last cell (by omega)⟩
      cases count with
      | zero => exact last start rfl
      | succ count =>
          rw [List.range'_succ]
          exact next start (Nat.le_refl _) (by omega)

section Thread

variable [DecidableEq α]

/-- The table after every cell of the list is pointed at the next, the last holding `final`. -/
def thread (ptr : α → β) (final : β) : List α → (α → β) → α → β
  | [], table => table
  | cell :: rest, table =>
      thread ptr final rest (Function.update table cell ((rest.head?.map ptr).getD final))

variable {ptr : α → β} {final : β} {table : α → β}

theorem thread_other {cells : List α} {other : α} (apart : other ∉ cells) (table : α → β) :
    thread ptr final cells table other = table other := by
  induction cells generalizing table with
  | nil => rfl
  | cons cell rest ih =>
      have different : other ≠ cell := by
        rintro rfl
        exact apart List.mem_cons_self
      rw [thread, ih fun member => apart (List.mem_cons_of_mem _ member)]
      exact Function.update_of_ne different ..

theorem thread_linked (ptr : α → β) (final : β) {cells : List α} (distinct : cells.Nodup)
    (table : α → β) :
    Linked (thread ptr final cells table) ptr (· = final) cells := by
  induction cells generalizing table with
  | nil => trivial
  | cons cell rest ih =>
      rw [List.nodup_cons] at distinct
      refine ⟨?_, ih distinct.2 _⟩
      rw [thread, thread_other distinct.1, Function.update_self]
      cases rest with
      | nil => rfl
      | cons next _ => rfl

theorem thread_linked_kept {Final : β → Prop} {cells : List α} {table : α → β}
    (linked : Linked table ptr Final cells) {cell : α}
    (inner : cell ∉ cells.drop (cells.length - 1)) :
    thread ptr final cells table cell = table cell := by
  induction cells with
  | nil => rfl
  | cons first rest ih =>
      cases rest with
      | nil => exact thread_other inner table
      | cons next others =>
          have points : table first = ptr next := linked.1
          have same : Function.update table first (ptr next) = table := by
            rw [← points, Function.update_eq_self]
          have later : cell ∉ (next :: others).drop ((next :: others).length - 1) := inner
          rw [thread, List.head?_cons, Option.map_some, Option.getD_some, same]
          exact ih linked.2 later

theorem thread_append (front back : List α) (table : α → β) :
    thread ptr final (front ++ back) table =
      thread ptr final back (thread ptr ((back.head?.map ptr).getD final) front table) := by
  induction front generalizing table with
  | nil => rfl
  | cons cell rest ih =>
      rw [List.cons_append, thread, ih, thread]
      cases rest with
      | nil => rfl
      | cons next _ => rfl

theorem thread_repeated (cell : α) (count : Nat) (table : α → β) :
    thread ptr final (List.replicate (count + 1) cell) table =
      thread ptr final [cell] table := by
  induction count generalizing table with
  | zero => rfl
  | succ count ih =>
      rw [List.replicate_succ, thread, ih]
      simp only [thread, Function.update_idem]

theorem linked_redirect {Final Final' : β → Prop} {front back : List α} {last fresh : α}
    (linked : Linked table ptr Final (front ++ last :: back)) (distinct : (front ++ [last]).Nodup)
    (apart : fresh ∉ front ++ [last]) (ends : Final' final) :
    Linked (Function.update (Function.update table last (ptr fresh)) fresh final) ptr Final'
      (front ++ [last, fresh]) := by
  induction front with
  | nil =>
      have different : last ≠ fresh := by
        rintro rfl
        exact apart List.mem_cons_self
      refine ⟨?_, ?_, trivial⟩
      · rw [Points, Function.update_of_ne different, Function.update_self]
      · rw [Points, Function.update_self]
        exact ends
  | cons cell rest ih =>
      rw [List.cons_append, List.mem_cons, not_or] at apart
      rw [List.cons_append, List.nodup_cons] at distinct
      have notLast : cell ≠ last := by
        rintro rfl
        exact distinct.1 (by simp)
      refine ⟨?_, ih linked.2 distinct.2 apart.2⟩
      rw [Function.update_of_ne (Ne.symm apart.1), Function.update_of_ne notLast]
      have points := linked.1
      cases rest with
      | nil => exact points
      | cons next _ => exact points

end Thread

end ArcadiaOs.Lib
