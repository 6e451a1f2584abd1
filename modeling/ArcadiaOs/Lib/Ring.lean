import Mathlib.Logic.Function.Basic

/-!
Ring buffers: items that lie one behind the other in a ring of cells.  Places count up without
end and are taken modulo the size, so that the items may reach round the end of the ring.
-/

namespace ArcadiaOs.Lib.Ring

variable {α : Type} {size : Nat}

/-- The cells from a place on hold the items. -/
def Holds (size : Nat) (cells : Nat → α) (place : Nat) (items : List α) : Prop :=
  ∀ index item, items[index]? = some item → cells ((place + index) % size) = item

theorem next_cell (place : Nat) : (place % size + 1) % size = (place + 1) % size :=
  Nat.mod_add_mod place size 1

theorem cell_apart {first second : Nat} (before : first < second) (near : second < first + size) :
    first % size ≠ second % size := by
  intro same
  have same_turn := Nat.sub_mod_eq_zero_of_mod_eq same.symm
  rw [Nat.mod_eq_of_lt (by omega)] at same_turn
  omega

theorem empty_iff {place count : Nat} (room : count < size) :
    place % size = (place + count) % size ↔ count = 0 := by
  constructor
  · intro same
    by_contra some_item
    exact cell_apart (by omega) (by omega) same
  · rintro rfl
    rfl

/-- One cell stays free. -/
theorem full_iff {place count : Nat} (room : count < size) :
    (place + count + 1) % size = place % size ↔ count + 1 = size := by
  constructor
  · intro same
    by_contra short
    exact cell_apart (by omega) (by omega) same.symm
  · intro full
    rw [Nat.add_assoc, full, Nat.add_mod_right]

variable {cells : Nat → α} {place : Nat} {items rest : List α} {item : α}

theorem Holds.nil (cells : Nat → α) (place : Nat) : Holds size cells place [] := by
  intro index item listed
  simp at listed

theorem Holds.push (holds : Holds size cells place items) (room : items.length < size) (item : α) :
    Holds size (Function.update cells ((place + items.length) % size) item) place (items ++ [item]) := by
  intro index value listed
  rcases Nat.lt_trichotomy index items.length with before | rfl | behind
  · rw [List.getElem?_append_left before] at listed
    rw [Function.update_of_ne (cell_apart (by omega) (by omega))]
    exact holds index value listed
  · rw [List.getElem?_concat_length] at listed
    injection listed with same
    rw [Function.update_self, same]
  · rw [List.getElem?_eq_none (by rw [List.length_append, List.length_singleton]; omega)] at listed
    cases listed

theorem Holds.front (holds : Holds size cells place (item :: rest)) : cells (place % size) = item :=
  holds 0 item rfl

theorem Holds.pop (holds : Holds size cells place (item :: rest)) :
    Holds size cells (place + 1) rest := by
  intro index value listed
  have here := holds (index + 1) value listed
  rwa [show place + 1 + index = place + (index + 1) by omega]

end ArcadiaOs.Lib.Ring
