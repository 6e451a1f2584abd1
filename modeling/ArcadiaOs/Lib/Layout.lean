import Mathlib.Data.List.Basic

/-!
Texts laid out in lines of bounded width.  A text is cut at its stops, and what stands between two
stops fills as many lines as it needs.
-/

namespace ArcadiaOs.Lib

universe u

variable {α : Type u}

/-- The lines of a piece without stops; an empty piece has one. -/
def rows (width : Nat) (piece : List α) : List (List α) :=
  (List.range ((piece.length - 1) / width + 1)).map fun row =>
    (piece.drop (row * width)).take width

def layout [BEq α] (width : Nat) (stop : α) (text : List α) : List (List α) :=
  (text.splitOn stop).flatMap (rows width)

/-- The lines after one more symbol: a stop opens a line, and so does a symbol after a full line. -/
def extended [DecidableEq α] (width : Nat) (stop : α) (above : List (List α)) (last : List α)
    (symbol : α) : List (List α) :=
  if symbol = stop then above ++ [last, []]
  else if last.length < width then above ++ [last ++ [symbol]]
  else above ++ [last, [symbol]]

theorem rows_concat {width : Nat} (positive : 0 < width) (piece : List α) :
    ∃ above last, rows width piece = above ++ [last] ∧ last.length ≤ width ∧
      ∀ symbol, rows width (piece ++ [symbol]) =
        if last.length < width then above ++ [last ++ [symbol]]
        else above ++ [last, [symbol]] := by
  obtain ⟨full, lines⟩ : ∃ full, (piece.length - 1) / width = full := ⟨_, rfl⟩
  have below : full * width ≤ piece.length :=
    Nat.le_trans (lines ▸ Nat.div_mul_le_self _ _) (Nat.sub_le _ _)
  have above : piece.length ≤ full * width + width := by
    have next := Nat.lt_mul_div_succ (piece.length - 1) positive
    rw [lines, Nat.mul_comm, Nat.add_mul, Nat.one_mul] at next
    omega
  have stays : ∀ symbol, ∀ row ≤ full, row * width + width ≤ piece.length →
      ((piece ++ [symbol]).drop (row * width)).take width =
        (piece.drop (row * width)).take width := by
    intro symbol row _ inside
    rw [List.drop_append_of_le_length (by omega),
      List.take_append_of_le_length (by rw [List.length_drop]; omega)]
  have whole : (piece.drop (full * width)).take width = piece.drop (full * width) :=
    List.take_of_length_le (by rw [List.length_drop]; omega)
  refine ⟨(List.range full).map fun row => (piece.drop (row * width)).take width,
    piece.drop (full * width), ?_, by rw [List.length_drop]; omega, fun symbol => ?_⟩
  · rw [rows, lines, List.range_succ, List.map_append, List.map_singleton, whole]
  have front : (List.range full).map (fun row => ((piece ++ [symbol]).drop (row * width)).take width)
      = (List.range full).map fun row => (piece.drop (row * width)).take width := by
    refine List.map_congr_left fun row member => stays symbol row ?_ ?_
    · exact Nat.le_of_lt (List.mem_range.mp member)
    · have := Nat.mul_le_mul_right width (Nat.succ_le_of_lt (List.mem_range.mp member))
      rw [Nat.succ_mul] at this
      omega
  rw [rows, List.length_append, List.length_singleton, Nat.add_sub_cancel, List.length_drop]
  split
  · have count : piece.length / width = full :=
      Nat.div_eq_of_lt_le (by omega) (by rw [Nat.succ_mul]; omega)
    rw [count, List.range_succ, List.map_append, front, List.map_singleton,
      List.drop_append_of_le_length below, List.take_of_length_le]
    rw [List.length_append, List.length_drop, List.length_singleton]
    omega
  · have exactly : piece.length = (full + 1) * width := by
      rw [Nat.succ_mul]
      omega
    have count : piece.length / width = full + 1 := by
      rw [exactly, Nat.mul_div_cancel _ positive]
    rw [count, List.range_succ, List.range_succ, List.map_append, List.map_append, front,
      List.map_singleton, List.map_singleton, stays symbol full (Nat.le_refl _) (by omega), whole,
      ← exactly, List.drop_left, List.append_assoc, List.take_of_length_le]
    · rfl
    · exact positive

section Stops

variable [DecidableEq α] (stop : α)

theorem splitOn_concat (text : List α) : ∃ front last, text.splitOn stop = front ++ [last] ∧
    ∀ symbol ≠ stop, (text ++ [symbol]).splitOn stop = front ++ [last ++ [symbol]] := by
  induction text with
  | nil =>
      refine ⟨[], [], List.splitOn_nil stop, fun symbol other => ?_⟩
      rw [List.nil_append, List.splitOn_eq_singleton (by simpa using other.symm)]
      rfl
  | cons first rest ih =>
      obtain ⟨front, last, split, grown⟩ := ih
      simp only [List.cons_append, List.splitOn_cons_eq_if_modifyHead, split]
      by_cases stops : first = stop
      · refine ⟨[] :: front, last, by simp [stops], fun symbol other => ?_⟩
        simp [stops, grown symbol other]
      cases front with
      | nil =>
          refine ⟨[], first :: last, by simp [stops], fun symbol other => ?_⟩
          simp [stops, grown symbol other]
      | cons head tail =>
          refine ⟨(first :: head) :: tail, last, by simp [stops], fun symbol other => ?_⟩
          simp [stops, grown symbol other]

theorem layout_nil {width : Nat} : layout width stop [] = [[]] := by
  simp [layout, rows]

theorem layout_concat {width : Nat} (positive : 0 < width) (text : List α) :
    ∃ above last, layout width stop text = above ++ [last] ∧ last.length ≤ width ∧
      ∀ symbol, layout width stop (text ++ [symbol]) = extended width stop above last symbol := by
  obtain ⟨front, piece, split, grown⟩ := splitOn_concat stop text
  obtain ⟨above, last, filled, bound, longer⟩ := rows_concat positive piece
  refine ⟨front.flatMap (rows width) ++ above, last, ?_, bound, fun symbol => ?_⟩
  · rw [layout, split, List.flatMap_append, List.flatMap_singleton, filled, List.append_assoc]
  rw [extended]
  split
  · next stops =>
    rw [layout, stops, List.splitOn_append_cons_self, split, List.flatMap_append,
      List.flatMap_append, List.flatMap_singleton, filled, List.splitOn_nil]
    simp [rows]
  · next other =>
    rw [layout, grown symbol other, List.flatMap_append, List.flatMap_singleton, longer]
    split <;> rw [List.append_assoc]

end Stops

end ArcadiaOs.Lib
