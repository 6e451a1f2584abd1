import Mathlib.Data.Nat.Basic

/-!
Bit maps packed into words of a fixed width: testing, setting and clearing the
bit of an index.
-/

namespace ArcadiaOs.Lib

/-- A bit map stored as words of `width` bits. -/
abbrev Bitmap (width : Nat) := Nat → BitVec width

namespace Bitmap

variable {width : Nat}

def mask (width index : Nat) : BitVec width := BitVec.ofNat width 1 <<< (index % width)

def test (words : Bitmap width) (index : Nat) : Bool :=
  words (index / width) &&& mask width index != BitVec.ofNat width 0

def update (words : Bitmap width) (position : Nat) (word : BitVec width) : Bitmap width :=
  fun index => if index = position then word else words index

def set (words : Bitmap width) (index : Nat) : Bitmap width :=
  words.update (index / width) (words (index / width) ||| mask width index)

def clear (words : Bitmap width) (index : Nat) : Bitmap width :=
  words.update (index / width) (words (index / width) &&& ~~~mask width index)

theorem getLsbD_mask (positive : 0 < width) (index bit : Nat) :
    (mask width index).getLsbD bit = decide (bit = index % width) := by
  have bound : index % width < width := Nat.mod_lt _ positive
  simp only [mask, BitVec.getLsbD_shiftLeft, BitVec.getLsbD_one]
  by_cases same : bit = index % width
  · simp [same, bound, positive]
  · simp only [same, decide_false, Bool.and_eq_false_iff, decide_eq_false_iff_not,
      Bool.not_eq_eq_eq_not, Bool.not_false, decide_eq_true_eq]
    omega

theorem test_eq_getLsbD (positive : 0 < width) (words : Bitmap width) (index : Nat) :
    words.test index = (words (index / width)).getLsbD (index % width) := by
  have bound : index % width < width := Nat.mod_lt _ positive
  have bitOfAnd (bit : Nat) : (words (index / width) &&& mask width index).getLsbD bit =
      ((words (index / width)).getLsbD bit && decide (bit = index % width)) := by
    rw [BitVec.getLsbD_and, getLsbD_mask positive]
  rw [test]
  cases value : (words (index / width)).getLsbD (index % width) with
  | true =>
      rw [bne_iff_ne]
      intro zero
      have atBit := bitOfAnd (index % width)
      rw [zero, value] at atBit
      simp at atBit
  | false =>
      rw [bne_eq_false_iff_eq]
      apply BitVec.eq_of_getLsbD_eq
      intro bit _
      rw [bitOfAnd, BitVec.getLsbD_zero]
      by_cases same : bit = index % width
      · simp [same, value]
      · simp [same]

theorem same_index (first second : Nat) (word : first / width = second / width)
    (bit : first % width = second % width) : first = second := by
  rw [← Nat.div_add_mod first width, ← Nat.div_add_mod second width, word, bit]

theorem test_set (positive : 0 < width) (words : Bitmap width) (index query : Nat) :
    (words.set index).test query = (decide (query = index) || words.test query) := by
  rw [test_eq_getLsbD positive, test_eq_getLsbD positive, set, update]
  by_cases word : query / width = index / width
  · simp only [word, if_true, BitVec.getLsbD_or, getLsbD_mask positive]
    by_cases bit : query % width = index % width
    · simp [same_index query index word bit]
    · have different : query ≠ index := fun equal => bit (by rw [equal])
      simp [bit, different]
  · have different : query ≠ index := fun equal => word (by rw [equal])
    simp [word, different]

theorem test_clear (positive : 0 < width) (words : Bitmap width) (index query : Nat) :
    (words.clear index).test query = (!decide (query = index) && words.test query) := by
  have bound : query % width < width := Nat.mod_lt _ positive
  rw [test_eq_getLsbD positive, test_eq_getLsbD positive, clear, update]
  by_cases word : query / width = index / width
  · simp only [word, if_true, BitVec.getLsbD_and, BitVec.getLsbD_not, getLsbD_mask positive]
    by_cases bit : query % width = index % width
    · simp [same_index query index word bit]
    · have different : query ≠ index := fun equal => bit (by rw [equal])
      simp [bit, different, bound]
  · have different : query ≠ index := fun equal => word (by rw [equal])
    simp [word, different]

end Bitmap

end ArcadiaOs.Lib
