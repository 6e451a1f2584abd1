import ArcadiaOs.Lib.Bitmap
import Mathlib.Algebra.BigOperators.Group.List.Basic
import Mathlib.Algebra.GroupWithZero.Nat
import Mathlib.Data.Nat.Count

/-!
How many bits of a bit map are set: the count word by word agrees with the count
bit by bit, and both grow by the bits that are newly set.
-/

namespace ArcadiaOs.Lib

theorem count_congr {left right : Nat → Prop} [DecidablePred left] [DecidablePred right]
    {bound : Nat} (same : ∀ index, index < bound → (left index ↔ right index)) :
    Nat.count left bound = Nat.count right bound :=
  Nat.le_antisymm (Nat.count_mono_left fun index inside => (same index inside).mp)
    (Nat.count_mono_left fun index inside => (same index inside).mpr)

theorem count_add_count_not (holds : Nat → Prop) [DecidablePred holds] (bound : Nat) :
    Nat.count holds bound + Nat.count (fun index => ¬holds index) bound = bound := by
  induction bound with
  | zero => simp
  | succ bound ih =>
      rw [Nat.count_succ, Nat.count_succ]
      by_cases here : holds bound
      · simp only [here, not_true, if_true, if_false]
        omega
      · simp only [here, not_false_iff, if_true, if_false]
        omega

theorem count_gain {before after : Nat → Prop} [DecidablePred before] [DecidablePred after]
    {bound : Nat} (added : Finset Nat)
    (joins : ∀ index, index < bound → (after index ↔ index ∈ added ∨ before index))
    (fresh : ∀ index ∈ added, index < bound ∧ ¬before index) :
    Nat.count after bound = Nat.count before bound + added.card := by
  have split : {index ∈ Finset.range bound | after index} =
      {index ∈ Finset.range bound | before index} ∪ added := by
    ext index
    simp only [Finset.mem_filter, Finset.mem_range, Finset.mem_union]
    constructor
    · rintro ⟨inside, holds⟩
      rcases (joins index inside).mp holds with joined | already
      · exact .inr joined
      · exact .inl ⟨inside, already⟩
    · rintro (⟨inside, already⟩ | joined)
      · exact ⟨inside, (joins index inside).mpr (.inr already)⟩
      · have inside := (fresh index joined).1
        exact ⟨inside, (joins index inside).mpr (.inl joined)⟩
  have apart : Disjoint {index ∈ Finset.range bound | before index} added := by
    rw [Finset.disjoint_left]
    intro index old joined
    exact (fresh index joined).2 (Finset.mem_filter.mp old).2
  rw [Nat.count_eq_card_filter_range, Nat.count_eq_card_filter_range, split,
    Finset.card_union_of_disjoint apart]

theorem count_blocks (holds : Nat → Prop) [DecidablePred holds] (width blocks : Nat) :
    Nat.count holds (blocks * width) =
      ((List.range blocks).map fun block =>
        Nat.count (fun offset => holds (block * width + offset)) width).sum := by
  induction blocks with
  | zero => simp
  | succ blocks ih =>
      rw [Nat.succ_mul, Nat.count_add, ih, List.range_succ, List.map_append, List.sum_append]
      simp

theorem cpopNatRec_eq_count {width : Nat} (word : BitVec width) (bound : Nat) :
    word.cpopNatRec bound 0 = Nat.count (fun bit => word.getLsbD bit = true) bound := by
  induction bound with
  | zero => exact (Nat.count_zero _).symm
  | succ bound ih =>
      rw [BitVec.cpopNatRec_succ, BitVec.cpopNatRec_add, ih, Nat.count_succ]
      cases word.getLsbD bound <;> simp

namespace Bitmap

variable {width : Nat}

def population (words : Bitmap width) (count : Nat) : Nat :=
  (List.range count).foldl (fun counted index => counted + (words index).cpop.toNat) 0

theorem population_succ (words : Bitmap width) (count : Nat) :
    words.population (count + 1) = words.population count + (words count).cpop.toNat := by
  rw [population, List.range_succ, List.foldl_append]
  rfl

theorem population_eq_count (positive : 0 < width) (words : Bitmap width) (count : Nat) :
    words.population count = Nat.count (fun bit => words.test bit = true) (count * width) := by
  induction count with
  | zero => rw [Nat.zero_mul, Nat.count_zero, population, List.range_zero, List.foldl_nil]
  | succ count ih =>
      have inWord : Nat.count (fun bit => words.test (count * width + bit) = true) width =
          Nat.count (fun bit => (words count).getLsbD bit = true) width := by
        apply count_congr
        intro bit inside
        have word : (count * width + bit) / width = count := by
          rw [Nat.mul_comm, Nat.mul_add_div positive, Nat.div_eq_of_lt inside, Nat.add_zero]
        have position : (count * width + bit) % width = bit := by
          rw [Nat.mul_comm, Nat.mul_add_mod, Nat.mod_eq_of_lt inside]
        rw [test_eq_getLsbD positive, word, position]
      rw [population_succ, ih, Nat.succ_mul, Nat.count_add, inWord, BitVec.toNat_cpop,
        cpopNatRec_eq_count]

end Bitmap

end ArcadiaOs.Lib
