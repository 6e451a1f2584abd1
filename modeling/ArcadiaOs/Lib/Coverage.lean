import Mathlib.Data.List.Basic

/-!
Lists of records that describe a partial map.  Each record covers places and stands for
one block; the map gives a place the block of the record that covers it.  Appending a
record for free places and dropping the records of erased places keep list and map in
step.
-/

namespace ArcadiaOs.Lib

variable {Record Place Block : Type}

/-- What a record covers is mapped to its block, and what is mapped is covered. -/
structure Describes (covers : Record → Place → Prop) (block : Record → Block)
    (records : List Record) (map : Place → Option Block) : Prop where
  sound : ∀ record ∈ records, ∀ place, covers record place → map place = some (block record)
  complete : ∀ place found, map place = some found →
    ∃ record ∈ records, covers record place ∧ block record = found

namespace Describes

variable {covers : Record → Place → Prop} {block : Record → Block} {records : List Record}
  {map map' : Place → Option Block}

theorem congr (describes : Describes covers block records map) (same : ∀ place, map' place = map place) :
    Describes covers block records map' := by
  constructor
  · intro record member place covered
    exact (same place).trans (describes.sound record member place covered)
  · intro place found mapped
    exact describes.complete place found ((same place).symm.trans mapped)

theorem push (describes : Describes covers block records map) (new : Record)
    (free : ∀ place, covers new place → map place = none)
    (mapped : ∀ place, covers new place → map' place = some (block new))
    (others : ∀ place, ¬covers new place → map' place = map place) :
    Describes covers block (records ++ [new]) map' := by
  constructor
  · intro record member place covered
    rcases List.mem_append.mp member with old | last
    · have before := describes.sound record old place covered
      by_cases fresh : covers new place
      · rw [free place fresh] at before
        cases before
      · rw [others place fresh, before]
    · obtain rfl := List.mem_singleton.mp last
      exact mapped place covered
  · intro place found leads
    by_cases fresh : covers new place
    · rw [mapped place fresh, Option.some.injEq] at leads
      exact ⟨new, List.mem_append_right _ (List.mem_singleton_self _), fresh, leads⟩
    · rw [others place fresh] at leads
      obtain ⟨record, member, covered, same⟩ := describes.complete place found leads
      exact ⟨record, List.mem_append_left _ member, covered, same⟩

theorem drop (describes : Describes covers block records map) (kept : Record → Bool)
    (gone : Place → Prop)
    (erased : ∀ place, gone place → map' place = none)
    (others : ∀ place, ¬gone place → map' place = map place)
    (retained : ∀ record ∈ records, ∀ place, covers record place →
      (kept record = true ↔ ¬gone place)) :
    Describes covers block (records.filter kept) map' := by
  constructor
  · intro record member place covered
    obtain ⟨old, keeps⟩ := List.mem_filter.mp member
    rw [others place ((retained record old place covered).mp keeps)]
    exact describes.sound record old place covered
  · intro place found leads
    by_cases lost : gone place
    · rw [erased place lost] at leads
      cases leads
    · rw [others place lost] at leads
      obtain ⟨record, member, covered, same⟩ := describes.complete place found leads
      have keeps := (retained record member place covered).mpr lost
      exact ⟨record, List.mem_filter.mpr ⟨member, keeps⟩, covered, same⟩

end Describes

def Apartness (covers : Record → Place → Prop) (records : List Record) : Prop :=
  records.Pairwise fun left right => ∀ place, covers left place → ¬covers right place

theorem Apartness.push {covers : Record → Place → Prop} {records : List Record} {new : Record}
    (apart : Apartness covers records)
    (free : ∀ record ∈ records, ∀ place, covers record place → ¬covers new place) :
    Apartness covers (records ++ [new]) := by
  refine List.pairwise_append.mpr ⟨apart, List.pairwise_singleton _ _, ?_⟩
  intro record member other last
  obtain rfl := List.mem_singleton.mp last
  exact free record member

theorem Apartness.at_most_one {covers : Record → Place → Prop} {records : List Record} {place : Place}
    (apart : Apartness covers records) (test : Record → Bool)
    (decides : ∀ record, test record = true → covers record place) :
    (records.filter test).length ≤ 1 := by
  have pairwise := List.Pairwise.filter test apart
  have all : ∀ record ∈ records.filter test, covers record place :=
    fun record member => decides record (List.mem_filter.mp member).2
  revert pairwise all
  generalize records.filter test = found
  intro pairwise all
  match found with
  | [] => exact Nat.zero_le 1
  | [_] => exact Nat.le_refl 1
  | first :: second :: rest =>
      have apart := (List.pairwise_cons.mp pairwise).1 second List.mem_cons_self place
        (all first List.mem_cons_self)
      exact absurd (all second (List.mem_cons_of_mem _ List.mem_cons_self)) apart

end ArcadiaOs.Lib
