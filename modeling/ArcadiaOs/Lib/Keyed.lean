import Mathlib.Data.List.Nodup
import Mathlib.Data.List.Perm.Basic

/-!
Lists read as finite maps: an item is looked up by its key, and where the keys are
unique the order of the items does not matter.
-/

namespace ArcadiaOs.Lib

universe u v

variable {Item : Type u} {Key : Type v} (key : Item → Key)

def UniqueKeys (items : List Item) : Prop := (items.map key).Nodup

variable {key} {items others : List Item} {item : Item} {name : Key}

theorem uniqueKeys_cons :
    UniqueKeys key (item :: items) ↔ (∀ other ∈ items, key other ≠ key item) ∧ UniqueKeys key items := by
  simp only [UniqueKeys, List.map_cons, List.nodup_cons, List.mem_map, not_exists, not_and]

theorem UniqueKeys.perm (unique : UniqueKeys key items) (perm : items.Perm others) :
    UniqueKeys key others :=
  (perm.map key).nodup_iff.mp unique

/-! Lookups. -/

variable [DecidableEq Key]

variable (key) in
def lookup (items : List Item) (name : Key) : Option Item :=
  items.find? fun item => key item = name

theorem lookup_eq_none_iff : lookup key items name = none ↔ ∀ item ∈ items, key item ≠ name := by
  simp only [lookup, List.find?_eq_none, decide_eq_true_eq, ne_eq]

theorem lookup_mem (found : lookup key items name = some item) : item ∈ items ∧ key item = name :=
  ⟨List.mem_of_find?_eq_some found, by simpa using List.find?_some found⟩

theorem lookup_eq_some_iff (unique : UniqueKeys key items) :
    lookup key items name = some item ↔ item ∈ items ∧ key item = name := by
  constructor
  · exact lookup_mem
  · rintro ⟨member, rfl⟩
    cases found : lookup key items (key item) with
    | none => exact absurd rfl (lookup_eq_none_iff.mp found item member)
    | some other =>
        obtain ⟨otherMember, same⟩ := lookup_mem found
        rw [List.inj_on_of_nodup_map unique otherMember member same]

theorem lookup_perm (unique : UniqueKeys key items) (perm : items.Perm others) (name : Key) :
    lookup key items name = lookup key others name := by
  apply Option.ext
  intro item
  rw [lookup_eq_some_iff unique, lookup_eq_some_iff (unique.perm perm), perm.mem_iff]

theorem lookup_cons_same (item : Item) (items : List Item) :
    lookup key (item :: items) (key item) = some item := by
  simp only [lookup, List.find?_cons, decide_true]

theorem lookup_cons_other (items : List Item) (apart : key item ≠ name) :
    lookup key (item :: items) name = lookup key items name := by
  simp only [lookup, List.find?_cons, apart, decide_false]

theorem lookup_congr {other : Item → Key} (agree : ∀ item ∈ items, key item = other item)
    (name : Key) : lookup key items name = lookup other items name := by
  induction items with
  | nil => rfl
  | cons item rest ih =>
      have later := ih fun item member => agree item (List.mem_cons_of_mem _ member)
      simp only [lookup] at later
      simp only [lookup, List.find?_cons, agree item List.mem_cons_self, later]

end ArcadiaOs.Lib
