import ArcadiaOs.Fs.Directory
import ArcadiaOs.Lib.Keyed

/-!
The live entries of a directory.  Both the lookups and the listing read the slots up
to the first end marker and pass over deleted slots, long names and volume labels; what is
left is one list of entries, which a lookup searches and the listing shows.
-/

namespace ArcadiaOs.Fs

open Lib

def Fat32DirEntry.isHidden (entry : Fat32DirEntry) : Bool :=
  entry.isDeleted || entry.isLongName || entry.isVolumeLabel

/-- The entries that the slots of a directory record. -/
def liveOf : List Fat32DirEntry → List Fat32DirEntry
  | [] => []
  | entry :: rest =>
      if entry.isEnd then [] else if entry.isHidden then liveOf rest else entry :: liveOf rest

def IsDotName (name : List UInt8) : Prop := name = [0x2E] ∨ name = [0x2E, 0x2E]

instance (name : List UInt8) : Decidable (IsDotName name) := inferInstanceAs (Decidable (_ ∨ _))

def shownOf (entries : List Fat32DirEntry) : List DirEntryInfo :=
  (entries.map DirEntryInfo.ofEntry).filter fun info => ¬IsDotName info.name

section Cases

variable {entry : Fat32DirEntry} {rest : List Fat32DirEntry}

theorem liveOf_end (isEnd : entry.isEnd = true) : liveOf (entry :: rest) = [] := by
  rw [liveOf, if_pos isEnd]

theorem liveOf_hidden (notEnd : entry.isEnd = false) (hidden : entry.isHidden = true) :
    liveOf (entry :: rest) = liveOf rest := by
  rw [liveOf, if_neg (by simp [notEnd]), if_pos hidden]

theorem liveOf_shown (notEnd : entry.isEnd = false) (shown : entry.isHidden = false) :
    liveOf (entry :: rest) = entry :: liveOf rest := by
  rw [liveOf, if_neg (by simp [notEnd]), if_neg (by simp [shown])]

theorem judgeName_eq (name : List UInt8) (entry : Fat32DirEntry) : judgeName name entry =
    if entry.isEnd then .stop
    else if entry.isHidden then .skip
    else if entry.fullNameUpper = name then .take
    else .skip := rfl

theorem judgeName_end (name : List UInt8) (isEnd : entry.isEnd = true) :
    judgeName name entry = .stop := by
  rw [judgeName_eq, if_pos isEnd]

theorem judgeName_hidden (name : List UInt8) (notEnd : entry.isEnd = false)
    (hidden : entry.isHidden = true) : judgeName name entry = .skip := by
  rw [judgeName_eq, if_neg (by simp [notEnd]), if_pos hidden]

theorem judgeName_shown (name : List UInt8) (notEnd : entry.isEnd = false)
    (shown : entry.isHidden = false) :
    judgeName name entry = if entry.fullNameUpper = name then .take else .skip := by
  rw [judgeName_eq, if_neg (by simp [notEnd]), if_neg (by simp [shown])]

end Cases

theorem liveOf_append (front back : List Fat32DirEntry) :
    liveOf (front ++ back) =
      liveOf front ++ if front.any Fat32DirEntry.isEnd then [] else liveOf back := by
  induction front with
  | nil => rfl
  | cons entry rest ih =>
      rw [List.cons_append, List.any_cons]
      cases isEnd : entry.isEnd with
      | true => simp [liveOf_end isEnd]
      | false =>
          rw [Bool.false_or]
          cases hidden : entry.isHidden with
          | true => rw [liveOf_hidden isEnd hidden, liveOf_hidden isEnd hidden, ih]
          | false => rw [liveOf_shown isEnd hidden, liveOf_shown isEnd hidden, ih, List.cons_append]

theorem shownOf_append (front back : List Fat32DirEntry) :
    shownOf (front ++ back) = shownOf front ++ shownOf back := by
  simp only [shownOf, List.map_append, List.filter_append]

theorem shownOf_cons (entry : Fat32DirEntry) (rest : List Fat32DirEntry) :
    shownOf (entry :: rest) =
      if IsDotName (DirEntryInfo.ofEntry entry).name then shownOf rest
      else DirEntryInfo.ofEntry entry :: shownOf rest := by
  rw [shownOf, List.map_cons, List.filter_cons]
  split
  · rename_i named
    rw [if_neg (by simpa using named)]
    rfl
  · rename_i dot
    rw [if_pos (by simpa using dot)]
    rfl

theorem mem_liveOf {slots : List Fat32DirEntry} {entry : Fat32DirEntry}
    (live : entry ∈ liveOf slots) :
    entry ∈ slots ∧ entry.isEnd = false ∧ entry.isHidden = false := by
  induction slots with
  | nil => cases live
  | cons first rest ih =>
      have later (found : entry ∈ liveOf rest) :
          entry ∈ first :: rest ∧ entry.isEnd = false ∧ entry.isHidden = false := by
        obtain ⟨member, shown⟩ := ih found
        exact ⟨List.mem_cons_of_mem _ member, shown⟩
      simp only [liveOf] at live
      split at live
      · cases live
      · rename_i notEnd
        split at live
        · exact later live
        · rename_i notHidden
          rcases List.mem_cons.mp live with rfl | found
          · exact ⟨List.mem_cons_self, by simpa using notEnd, by simpa using notHidden⟩
          · exact later found

/-! The slots of one cluster. -/

theorem listSlots_cons (buf : List UInt8) (index : Nat) (rest : List Nat) :
    listSlots buf (index :: rest) =
      if (slotAt buf index).isEnd then ([], true)
      else if (slotAt buf index).isHidden then listSlots buf rest
      else if IsDotName (DirEntryInfo.ofEntry (slotAt buf index)).name then listSlots buf rest
      else (DirEntryInfo.ofEntry (slotAt buf index) :: (listSlots buf rest).1,
        (listSlots buf rest).2) := rfl

theorem listSlots_live (buf : List UInt8) (indices : List Nat) :
    (listSlots buf indices).1 = shownOf (liveOf (indices.map (slotAt buf))) ∧
      (listSlots buf indices).2 = (indices.map (slotAt buf)).any Fat32DirEntry.isEnd := by
  induction indices with
  | nil => exact ⟨rfl, rfl⟩
  | cons index rest ih =>
      obtain ⟨listed, ended⟩ := ih
      rw [listSlots_cons, List.map_cons, List.any_cons]
      cases isEnd : (slotAt buf index).isEnd with
      | true =>
          rw [liveOf_end isEnd]
          exact ⟨rfl, rfl⟩
      | false =>
          rw [if_neg Bool.false_ne_true, Bool.false_or]
          cases hidden : (slotAt buf index).isHidden with
          | true =>
              rw [liveOf_hidden isEnd hidden]
              exact ⟨listed, ended⟩
          | false =>
              rw [if_neg Bool.false_ne_true, liveOf_shown isEnd hidden, shownOf_cons]
              split
              · exact ⟨listed, ended⟩
              · exact ⟨congrArg _ listed, ended⟩

theorem searchSlots_live (name : List UInt8) (buf : List UInt8) (indices : List Nat) :
    match searchSlots (judgeName name) buf indices with
    | .stopped => (indices.map (slotAt buf)).any Fat32DirEntry.isEnd = true ∧
        lookup Fat32DirEntry.fullNameUpper (liveOf (indices.map (slotAt buf))) name = none
    | .taken index =>
        lookup Fat32DirEntry.fullNameUpper (liveOf (indices.map (slotAt buf))) name =
          some (slotAt buf index)
    | .passed => (indices.map (slotAt buf)).any Fat32DirEntry.isEnd = false ∧
        lookup Fat32DirEntry.fullNameUpper (liveOf (indices.map (slotAt buf))) name = none := by
  induction indices with
  | nil => exact ⟨rfl, rfl⟩
  | cons index rest ih =>
      rw [searchSlots, List.map_cons, List.any_cons]
      cases isEnd : (slotAt buf index).isEnd with
      | true =>
          rw [judgeName_end name isEnd, liveOf_end isEnd]
          exact ⟨rfl, rfl⟩
      | false =>
          rw [Bool.false_or]
          cases hidden : (slotAt buf index).isHidden with
          | true =>
              rw [judgeName_hidden name isEnd hidden, liveOf_hidden isEnd hidden]
              exact ih
          | false =>
              rw [judgeName_shown name isEnd hidden, liveOf_shown isEnd hidden]
              by_cases named : (slotAt buf index).fullNameUpper = name
              · rw [if_pos named, ← named]
                exact lookup_cons_same _ _
              · rw [if_neg named, lookup_cons_other _ named]
                exact ih

namespace Volume

variable {volume : Volume}

theorem listing_cons (position : Position) (rest : List Position) :
    volume.listing (position :: rest) =
      if (volume.entry position).isEnd then []
      else if (volume.entry position).isHidden then volume.listing rest
      else if IsDotName (DirEntryInfo.ofEntry (volume.entry position)).name then volume.listing rest
      else DirEntryInfo.ofEntry (volume.entry position) :: volume.listing rest := rfl

theorem listing_live (positions : List Position) :
    volume.listing positions = shownOf (liveOf (positions.map volume.entry)) := by
  induction positions with
  | nil => rfl
  | cons position rest ih =>
      rw [listing_cons, List.map_cons, liveOf, ih]
      split
      · rfl
      · split
        · rfl
        · rw [shownOf_cons]

theorem find_cons (name : List UInt8) (position : Position) (rest : List Position) :
    volume.find name (position :: rest) =
      match judgeName name (volume.entry position) with
      | .stop => none
      | .take => some position
      | .skip => volume.find name rest := by
  rw [find, scan]
  cases judgeName name (volume.entry position) <;> rfl

theorem find_live (name : List UInt8) (positions : List Position) :
    (volume.find name positions).map volume.entry =
      lookup Fat32DirEntry.fullNameUpper (liveOf (positions.map volume.entry)) name := by
  induction positions with
  | nil => rfl
  | cons position rest ih =>
      rw [find_cons, List.map_cons]
      cases isEnd : (volume.entry position).isEnd with
      | true =>
          rw [judgeName_end name isEnd, liveOf_end isEnd]
          rfl
      | false =>
          cases hidden : (volume.entry position).isHidden with
          | true =>
              rw [judgeName_hidden name isEnd hidden, liveOf_hidden isEnd hidden]
              exact ih
          | false =>
              rw [judgeName_shown name isEnd hidden, liveOf_shown isEnd hidden]
              by_cases named : (volume.entry position).fullNameUpper = name
              · rw [if_pos named, ← named, lookup_cons_same]
                rfl
              · rw [if_neg named, lookup_cons_other _ named]
                exact ih

end Volume

end ArcadiaOs.Fs
