import ArcadiaOs.Fs.DirEntryCore
import Mathlib.Data.List.TakeWhile

/-!
Which names survive an entry.  A name is split at its first dot; the entry shows it again
exactly when both parts fit their fields and nothing in them reads as padding.
-/

namespace ArcadiaOs.Fs

open Lib

/-- A byte that neither pads a field nor ends it. -/
def Stored (byte : UInt8) : Prop := byte ≠ 0x20 ∧ byte ≠ 0

instance (byte : UInt8) : Decidable (Stored byte) := inferInstanceAs (Decidable (_ ∧ _))

def splitDot : List UInt8 → List UInt8 × Option (List UInt8)
  | [] => ([], none)
  | byte :: rest =>
      if byte = 0x2E then ([], some rest) else (byte :: (splitDot rest).1, (splitDot rest).2)

def dotted : Option (List UInt8) → List UInt8
  | none => []
  | some ext => 0x2E :: ext

theorem splitDot_join (name : List UInt8) :
    (splitDot name).1 ++ dotted (splitDot name).2 = name := by
  induction name with
  | nil => rfl
  | cons byte rest ih =>
      simp only [splitDot]
      split
      next dot => simp [dotted, dot]
      next => simp [ih]

theorem splitDot_base (name : List UInt8) : 0x2E ∉ (splitDot name).1 := by
  induction name with
  | nil => simp [splitDot]
  | cons byte rest ih =>
      simp only [splitDot]
      split
      next => simp
      next other => simpa [ih] using Ne.symm other

theorem splitDot_of_join {base : List UInt8} (ext : Option (List UInt8)) (absent : 0x2E ∉ base) :
    splitDot (base ++ dotted ext) = (base, ext) := by
  induction base with
  | nil => cases ext <;> simp [dotted, splitDot]
  | cons byte rest ih =>
      have other : byte ≠ 0x2E := fun same => absent (by simp [same])
      have later : 0x2E ∉ rest := fun inside => absent (by simp [inside])
      simp [splitDot, other, ih later]

theorem join_inj {base other : List UInt8} {ext rest : Option (List UInt8)}
    (absent : 0x2E ∉ base) (missing : 0x2E ∉ other) :
    base ++ dotted ext = other ++ dotted rest ↔ base = other ∧ ext = rest := by
  constructor
  · intro same
    have parts := congrArg splitDot same
    rw [splitDot_of_join ext absent, splitDot_of_join rest missing] at parts
    exact Prod.mk.inj parts
  · rintro ⟨rfl, rfl⟩
    rfl

theorem Fat32DirEntry.setName83_parts (entry : Fat32DirEntry) (name : List UInt8) :
    (entry.setName83 name).name = padded 8 (splitDot name).1 ∧
      (entry.setName83 name).ext = padded 3 ((splitDot name).2.getD []) := by
  generalize parts : splitDot name = pair
  obtain ⟨base, ext⟩ := pair
  have absent : 0x2E ∉ base := by simpa [parts] using splitDot_base name
  have joined : name = base ++ dotted ext := by simpa [parts] using (splitDot_join name).symm
  subst joined
  cases ext with
  | none => simp [setName83, dotted, List.idxOf_eq_length absent]
  | some ext =>
      have position : (base ++ dotted (some ext)).idxOf 0x2E = base.length := by
        simp [dotted, List.idxOf_append_of_notMem absent]
      have behind : (base ++ dotted (some ext)).drop (base.length + 1) = ext := by
        simp [dotted, List.drop_append]
      simp only [setName83, position, behind]
      refine ⟨by simp, ?_⟩
      cases ext with
      | nil => simp [dotted]
      | cons first rest => simp [dotted]

theorem unpadded_append_blanks (part : List UInt8) (count : Nat) :
    unpadded (part ++ List.replicate count 0x20) = unpadded part := by
  induction part with
  | nil => cases count <;> simp [unpadded, List.replicate_succ]
  | cons byte rest ih =>
      simp only [unpadded] at ih
      simp [unpadded, List.takeWhile_cons, ih]

theorem unpadded_eq_self {part : List UInt8} : unpadded part = part ↔ ∀ byte ∈ part, Stored byte := by
  rw [unpadded, List.takeWhile_eq_self_iff]
  simp [Stored]

/-- A field gives its part back when the part fits and nothing in it reads as padding. -/
theorem unpadded_padded_iff {width : Nat} {part : List UInt8} :
    unpadded (padded width part) = part ↔ part.length ≤ width ∧ ∀ byte ∈ part, Stored byte := by
  rw [padded, unpadded_append_blanks]
  constructor
  · intro same
    have short : (unpadded (part.take width)).length ≤ width :=
      Nat.le_trans (List.takeWhile_prefix _).length_le (by simp)
    have fits : part.length ≤ width := by rwa [same] at short
    rw [List.take_of_length_le fits] at same
    exact ⟨fits, unpadded_eq_self.mp same⟩
  · rintro ⟨fits, stored⟩
    rw [List.take_of_length_le fits]
    exact unpadded_eq_self.mpr stored

theorem unpadded_padded_absent (width : Nat) {part : List UInt8} (absent : 0x2E ∉ part) :
    0x2E ∉ unpadded (padded width part) := by
  intro inside
  have member := (List.takeWhile_prefix _).subset inside
  simp only [padded, List.mem_append, List.mem_replicate] at member
  rcases member with kept | ⟨-, blank⟩
  · exact absent (List.mem_of_mem_take kept)
  · exact absurd blank (by decide)

def Fat32DirEntry.shownExt (entry : Fat32DirEntry) : Option (List UInt8) :=
  if entry.extShown then some (unpadded entry.ext) else none

theorem Fat32DirEntry.fullNameUpper_eq (entry : Fat32DirEntry) :
    entry.fullNameUpper = unpadded entry.name ++ dotted entry.shownExt := by
  simp only [fullNameUpper, shownExt]
  split <;> rfl

theorem head_padded (width : Nat) (part : List UInt8) :
    byteAt (padded (width + 1) part) 0 = part.head?.getD 0x20 := by
  cases part <;> simp [padded, byteAt, List.replicate_succ]

theorem shownExt_iff {entry : Fat32DirEntry} {ext : Option (List UInt8)}
    (field : entry.ext = padded 3 (ext.getD [])) :
    entry.shownExt = ext ↔
      ∀ part ∈ ext, part ≠ [] ∧ part.length ≤ 3 ∧ ∀ byte ∈ part, Stored byte := by
  rw [Fat32DirEntry.shownExt, Fat32DirEntry.extShown, field, head_padded]
  cases ext with
  | none => simp
  | some part =>
      cases part with
      | nil => simp
      | cons first rest =>
          have fields := @unpadded_padded_iff 3 (first :: rest)
          by_cases shown : Stored first
          · obtain ⟨blank, zero⟩ := shown
            simp [blank, zero, fields]
          · have hidden : ¬(first ≠ 0x20 ∧ first ≠ 0) := shown
            simp [hidden, shown]

structure Encodable (name : List UInt8) : Prop where
  baseFits : (splitDot name).1.length ≤ 8
  baseStored : ∀ byte ∈ (splitDot name).1, Stored byte
  extFits : ∀ ext ∈ (splitDot name).2, ext ≠ [] ∧ ext.length ≤ 3 ∧ ∀ byte ∈ ext, Stored byte
  start : (splitDot name).1.head? ≠ some 0xE5

namespace Fat32DirEntry

variable (entry : Fat32DirEntry) (name : List UInt8)

theorem setName83_isEnd :
    (entry.setName83 name).isEnd = false ↔ (splitDot name).1.head? ≠ some 0 := by
  simp only [isEnd, decide_eq_false_iff_not]
  rw [(entry.setName83_parts name).1, head_padded]
  cases (splitDot name).1 <;> simp

theorem setName83_isDeleted :
    (entry.setName83 name).isDeleted = false ↔ (splitDot name).1.head? ≠ some 0xE5 := by
  simp only [isDeleted, decide_eq_false_iff_not]
  rw [(entry.setName83_parts name).1, head_padded]
  cases (splitDot name).1 <;> simp

theorem setName83_shows :
    (entry.setName83 name).fullNameUpper = name ↔
      ((splitDot name).1.length ≤ 8 ∧ ∀ byte ∈ (splitDot name).1, Stored byte) ∧
        ∀ ext ∈ (splitDot name).2, ext ≠ [] ∧ ext.length ≤ 3 ∧ ∀ byte ∈ ext, Stored byte := by
  obtain ⟨base, ext⟩ := entry.setName83_parts name
  have parts := @join_inj _ _ (entry.setName83 name).shownExt (splitDot name).2
    (unpadded_padded_absent 8 (splitDot_base name)) (splitDot_base name)
  rw [splitDot_join] at parts
  rw [fullNameUpper_eq, base, parts, unpadded_padded_iff, shownExt_iff ext]

end Fat32DirEntry

theorem Encodable.fields_inj {name other : List UInt8} (encodable : Encodable name)
    (fits : Encodable other) {entry slot : Fat32DirEntry}
    (base : (entry.setName83 name).name = (slot.setName83 other).name)
    (ext : (entry.setName83 name).ext = (slot.setName83 other).ext) : name = other := by
  have first := (entry.setName83_shows name).mpr
    ⟨⟨encodable.baseFits, encodable.baseStored⟩, encodable.extFits⟩
  have second := (slot.setName83_shows other).mpr ⟨⟨fits.baseFits, fits.baseStored⟩, fits.extFits⟩
  rw [← first, ← second, Fat32DirEntry.fullNameUpper, Fat32DirEntry.fullNameUpper,
    Fat32DirEntry.extShown, Fat32DirEntry.extShown, base, ext]

theorem Encodable.opens {name : List UInt8} (encodable : Encodable name) :
    (splitDot name).1.head? ≠ some 0 := by
  intro zero
  exact (encodable.baseStored 0 (List.mem_of_head? zero)).2 rfl

/-- An entry set to a name is live and shows the name again exactly for the names it can hold,
and two such names never share their fields. -/
theorem name_survives_iff : ∀ name : List UInt8, name ≠ [] →
    (∀ entry : Fat32DirEntry,
      ((entry.setName83 name).isEnd = false ∧ (entry.setName83 name).isDeleted = false ∧
        (entry.setName83 name).fullNameUpper = name) ↔ Encodable name) ∧
    (Encodable name → ∀ other, other ≠ [] → Encodable other → other ≠ name →
      ∀ entry slot : Fat32DirEntry,
        ((entry.setName83 name).name, (entry.setName83 name).ext) ≠
          ((slot.setName83 other).name, (slot.setName83 other).ext)) := by
  intro name _
  constructor
  · intro entry
    rw [entry.setName83_isEnd, entry.setName83_isDeleted, entry.setName83_shows]
    constructor
    · rintro ⟨-, start, ⟨baseFits, baseStored⟩, extFits⟩
      exact ⟨baseFits, baseStored, extFits, start⟩
    · intro encodable
      exact ⟨encodable.opens, encodable.start, ⟨encodable.baseFits, encodable.baseStored⟩,
        encodable.extFits⟩
  · intro encodable other _ fits different entry slot same
    obtain ⟨base, ext⟩ := Prod.mk.inj same
    exact different (encodable.fields_inj fits base ext).symm

theorem encodable_dot_file : Encodable [0x2E, 0x41, 0x2E, 0x42] := by
  refine ⟨by decide, by simp [splitDot], ?_, by decide⟩
  intro ext shown
  obtain rfl : [0x41, 0x2E, 0x42] = ext := by simpa [splitDot] using shown
  simp [Stored]

theorem encodable_letter : Encodable [0x41] :=
  ⟨by decide, by simp [splitDot, Stored], by simp [splitDot], by decide⟩

theorem dot_file_survives :
    ((Fat32DirEntry.zeroed.setName83 [0x2E, 0x41, 0x2E, 0x42]).isEnd = false ∧
      (Fat32DirEntry.zeroed.setName83 [0x2E, 0x41, 0x2E, 0x42]).isDeleted = false ∧
      (Fat32DirEntry.zeroed.setName83 [0x2E, 0x41, 0x2E, 0x42]).fullNameUpper =
        [0x2E, 0x41, 0x2E, 0x42]) ∧
    ((Fat32DirEntry.zeroed.setName83 [0x2E, 0x41, 0x2E, 0x42]).name,
        (Fat32DirEntry.zeroed.setName83 [0x2E, 0x41, 0x2E, 0x42]).ext) ≠
      ((Fat32DirEntry.zeroed.setName83 [0x41]).name,
        (Fat32DirEntry.zeroed.setName83 [0x41]).ext) := by
  obtain ⟨shows, apart⟩ := name_survives_iff [0x2E, 0x41, 0x2E, 0x42] (by simp)
  exact ⟨(shows _).mpr encodable_dot_file,
    apart encodable_dot_file [0x41] (by simp) encodable_letter (by simp) _ _⟩

end ArcadiaOs.Fs
