import ArcadiaOs.Fs.NameEncoding
import ArcadiaOs.Fs.NameLookup

/-!
8.3 names.  A name of up to eight bytes and an extension of up to three fit the two fields
of an entry, and the entry shows them again.
-/

namespace ArcadiaOs.Fs

open Lib

/-- The bytes of an 8.3 name, in either case. -/
def NameByte (byte : UInt8) : Prop :=
  0x30 ≤ byte ∧ byte ≤ 0x39 ∨ 0x41 ≤ byte ∧ byte ≤ 0x5A ∨ 0x61 ≤ byte ∧ byte ≤ 0x7A ∨
    byte ∈ [0x21, 0x23, 0x24, 0x25, 0x26, 0x27, 0x28, 0x29, 0x2D, 0x40, 0x5E, 0x5F, 0x60, 0x7B,
      0x7D, (0x7E : UInt8)]

instance (byte : UInt8) : Decidable (NameByte byte) := inferInstanceAs (Decidable (_ ∨ _))

theorem forall_byte {holds : UInt8 → Prop} (all : ∀ value : Fin 256, holds (UInt8.ofFin value))
    (byte : UInt8) : holds byte := all byte.toFin

theorem nameByte_facts (byte : UInt8) : NameByte byte →
    byte < 0x80 ∧ (byte ≠ 0x20 ∧ byte ≠ 0 ∧ byte ≠ 0xE5) ∧ (byte ≠ 0x2E ∧ byte ≠ slash) ∧
      NameByte (asciiUpper byte) := by
  revert byte
  apply forall_byte
  decide +kernel

structure ShortName (base ext : List UInt8) : Prop where
  some : base ≠ []
  baseFits : base.length ≤ 8
  extFits : ext.length ≤ 3
  bytes : ∀ byte ∈ base ++ ext, NameByte byte

def joinName (base ext : List UInt8) : List UInt8 := base ++ if ext = [] then [] else 0x2E :: ext

def Valid83 (name : Path) : Prop := ∃ base ext, ShortName base ext ∧ name = joinName base ext

/-- An entry whose fields hold an upper-case 8.3 name. -/
def Fat32DirEntry.Plain (entry : Fat32DirEntry) : Prop :=
  ∃ base ext, ShortName base ext ∧ (∀ byte ∈ base ++ ext, asciiUpper byte = byte) ∧
    entry.name = padded 8 base ∧ entry.ext = padded 3 ext

theorem unpadded_padded {width : Nat} {part : List UInt8} (fits : part.length ≤ width)
    (bytes : ∀ byte ∈ part, NameByte byte) : unpadded (padded width part) = part := by
  refine unpadded_padded_iff.mpr ⟨fits, fun byte member => ?_⟩
  obtain ⟨_, ⟨blank, zero, _⟩, _⟩ := nameByte_facts byte (bytes byte member)
  exact ⟨blank, zero⟩

theorem idxOf_joinName {base : List UInt8} (bytes : ∀ byte ∈ base, NameByte byte)
    (ext : List UInt8) : (joinName base ext).idxOf 0x2E = base.length := by
  have absent : (0x2E : UInt8) ∉ base := fun member => (nameByte_facts _ (bytes _ member)).2.2.1.1 rfl
  rw [joinName, List.idxOf_append_of_notMem absent]
  split
  · rfl
  · rw [List.idxOf_cons_self, Nat.add_zero]

namespace ShortName

variable {base ext : List UInt8} (short : ShortName base ext)
include short

theorem base_bytes : ∀ byte ∈ base, NameByte byte :=
  fun byte member => short.bytes byte (List.mem_append_left _ member)

theorem ext_bytes : ∀ byte ∈ ext, NameByte byte :=
  fun byte member => short.bytes byte (List.mem_append_right _ member)

theorem upper : ShortName (base.map asciiUpper) (ext.map asciiUpper) := by
  refine ⟨by simpa using short.some, by simpa using short.baseFits, by simpa using short.extFits, ?_⟩
  intro byte member
  rw [← List.map_append] at member
  obtain ⟨before, inside, rfl⟩ := List.mem_map.mp member
  exact (nameByte_facts before (short.bytes before inside)).2.2.2

theorem setName83 (entry : Fat32DirEntry) :
    (entry.setName83 (joinName base ext)).name = padded 8 base ∧
      (entry.setName83 (joinName base ext)).ext = padded 3 ext := by
  simp only [Fat32DirEntry.setName83, idxOf_joinName short.base_bytes]
  constructor
  · rw [joinName, List.take_left]
  · rw [joinName]
    by_cases empty : ext = []
    · rw [if_pos empty, empty, List.append_nil, if_neg (by omega)]
    · have some := List.length_pos_iff.mpr empty
      have drop : (base ++ 0x2E :: ext).drop (base.length + 1) = ext := by
        rw [List.drop_length_add_append]
        rfl
      rw [if_neg empty, if_pos (by simp only [List.length_append, List.length_cons]; omega), drop]

theorem fullNameUpper {entry : Fat32DirEntry} (name : entry.name = padded 8 base)
    (extension : entry.ext = padded 3 ext) : entry.fullNameUpper = joinName base ext := by
  rw [Fat32DirEntry.fullNameUpper, Fat32DirEntry.extShown, name, extension, joinName,
    unpadded_padded short.baseFits short.base_bytes, unpadded_padded short.extFits short.ext_bytes]
  cases ext with
  | nil => rfl
  | cons first rest =>
      obtain ⟨_, ⟨blank, zero, _⟩, _⟩ := nameByte_facts first (short.ext_bytes first List.mem_cons_self)
      have head : byteAt (padded 3 (first :: rest)) 0 = first := rfl
      simp [head, blank, zero]

theorem ascii : ∀ byte ∈ joinName base ext, byte < 0x80 := by
  intro byte member
  rw [joinName] at member
  rcases List.mem_append.mp member with front | back
  · exact (nameByte_facts byte (short.base_bytes byte front)).1
  · split at back
    · cases back
    · rcases List.mem_cons.mp back with rfl | inside
      · decide
      · exact (nameByte_facts byte (short.ext_bytes byte inside)).1

end ShortName

theorem joinName_map (convert : UInt8 → UInt8) (dot : convert 0x2E = 0x2E) (base ext : List UInt8) :
    (joinName base ext).map convert = joinName (base.map convert) (ext.map convert) := by
  rw [joinName, joinName, List.map_append]
  cases ext with
  | nil => rfl
  | cons first rest => simp [dot]

theorem ShortName.named {base ext : List UInt8} (short : ShortName base ext) :
    ¬IsDotName (joinName base ext) := by
  cases base with
  | nil => exact absurd rfl short.some
  | cons first rest =>
      have other := (nameByte_facts first (short.base_bytes first List.mem_cons_self)).2.2.1.1
      rintro (one | two)
      · exact other (List.cons.inj one).1
      · exact other (List.cons.inj two).1

theorem Fat32DirEntry.Plain.plainName {entry : Fat32DirEntry} (plain : entry.Plain) :
    PlainName entry.fullNameUpper := by
  obtain ⟨base, ext, short, upper, name, extension⟩ := plain
  rw [short.fullNameUpper name extension]
  refine ⟨fromUtf8Lossy_ascii short.ascii, ?_⟩
  rw [joinName_map asciiUpper (by decide)]
  have fixed (part : List UInt8) (inside : ∀ byte ∈ part, byte ∈ base ++ ext) :
      part.map asciiUpper = part := by
    conv_rhs => rw [← List.map_id part]
    exact List.map_congr_left fun byte member => upper byte (inside byte member)
  rw [fixed base fun _ => List.mem_append_left ext, fixed ext fun _ => List.mem_append_right base]

theorem ShortName.toUpper83 {base ext : List UInt8} (short : ShortName base ext) :
    Fs.toUpper83 (joinName base ext) = joinName (base.map asciiUpper) (ext.map asciiUpper) := by
  rw [Fs.toUpper83, joinName_map asciiUpper (by decide), fromUtf8Lossy_ascii short.upper.ascii]

section NewEntry

variable {name : Path} (valid : Valid83 name) (attributes : UInt8) (cluster size : Nat)
include valid

theorem newEntry_plain : (VfsManager.newEntry (toUpper83 name) attributes cluster size).Plain := by
  obtain ⟨base, ext, short, rfl⟩ := valid
  rw [short.toUpper83]
  obtain ⟨field, extension⟩ := short.upper.setName83 Fat32DirEntry.zeroed
  refine ⟨base.map asciiUpper, ext.map asciiUpper, short.upper, ?_, field, extension⟩
  intro byte member
  rw [← List.map_append] at member
  obtain ⟨before, _, rfl⟩ := List.mem_map.mp member
  exact asciiUpper_idem before

theorem newEntry_fullNameUpper :
    (VfsManager.newEntry (toUpper83 name) attributes cluster size).fullNameUpper =
      toUpper83 name := by
  obtain ⟨base, ext, short, rfl⟩ := valid
  rw [short.toUpper83]
  obtain ⟨field, extension⟩ := short.upper.setName83 Fat32DirEntry.zeroed
  exact short.upper.fullNameUpper field extension

theorem newEntry_shown :
    (DirEntryInfo.ofEntry (VfsManager.newEntry (toUpper83 name) attributes cluster size)).name =
      name.map asciiLower := by
  rw [DirEntryInfo.ofEntry, Volume.fullName_eq, newEntry_fullNameUpper valid]
  obtain ⟨base, ext, short, rfl⟩ := valid
  have lower : ∀ byte, asciiLower (asciiUpper byte) = asciiLower byte := by
    apply forall_byte
    decide +kernel
  have shown : (toUpper83 (joinName base ext)).map asciiLower =
      (joinName base ext).map asciiLower := by
    rw [short.toUpper83, ← joinName_map asciiUpper (by decide), List.map_map]
    exact List.map_congr_left fun byte _ => lower byte
  rw [asciiLower_map.fromUtf8Lossy, short.toUpper83, fromUtf8Lossy_ascii short.upper.ascii,
    ← short.toUpper83]
  exact shown

end NewEntry

theorem Fat32DirEntry.Plain.live {entry : Fat32DirEntry} (plain : entry.Plain) :
    entry.isEnd = false ∧ entry.isDeleted = false := by
  obtain ⟨base, ext, short, _, name, _⟩ := plain
  cases base with
  | nil => exact absurd rfl short.some
  | cons first rest =>
      have head : byteAt entry.name 0 = first := by
        rw [name]
        rfl
      obtain ⟨_, ⟨_, zero, deleted⟩, _⟩ :=
        nameByte_facts first (short.base_bytes first List.mem_cons_self)
      simp [isEnd, isDeleted, head, zero, deleted]

theorem newEntry_directory (nameUpper : Path) (cluster size : Nat) :
    (VfsManager.newEntry nameUpper 0x10 cluster size).isLongName = false ∧
      (VfsManager.newEntry nameUpper 0x10 cluster size).isVolumeLabel = false ∧
      (VfsManager.newEntry nameUpper 0x10 cluster size).isDirectory = true := by
  have attributes : decide ((0x10 : UInt8) &&& 0x0F = 0x0F) = false ∧
      decide ((0x10 : UInt8) &&& 0x08 ≠ 0) = false ∧ decide ((0x10 : UInt8) &&& 0x10 ≠ 0) = true := by
    decide
  exact attributes

theorem Valid83.component {name : Path} (valid : Valid83 name) :
    name ≠ [] ∧ ¬IsDotName name ∧ slash ∉ name := by
  obtain ⟨base, ext, short, rfl⟩ := valid
  refine ⟨?_, short.named, fun member => ?_⟩
  · rw [joinName]
    exact List.append_ne_nil_of_left_ne_nil short.some _
  · rw [joinName] at member
    rcases List.mem_append.mp member with front | back
    · exact (nameByte_facts _ (short.base_bytes _ front)).2.2.1.2 rfl
    · split at back
      · cases back
      · rcases List.mem_cons.mp back with same | inside
        · exact absurd same (by decide)
        · exact (nameByte_facts _ (short.ext_bytes _ inside)).2.2.1.2 rfl

end ArcadiaOs.Fs
