import ArcadiaOs.Fs.ClusterOwnership
import ArcadiaOs.Fs.LiveEntries
import ArcadiaOs.Fs.Utf8
import ArcadiaOs.Lib.Footprint

/-!
The two lookups of a name.  `find_entry` compares raw bytes; `resolve_path` compares what
`read_dir_entries` lists after it went to lower case, through lossy UTF-8 and back to upper case.
They agree on a directory exactly when every listed name survives that way.
-/

namespace ArcadiaOs.Fs

open Lib

/-- Well-formed UTF-8 without lower-case ASCII letters. -/
def PlainName (name : List UInt8) : Prop :=
  fromUtf8Lossy name = name ∧ name.map asciiUpper = name

instance (name : List UInt8) : Decidable (PlainName name) := inferInstanceAs (Decidable (_ ∧ _))

/-- The name of a listed entry as `resolve_path` compares it. -/
def comparedName (entry : Fat32DirEntry) : List UInt8 := toUpper83 (DirEntryInfo.ofEntry entry).name

theorem comparedName_eq (entry : Fat32DirEntry) :
    comparedName entry = (fromUtf8Lossy entry.fullNameUpper).map asciiUpper := by
  rw [comparedName, toUpper83, DirEntryInfo.ofEntry, Volume.fullName_eq, asciiUpper_map.fromUtf8Lossy,
    asciiLower_map.fromUtf8Lossy]
  simp only
  rw [asciiLower_map.fromUtf8Lossy, fromUtf8Lossy_idem, List.map_map]
  exact List.map_congr_left fun byte _ => asciiUpper_lower byte

/-- Only a plain name survives the way through the listing. -/
theorem comparedName_plain (entry : Fat32DirEntry) :
    comparedName entry = entry.fullNameUpper ↔ PlainName entry.fullNameUpper := by
  rw [comparedName_eq, PlainName]
  constructor
  · intro same
    have upper : entry.fullNameUpper.map asciiUpper = entry.fullNameUpper := by
      rw [← same, List.map_map]
      exact List.map_congr_left fun byte _ => asciiUpper_idem byte
    refine ⟨?_, upper⟩
    rw [← asciiUpper_map.fromUtf8Lossy, upper] at same
    exact same
  · rintro ⟨read, upper⟩
    rw [read, upper]

theorem comparedName_idem {entry other : Fat32DirEntry}
    (same : other.fullNameUpper = comparedName entry) : comparedName other = comparedName entry := by
  rw [comparedName_eq other, same, comparedName_eq, asciiUpper_map.fromUtf8Lossy,
    fromUtf8Lossy_idem, List.map_map]
  exact List.map_congr_left fun byte _ => asciiUpper_idem byte

theorem isDotName_ascii {name : List UInt8} (dot : IsDotName name) : ∀ byte ∈ name, byte < 0x80 := by
  rcases dot with rfl | rfl <;> simp

theorem map_eq_dots {convert : UInt8 → UInt8} (fixed : ∀ byte, convert byte = 0x2E ↔ byte = 0x2E)
    (name : List UInt8) : IsDotName (name.map convert) ↔ IsDotName name := by
  rcases name with _ | ⟨first, _ | ⟨second, _ | ⟨third, rest⟩⟩⟩ <;> simp [IsDotName, fixed]

theorem fromUtf8Lossy_dots (name : List UInt8) : IsDotName (fromUtf8Lossy name) ↔ IsDotName name := by
  have one : fromUtf8Lossy name = [0x2E] ↔ name = [0x2E] :=
    fromUtf8Lossy_eq_ascii_iff (isDotName_ascii (.inl rfl))
  have two : fromUtf8Lossy name = [0x2E, 0x2E] ↔ name = [0x2E, 0x2E] :=
    fromUtf8Lossy_eq_ascii_iff (isDotName_ascii (.inr rfl))
  exact or_congr one two

theorem asciiUpper_dot (byte : UInt8) : asciiUpper byte = 0x2E ↔ byte = 0x2E := by
  simp only [asciiUpper]
  grind

theorem asciiLower_dot (byte : UInt8) : asciiLower byte = 0x2E ↔ byte = 0x2E := by
  simp only [asciiLower]
  grind

theorem shown_dots (entry : Fat32DirEntry) :
    IsDotName (DirEntryInfo.ofEntry entry).name ↔ IsDotName entry.fullNameUpper := by
  rw [DirEntryInfo.ofEntry, Volume.fullName_eq]
  exact (fromUtf8Lossy_dots _).trans (map_eq_dots asciiLower_dot _)

theorem toUpper83_dots (name : List UInt8) : IsDotName (toUpper83 name) ↔ IsDotName name :=
  (fromUtf8Lossy_dots _).trans (map_eq_dots asciiUpper_dot _)

def shownEntries (entries : List Fat32DirEntry) : List Fat32DirEntry :=
  entries.filter fun entry => ¬IsDotName entry.fullNameUpper

theorem shownOf_eq (entries : List Fat32DirEntry) :
    shownOf entries = (shownEntries entries).map DirEntryInfo.ofEntry := by
  rw [shownOf, shownEntries, List.filter_map]
  congr 1
  apply List.filter_congr
  intro entry _
  simp only [Function.comp_apply, decide_not, shown_dots]

theorem lookup_shownEntries (entries : List Fat32DirEntry) {name : List UInt8}
    (named : ¬IsDotName name) : lookup Fat32DirEntry.fullNameUpper entries name =
      lookup Fat32DirEntry.fullNameUpper (shownEntries entries) name := by
  induction entries with
  | nil => rfl
  | cons entry rest ih =>
      by_cases same : entry.fullNameUpper = name
      · subst same
        rw [lookup_cons_same, shownEntries, List.filter_cons, if_pos (by simpa using named),
          lookup_cons_same]
      · rw [lookup_cons_other _ same, ih, shownEntries, shownEntries, List.filter_cons]
        split
        · rw [lookup_cons_other _ same]
        · rfl

namespace Fat32Fs

def liveChain (fs : Fat32Fs) : List Nat → Disk String (List Fat32DirEntry)
  | [] => pure []
  | cluster :: rest => do
      let buf ← fs.readCluster cluster fs.clusterZeros
      if (fs.slotIndices.map (slotAt buf)).any Fat32DirEntry.isEnd
      then pure (liveOf (fs.slotIndices.map (slotAt buf)))
      else do
        let later ← fs.liveChain rest
        pure (liveOf (fs.slotIndices.map (slotAt buf)) ++ later)

def liveEntries (fs : Fat32Fs) (dirCluster : Nat) : Disk String (List Fat32DirEntry) := do
  let chain ← fs.readChain dirCluster
  fs.liveChain chain

variable {fs : Fat32Fs}

theorem listChain_live (clusters : List Nat) :
    fs.listChain clusters = shownOf <$> fs.liveChain clusters := by
  induction clusters with
  | nil => rw [listChain, liveChain, map_pure]; rfl
  | cons cluster rest ih =>
      rw [listChain, liveChain, map_bind]
      congr 1
      funext buf
      obtain ⟨listed, ended⟩ := listSlots_live buf fs.slotIndices
      show (if (listSlots buf fs.slotIndices).2 = true then pure (listSlots buf fs.slotIndices).1
        else fs.listChain rest >>= fun later => pure ((listSlots buf fs.slotIndices).1 ++ later)) = _
      rw [listed, ended, ih]
      split
      · rw [map_pure]
      · rw [map_bind, bind_map_left]
        simp only [map_pure, shownOf_append]

theorem readDirEntries_live (dir : Nat) :
    fs.readDirEntries dir = shownOf <$> fs.liveEntries dir := by
  rw [readDirEntries, liveEntries, map_bind]
  congr 1
  funext chain
  exact listChain_live chain

theorem liveChain_readOnly (clusters : List Nat) : (fs.liveChain clusters).ReadOnly := by
  induction clusters with
  | nil => exact .pure _
  | cons cluster rest ih =>
      refine .bind (fs.readCluster_readOnly _ _) fun buf => ?_
      split
      · exact .pure _
      · exact .bind ih fun _ => .pure _

def foundEntry : DirSearch → Option Fat32DirEntry
  | .taken _ buf index => some (slotAt buf index)
  | _ => none

theorem searchChain_live (name : List UInt8) {clusters : List Nat} {device device' : Device}
    {entries : List Fat32DirEntry} (read : fs.liveChain clusters device = .ok entries device') :
    ∃ search, fs.searchChain (judgeName name) clusters device = .ok search device ∧
      foundEntry search = lookup Fat32DirEntry.fullNameUpper entries name := by
  induction clusters generalizing entries device' with
  | nil =>
      injection read with same _
      subst same
      exact ⟨.exhausted, rfl, rfl⟩
  | cons cluster rest ih =>
      rw [liveChain] at read
      obtain ⟨buf, middle, readBuf, readRest⟩ := Lib.bind_ok.mp read
      obtain rfl := (fs.readCluster_readOnly _ _).ok readBuf
      have slots := searchSlots_live name buf fs.slotIndices
      simp only [searchChain]
      rw [Disk.bind_ok readBuf]
      cases search : searchSlots (judgeName name) buf fs.slotIndices with
      | stopped =>
          rw [search] at slots
          rw [if_pos slots.1] at readRest
          injection readRest with same _
          subst same
          exact ⟨.stopped, rfl, slots.2.symm⟩
      | taken index =>
          rw [search] at slots
          refine ⟨.taken cluster buf index, rfl, ?_⟩
          split at readRest
          · injection readRest with same _
            subst same
            exact slots.symm
          · obtain ⟨later, _, _, readLater⟩ := Lib.bind_ok.mp readRest
            injection readLater with same _
            subst same
            rw [lookup, List.find?_append]
            rw [lookup] at slots
            rw [slots]
            rfl
      | passed =>
          rw [search] at slots
          rw [if_neg (by rw [slots.1]; exact Bool.false_ne_true)] at readRest
          obtain ⟨later, last, readLater, rejoined⟩ := Lib.bind_ok.mp readRest
          injection rejoined with same _
          subst same
          obtain ⟨found, ran, agrees⟩ := ih readLater
          refine ⟨found, ran, ?_⟩
          rw [agrees, lookup, lookup, List.find?_append]
          have missed := slots.2
          rw [lookup] at missed
          rw [missed]
          rfl

theorem findEntry_live (name : List UInt8) {dir : Nat} {device device' : Device}
    {entries : List Fat32DirEntry} (read : fs.liveEntries dir device = .ok entries device') :
    fs.findEntry dir name device =
      .ok (lookup Fat32DirEntry.fullNameUpper entries name) device := by
  rw [liveEntries] at read
  obtain ⟨chain, middle, readChain, readEntries⟩ := Lib.bind_ok.mp read
  obtain rfl := (fs.readChain_readOnly dir).ok readChain
  obtain ⟨search, ran, found⟩ := searchChain_live name readEntries
  rw [findEntry, Disk.bind_ok readChain, Disk.bind_ok ran, ← found]
  cases search <;> rfl

end Fat32Fs

/-- What a directory lists can be opened: `find_entry` knows every listed name, and `resolve_path`
finds a component exactly when `find_entry` does. -/
structure Openable (fs : Fat32Fs) (vfs : VfsManager) (dir : Nat) (device : Device)
    (infos : List DirEntryInfo) : Prop where
  found : ∀ info ∈ infos, ∃ entry,
    fs.findEntry dir (toUpper83 info.name) device = .ok (some entry) device ∧
      entry.firstCluster = info.cluster ∧ entry.fileSize.toNat = info.size ∧
      entry.isDirectory = info.isDir
  resolved : ∀ component : Path, component ≠ [] → ¬IsDotName component → ∀ cluster,
    vfs.resolveComponent fs component dir device = .ok cluster device ↔
      ∃ entry, fs.findEntry dir (toUpper83 component) device = .ok (some entry) device ∧
        entry.firstCluster = cluster

section Openable

variable {fs : Fat32Fs} {vfs : VfsManager} {dir : Nat} {device : Device}
  {entries : List Fat32DirEntry}

theorem mem_shownEntries {entry : Fat32DirEntry} :
    entry ∈ shownEntries entries ↔ entry ∈ entries ∧ ¬IsDotName entry.fullNameUpper := by
  simp only [shownEntries, List.mem_filter, decide_eq_true_eq]

theorem comparedNames_eq : (shownOf entries).map (fun info => toUpper83 info.name) =
    (shownEntries entries).map comparedName := by
  rw [shownOf_eq, List.map_map]
  rfl

theorem comparedName_dots (entry : Fat32DirEntry) :
    IsDotName (comparedName entry) ↔ IsDotName entry.fullNameUpper :=
  (toUpper83_dots _).trans (shown_dots entry)

theorem plain_of_openable (read : fs.liveEntries dir device = .ok entries device)
    (unique : UniqueKeys comparedName (shownEntries entries))
    (openable : Openable fs vfs dir device (shownOf entries)) :
    ∀ entry ∈ shownEntries entries, PlainName entry.fullNameUpper := by
  intro entry member
  have listed : DirEntryInfo.ofEntry entry ∈ shownOf entries := by
    rw [shownOf_eq]
    exact List.mem_map_of_mem member
  obtain ⟨other, ran, _⟩ := openable.found _ listed
  rw [Fat32Fs.findEntry_live _ read] at ran
  injection ran with found _
  obtain ⟨otherMember, named⟩ := lookup_mem found
  have otherShown : other ∈ shownEntries entries := by
    refine mem_shownEntries.mpr ⟨otherMember, ?_⟩
    rw [named]
    exact fun dot => (mem_shownEntries.mp member).2 ((comparedName_dots entry).mp dot)
  have same : other = entry :=
    List.inj_on_of_nodup_map unique otherShown member (comparedName_idem named)
  subst same
  exact (comparedName_plain _).mp named.symm

theorem find_shownOf (name : List UInt8) :
    ((shownOf entries).find? fun info => toUpper83 info.name = name) =
      (lookup comparedName (shownEntries entries) name).map DirEntryInfo.ofEntry := by
  rw [shownOf_eq, List.find?_map]
  rfl

variable (plain : ∀ entry ∈ shownEntries entries, PlainName entry.fullNameUpper)

include plain

theorem comparedName_shown : ∀ entry ∈ shownEntries entries, comparedName entry = entry.fullNameUpper :=
  fun entry member => (comparedName_plain entry).mpr (plain entry member)

theorem lookup_plain {name : List UInt8} (named : ¬IsDotName name) :
    lookup Fat32DirEntry.fullNameUpper entries name =
      lookup comparedName (shownEntries entries) name := by
  rw [lookup_shownEntries entries named]
  exact lookup_congr (fun entry member => (comparedName_shown plain entry member).symm) name

theorem openable_of_plain (read : fs.liveEntries dir device = .ok entries device)
    (unique : UniqueKeys comparedName (shownEntries entries)) :
    Openable fs vfs dir device (shownOf entries) := by
  constructor
  · intro info listed
    rw [shownOf_eq] at listed
    obtain ⟨entry, member, rfl⟩ := List.mem_map.mp listed
    have named : ¬IsDotName (comparedName entry) :=
      fun dot => (mem_shownEntries.mp member).2 ((comparedName_dots entry).mp dot)
    refine ⟨entry, ?_, rfl, rfl, rfl⟩
    show fs.findEntry dir (comparedName entry) device = _
    rw [Fat32Fs.findEntry_live _ read, lookup_plain plain named,
      (lookup_eq_some_iff unique).mpr ⟨member, rfl⟩]
  · intro component nonempty named cluster
    have listed : fs.readDirEntries dir device = .ok (shownOf entries) device := by
      rw [Fat32Fs.readDirEntries_live]
      exact Disk.bind_ok read _
    have upperNamed : ¬IsDotName (toUpper83 component) := fun dot =>
      named ((toUpper83_dots component).mp dot)
    rw [VfsManager.resolveComponent, if_neg (not_or.mpr ⟨nonempty, fun dot => named (.inl dot)⟩),
      if_neg fun dots => named (.inr dots), Disk.bind_ok (Disk.mapErr_ok listed _),
      find_shownOf, Fat32Fs.findEntry_live _ read, lookup_plain plain upperNamed]
    cases lookup comparedName (shownEntries entries) (toUpper83 component) with
    | none =>
        constructor
        · intro ran
          cases ran
        · rintro ⟨entry, ran, _⟩
          cases ran
    | some entry =>
        constructor
        · intro ran
          injection ran with same _
          exact ⟨entry, rfl, same⟩
        · rintro ⟨other, ran, rfl⟩
          injection ran with same _
          injection same with same
          subst same
          rfl

end Openable

/-- A directory whose listed names are unique can be opened by them exactly when every live entry
has a plain name. -/
theorem openable_iff_plain (fs : Fat32Fs) (vfs : VfsManager) (dir : Nat) {device device' : Device}
    {infos : List DirEntryInfo} (listed : fs.readDirEntries dir device = .ok infos device')
    (unique : (infos.map fun info => toUpper83 info.name).Nodup) :
    ∃ entries, fs.liveEntries dir device = .ok entries device ∧
      (Openable fs vfs dir device infos ↔
        ∀ entry ∈ entries, ¬IsDotName entry.fullNameUpper → PlainName entry.fullNameUpper) := by
  rw [Fat32Fs.readDirEntries_live] at listed
  obtain ⟨entries, middle, read, shown⟩ := Lib.bind_ok.mp listed
  injection shown with shown _
  subst shown
  have reads : (fs.liveEntries dir).ReadOnly :=
    .bind (fs.readChain_readOnly dir) fun chain => Fat32Fs.liveChain_readOnly chain
  obtain rfl := reads.ok read
  rw [comparedNames_eq] at unique
  refine ⟨entries, read, fun openable entry member named => ?_, fun plain => ?_⟩
  · exact plain_of_openable read unique openable entry (mem_shownEntries.mpr ⟨member, named⟩)
  · refine openable_of_plain (fun entry member => ?_) read unique
    obtain ⟨live, named⟩ := mem_shownEntries.mp member
    exact plain entry live named

/-- The blank volume with one file of the given name field, of no clusters, in its root directory. -/
def namedDevice (field : List UInt8) : Device where
  sector lba :=
    if lba = 2 then filledSector 0 (padded 11 field) (by rw [length_padded]; decide)
    else blankDevice.sector lba
  readable _ := true
  writable _ := true

theorem openable_iff_plain_upper :
    smallFs.readDirEntries 2 (namedDevice [0x41]) =
        .ok [⟨[0x61], false, 0, 0⟩] (namedDevice [0x41]) ∧
      ∃ entries, smallFs.liveEntries 2 (namedDevice [0x41]) = .ok entries (namedDevice [0x41]) ∧
        (Openable smallFs blankSession.vfs 2 (namedDevice [0x41]) [⟨[0x61], false, 0, 0⟩] ↔
          ∀ entry ∈ entries, ¬IsDotName entry.fullNameUpper → PlainName entry.fullNameUpper) := by
  have listed : smallFs.readDirEntries 2 (namedDevice [0x41]) =
      .ok [⟨[0x61], false, 0, 0⟩] (namedDevice [0x41]) :=
    (smallFs.readDirEntries_readOnly 2).answer_ok_iff.mp (by decide +kernel)
  exact ⟨listed, openable_iff_plain smallFs blankSession.vfs 2 listed (by decide)⟩

/-- A file whose stored name is a lower-case `a` is listed but never found. -/
theorem lower_case_name_not_found : ∃ infos,
    smallFs.readDirEntries 2 (namedDevice [0x61]) = .ok infos (namedDevice [0x61]) ∧
      (infos.map fun info => toUpper83 info.name).Nodup ∧
      ¬Openable smallFs blankSession.vfs 2 (namedDevice [0x61]) infos := by
  have missing : smallFs.findEntry 2 [0x41] (namedDevice [0x61]) = .ok none (namedDevice [0x61]) :=
    (smallFs.findEntry_readOnly 2 [0x41]).answer_ok_iff.mp (by decide +kernel)
  refine ⟨[⟨[0x61], false, 0, 0⟩],
    (smallFs.readDirEntries_readOnly 2).answer_ok_iff.mp (by decide +kernel), by decide, ?_⟩
  intro openable
  obtain ⟨entry, ran, _⟩ := openable.found _ List.mem_cons_self
  have named : toUpper83 [0x61] = [0x41] := by decide
  rw [named, missing] at ran
  cases ran

end ArcadiaOs.Fs
