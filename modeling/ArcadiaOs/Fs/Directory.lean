import ArcadiaOs.Fs.DirEntry
import ArcadiaOs.Fs.FileData

/-!
Directories on the view of a volume.  The slots of a directory are one list of
positions, and a lookup is a search in that list.
-/

namespace ArcadiaOs.Fs

open Lib

abbrev Position := Nat × Nat

def Fat32Fs.positions (fs : Fat32Fs) (clusters : List Nat) : List Position :=
  clusters.flatMap fun cluster => fs.slotIndices.map fun index => (cluster, index)

inductive Scan
  | stopped
  | taken (position : Position)
  | exhausted
  deriving DecidableEq

namespace Volume

def entry (volume : Volume) (position : Position) : Fat32DirEntry :=
  slotAt (volume.data position.1) position.2

def scan (volume : Volume) (judge : Fat32DirEntry → Verdict) : List Position → Scan
  | [] => .exhausted
  | position :: rest =>
      match judge (volume.entry position) with
      | .stop => .stopped
      | .take => .taken position
      | .skip => volume.scan judge rest

def find (volume : Volume) (nameUpper : List UInt8) (positions : List Position) : Option Position :=
  match volume.scan (judgeName nameUpper) positions with
  | .taken position => some position
  | _ => none

def listing (volume : Volume) : List Position → List DirEntryInfo
  | [] => []
  | position :: rest =>
      let entry := volume.entry position
      if entry.isEnd then []
      else if entry.isDeleted || entry.isLongName || entry.isVolumeLabel then volume.listing rest
      else
        let info := DirEntryInfo.ofEntry entry
        if info.name = [0x2E] ∨ info.name = [0x2E, 0x2E] then volume.listing rest
        else info :: volume.listing rest

def setEntry (volume : Volume) (position : Position) (entry : Fat32DirEntry) : Volume :=
  volume.setData position.1
    (splice (volume.data position.1) (position.2 * entrySize) entry.toBytes)

def erase (volume : Volume) (position : Position) : Volume :=
  volume.setData position.1 (splice (volume.data position.1) (position.2 * entrySize) [0xE5])

section Scan

variable {volume volume' : Volume} {judge judge' : Fat32DirEntry → Verdict}

theorem scan_append (front back : List Position) : volume.scan judge (front ++ back) =
    match volume.scan judge front with
    | .stopped => .stopped
    | .taken position => .taken position
    | .exhausted => volume.scan judge back := by
  induction front with
  | nil => rfl
  | cons position rest ih =>
      simp only [List.cons_append, scan]
      cases judge (volume.entry position) with
      | stop => rfl
      | take => rfl
      | skip => exact ih

theorem scan_taken_iff (positions : List Position) (position : Position) :
    volume.scan judge positions = .taken position ↔
      ∃ front back, positions = front ++ position :: back ∧
        (∀ other ∈ front, judge (volume.entry other) = .skip) ∧
        judge (volume.entry position) = .take := by
  constructor
  · intro found
    induction positions with
    | nil => cases found
    | cons first rest ih =>
        simp only [scan] at found
        split at found
        · cases found
        · rename_i take
          injection found with same
          subst same
          exact ⟨[], rest, rfl, nofun, take⟩
        · rename_i skip
          obtain ⟨front, back, split, skipped, take⟩ := ih found
          refine ⟨first :: front, back, by rw [split]; rfl, ?_, take⟩
          intro other member
          rcases List.mem_cons.mp member with rfl | later
          · exact skip
          · exact skipped other later
  · rintro ⟨front, back, rfl, skipped, take⟩
    induction front with
    | nil => simp only [List.nil_append, scan, take]
    | cons first rest ih =>
        simp only [List.cons_append, scan, skipped first List.mem_cons_self]
        exact ih fun other member => skipped other (List.mem_cons_of_mem _ member)

theorem scan_exhausted_iff (positions : List Position) :
    volume.scan judge positions = .exhausted ↔
      ∀ position ∈ positions, judge (volume.entry position) = .skip := by
  induction positions with
  | nil => simp [scan]
  | cons first rest ih =>
      simp only [scan, List.forall_mem_cons]
      cases verdict : judge (volume.entry first) with
      | stop => simp
      | take => simp
      | skip => simp [ih]

theorem scan_congr {positions : List Position}
    (same : ∀ position ∈ positions,
      judge' (volume'.entry position) = judge (volume.entry position)) :
    volume'.scan judge' positions = volume.scan judge positions := by
  induction positions with
  | nil => rfl
  | cons first rest ih =>
      simp only [scan, same first List.mem_cons_self]
      rw [ih fun position member => same position (List.mem_cons_of_mem _ member)]

theorem find_eq_some {nameUpper : List UInt8} {positions : List Position} {position : Position} :
    volume.find nameUpper positions = some position ↔
      volume.scan (judgeName nameUpper) positions = .taken position := by
  simp only [find]
  split
  · rename_i found
    rw [found, Option.some.injEq, Scan.taken.injEq]
  · rename_i other
    exact ⟨nofun, fun found => absurd found (other position)⟩

end Scan

end Volume

def Fat32Fs.InCluster (fs : Fat32Fs) (index : Nat) : Prop := index < fs.entriesPerCluster

namespace Fat32Fs

variable {fs : Fat32Fs} {volume : Volume}

theorem mem_positions {clusters : List Nat} {position : Position} :
    position ∈ fs.positions clusters ↔ position.1 ∈ clusters ∧ fs.InCluster position.2 := by
  obtain ⟨cluster, index⟩ := position
  simp only [positions, slotIndices, List.mem_flatMap, List.mem_map, List.mem_range, Prod.mk.injEq,
    InCluster]
  constructor
  · rintro ⟨cluster, member, index, bound, rfl, rfl⟩
    exact ⟨member, bound⟩
  · rintro ⟨member, bound⟩
    exact ⟨cluster, member, index, bound, rfl, rfl⟩

theorem positions_append (front back : List Nat) :
    fs.positions (front ++ back) = fs.positions front ++ fs.positions back := by
  simp only [positions, List.flatMap_append]

theorem InCluster.fits {index : Nat} (inside : fs.InCluster index) :
    index * entrySize + entrySize ≤ fs.bpb.clusterSizeBytes := by
  have whole : fs.entriesPerCluster * entrySize ≤ fs.bpb.clusterSizeBytes :=
    Nat.div_mul_le_self _ _
  have stride := Nat.mul_le_mul_right entrySize (show index + 1 ≤ fs.entriesPerCluster from inside)
  rw [Nat.add_mul, Nat.one_mul] at stride
  omega

/-- The driver's search of one cluster is the scan of its positions. -/
theorem searchSlots_eq (judge : Fat32DirEntry → Verdict) (cluster : Nat) (indices : List Nat) :
    volume.scan judge (indices.map fun index => (cluster, index)) =
      match searchSlots judge (volume.data cluster) indices with
      | .stopped => .stopped
      | .taken index => .taken (cluster, index)
      | .passed => .exhausted := by
  induction indices with
  | nil => rfl
  | cons index rest ih =>
      simp only [List.map_cons, Volume.scan, searchSlots, Volume.entry]
      cases judge (slotAt (volume.data cluster) index) with
      | stop => rfl
      | take => rfl
      | skip => exact ih

def dirSearch (volume : Volume) : Scan → DirSearch
  | .stopped => .stopped
  | .taken position => .taken position.1 (volume.data position.1) position.2
  | .exhausted => .exhausted

theorem searchChain_runs (geometry : fs.Geometry) (judge : Fat32DirEntry → Verdict)
    {clusters : List Nat} (valid : ∀ cluster ∈ clusters, fs.Valid cluster) :
    Runs fs (fs.searchChain judge clusters) volume
      (.ok (dirSearch volume (volume.scan judge (fs.positions clusters)))) volume := by
  induction clusters with
  | nil => exact Runs.pure _
  | cons cluster rest ih =>
      have later := ih fun other member => valid other (List.mem_cons_of_mem _ member)
      have split : fs.positions (cluster :: rest) =
          fs.slotIndices.map (fun index => (cluster, index)) ++ fs.positions rest := rfl
      refine Runs.bind (readCluster_runs geometry (valid cluster List.mem_cons_self)) ?_
      rw [split, Volume.scan_append, searchSlots_eq]
      cases searchSlots judge (volume.data cluster) fs.slotIndices with
      | stopped => exact Runs.pure _
      | taken index => exact Runs.pure _
      | passed => exact later

theorem listSlots_eq (cluster : Nat) (indices : List Nat) (rest : List Position) :
    volume.listing (indices.map (fun index => (cluster, index)) ++ rest) =
      (listSlots (volume.data cluster) indices).1 ++
        if (listSlots (volume.data cluster) indices).2 then [] else volume.listing rest := by
  induction indices with
  | nil => rfl
  | cons index others ih =>
      simp only [List.map_cons, List.cons_append, Volume.listing, listSlots, Volume.entry, ih]
      split
      · rfl
      · split
        · rfl
        · split <;> rfl

theorem listChain_runs (geometry : fs.Geometry) {clusters : List Nat}
    (valid : ∀ cluster ∈ clusters, fs.Valid cluster) :
    Runs fs (fs.listChain clusters) volume (.ok (volume.listing (fs.positions clusters)))
      volume := by
  induction clusters with
  | nil => exact Runs.pure _
  | cons cluster rest ih =>
      have later := ih fun other member => valid other (List.mem_cons_of_mem _ member)
      have split : fs.positions (cluster :: rest) =
          fs.slotIndices.map (fun index => (cluster, index)) ++ fs.positions rest := rfl
      refine Runs.bind (readCluster_runs geometry (valid cluster List.mem_cons_self)) ?_
      rw [split, listSlots_eq]
      cases ended : (listSlots (volume.data cluster) fs.slotIndices).2 with
      | true =>
          simp only [ended, if_true, List.append_nil]
          exact Runs.pure _
      | false =>
          simp only [ended, Bool.false_eq_true, if_false]
          exact Runs.bind later (Runs.pure _)

def slots (fs : Fat32Fs) (clusters : List Nat) : List Position := fs.positions (visible clusters)

theorem taken_valid {dir : Nat} {clusters : List Nat} (chain : volume.Chain fs dir clusters)
    {judge : Fat32DirEntry → Verdict} {position : Position}
    (found : volume.scan judge (fs.slots clusters) = .taken position) :
    fs.Valid position.1 ∧ fs.InCluster position.2 := by
  obtain ⟨front, back, split, _, _⟩ := (Volume.scan_taken_iff _ _).mp found
  have member : position ∈ fs.slots clusters := by
    rw [split]
    simp
  obtain ⟨inside, bound⟩ := mem_positions.mp member
  exact ⟨chain.visible_valid _ inside, bound⟩

section Chain

variable {dir : Nat} {clusters : List Nat} (geometry : fs.Geometry)
  (chain : volume.Chain fs dir clusters)
include geometry chain

theorem readDirEntries_runs : Runs fs (fs.readDirEntries dir) volume
    (.ok (volume.listing (fs.slots clusters))) volume :=
  Runs.bind (readChain_runs geometry chain) (listChain_runs geometry chain.visible_valid)

theorem findEntry_runs (nameUpper : List UInt8) : Runs fs (fs.findEntry dir nameUpper) volume
    (.ok ((volume.find nameUpper (fs.slots clusters)).map volume.entry)) volume := by
  refine Runs.bind (readChain_runs geometry chain) ?_
  refine Runs.bind (searchChain_runs geometry (judgeName nameUpper) chain.visible_valid) ?_
  rw [Volume.find, slots]
  cases volume.scan (judgeName nameUpper) (fs.positions (visible clusters)) with
  | stopped => exact Runs.pure _
  | taken position => exact Runs.pure _
  | exhausted => exact Runs.pure _

end Chain

theorem writeSlot_runs (geometry : fs.Geometry) (shaped : volume.Shaped fs) {position : Position}
    (valid : fs.Valid position.1) (inside : fs.InCluster position.2) {bytes : List UInt8}
    (short : bytes.length ≤ entrySize) :
    Runs fs (fs.writeSlot position.1 (volume.data position.1) position.2 bytes) volume (.ok ())
      (volume.setData position.1
        (splice (volume.data position.1) (position.2 * entrySize) bytes)) := by
  have fits := inside.fits
  apply writeCluster_runs geometry valid
  rw [length_splice (by rw [shaped position.1]; omega), shaped position.1]

end Fat32Fs

namespace Volume

variable {fs : Fat32Fs} {volume : Volume} {position other : Position}

theorem setEntry_entry_same (shaped : volume.Shaped fs) (inside : fs.InCluster position.2)
    (entry : Fat32DirEntry) : (volume.setEntry position entry).entry position = entry := by
  have fits := inside.fits
  rw [Volume.entry, setEntry, setData_data_same]
  exact Fat32DirEntry.readAt_splice_same entry (by rw [shaped position.1]; exact fits)

theorem entry_setData_apart (shaped : volume.Shaped fs) (inside : fs.InCluster position.2)
    {bytes : List UInt8} (short : bytes.length ≤ entrySize) (apart : other ≠ position) :
    (volume.setData position.1
      (splice (volume.data position.1) (position.2 * entrySize) bytes)).entry other =
      volume.entry other := by
  have fits := inside.fits
  by_cases cluster : other.1 = position.1
  · have index : other.2 ≠ position.2 := fun same => apart (Prod.ext cluster same)
    rw [Volume.entry, cluster, setData_data_same, Volume.entry, cluster]
    apply Fat32DirEntry.readAt_splice_apart
    · rw [shaped position.1]
      omega
    · simp only [entrySize] at short ⊢
      omega
  · rw [Volume.entry, setData_data_other _ _ cluster, Volume.entry]

theorem setEntry_entry_other (shaped : volume.Shaped fs) (inside : fs.InCluster position.2)
    (entry : Fat32DirEntry) (apart : other ≠ position) :
    (volume.setEntry position entry).entry other = volume.entry other :=
  entry_setData_apart shaped inside entry.length_toBytes.le apart

theorem erase_entry_other (shaped : volume.Shaped fs) (inside : fs.InCluster position.2)
    (apart : other ≠ position) : (volume.erase position).entry other = volume.entry other :=
  entry_setData_apart shaped inside (by decide) apart

theorem erase_deleted (shaped : volume.Shaped fs) (inside : fs.InCluster position.2) :
    ((volume.erase position).entry position).isDeleted = true := by
  have fits := inside.fits
  have reach : position.2 * entrySize + [(0xE5 : UInt8)].length ≤
      (volume.data position.1).length := by
    rw [shaped position.1]
    simp only [entrySize, List.length_singleton] at fits ⊢
    omega
  have first : byteAt (splice (volume.data position.1) (position.2 * entrySize) [0xE5])
      (position.2 * entrySize) = 0xE5 := by
    rw [byteAt_splice reach, if_pos (by simp), Nat.sub_self]
    rfl
  simp only [Volume.entry, erase, setData_data_same, Fat32DirEntry.isDeleted, slotAt,
    Fat32DirEntry.readAt, decide_eq_true_eq]
  exact first

def growDir (fs : Fat32Fs) (volume : Volume) (last cluster : Nat) (entry : Fat32DirEntry) :
    Volume where
  fat := Function.update (Function.update volume.fat last cluster) cluster fat32Eoc
  data := Function.update volume.data cluster (splice fs.clusterZeros 0 entry.toBytes)

theorem scan_vacant (volume : Volume) (positions : List Position) :
    (∃ position, volume.scan judgeVacant positions = .taken position) ∨
      volume.scan judgeVacant positions = .exhausted := by
  induction positions with
  | nil => exact .inr rfl
  | cons first rest ih =>
      simp only [scan]
      cases verdict : judgeVacant (volume.entry first) with
      | stop =>
          simp only [judgeVacant] at verdict
          split at verdict <;> cases verdict
      | take => exact .inl ⟨first, rfl⟩
      | skip => exact ih

end Volume

namespace Fat32Fs

variable {fs : Fat32Fs} {volume : Volume} {dir : Nat} {clusters : List Nat}

theorem addEntry_slot (geometry : fs.Geometry) (shaped : volume.Shaped fs)
    (chain : volume.Chain fs dir clusters) {position : Position} (entry : Fat32DirEntry)
    (vacant : volume.scan judgeVacant (fs.slots clusters) = .taken position) :
    Runs fs (fs.addEntry dir entry) volume (.ok ()) (volume.setEntry position entry) := by
  obtain ⟨valid, inside⟩ := taken_valid chain vacant
  refine Runs.bind (readChain_runs geometry chain) ?_
  refine Runs.bind (searchChain_runs geometry judgeVacant chain.visible_valid) ?_
  rw [slots] at vacant
  simp only [vacant, dirSearch]
  exact writeSlot_runs geometry shaped valid inside entry.length_toBytes.le

theorem addEntry_grow (geometry : fs.Geometry) (chain : volume.Chain fs dir clusters)
    (entry : Fat32DirEntry) (occupied : volume.scan judgeVacant (fs.slots clusters) = .exhausted)
    {last cluster : Nat} (end_ : (visible clusters).getLast? = some last)
    (found : volume.firstFree fs = some cluster) :
    Runs fs (fs.addEntry dir entry) volume (.ok ()) (volume.growDir fs last cluster entry) := by
  have valid := (Volume.firstFree_some found).1
  have lastValid := chain.visible_valid last (List.mem_of_getLast? end_)
  have size : entrySize ≤ fs.bpb.clusterSizeBytes := by
    have := geometry.clusterSectors
    rw [geometry.clusterSize, entrySize]
    omega
  have long : (splice fs.clusterZeros 0 entry.toBytes).length = fs.bpb.clusterSizeBytes := by
    rw [clusterZeros, length_splice (by rw [entry.length_toBytes, length_zeros]; omega),
      length_zeros]
  have result : ((((volume.setData cluster fs.clusterZeros).setFat last cluster).setFat cluster
      fat32Eoc).setData cluster (splice fs.clusterZeros 0 entry.toBytes)) =
      volume.growDir fs last cluster entry := by
    simp only [Volume.setFat, Volume.setData, Volume.growDir, Function.update_idem]
  refine Runs.bind (readChain_runs geometry chain) ?_
  refine Runs.bind (searchChain_runs geometry judgeVacant chain.visible_valid) ?_
  rw [slots] at occupied
  simp only [occupied, dirSearch]
  refine Runs.bind (allocCluster_some geometry found) ?_
  simp only [if_neg (show ¬fs.bpb.clusterSizeBytes < entrySize by omega), end_]
  rw [← result]
  exact Runs.bind (writeFatEntry_runs geometry lastValid (geometry.valid_bound valid)) <|
    Runs.bind (writeFatEntry_runs geometry valid (by decide)) <|
      writeCluster_runs geometry valid long

theorem addEntry_full (geometry : fs.Geometry) (chain : volume.Chain fs dir clusters)
    (entry : Fat32DirEntry) (occupied : volume.scan judgeVacant (fs.slots clusters) = .exhausted)
    (full : volume.firstFree fs = none) : fs.Refuses (fs.addEntry dir entry) volume := by
  obtain ⟨reason, refused⟩ := allocCluster_none geometry full
  refine ⟨reason, Runs.bind (readChain_runs geometry chain) ?_⟩
  refine Runs.bind (searchChain_runs geometry judgeVacant chain.visible_valid) ?_
  rw [slots] at occupied
  simp only [occupied, dirSearch]
  exact Runs.bind_error refused _

theorem removeEntry_runs (geometry : fs.Geometry) (shaped : volume.Shaped fs)
    (chain : volume.Chain fs dir clusters) {nameUpper : List UInt8} {position : Position}
    (found : volume.find nameUpper (fs.slots clusters) = some position) :
    Runs fs (fs.removeEntry dir nameUpper) volume (.ok (volume.entry position))
      (volume.erase position) := by
  rw [Volume.find_eq_some] at found
  obtain ⟨valid, inside⟩ := taken_valid chain found
  refine Runs.bind (readChain_runs geometry chain) ?_
  refine Runs.bind (searchChain_runs geometry (judgeName nameUpper) chain.visible_valid) ?_
  rw [slots] at found
  simp only [found, dirSearch]
  exact Runs.bind (writeSlot_runs geometry shaped valid inside (by decide)) (Runs.pure _)

theorem removeEntry_missing (geometry : fs.Geometry) (chain : volume.Chain fs dir clusters)
    {nameUpper : List UInt8} (missing : volume.find nameUpper (fs.slots clusters) = none) :
    fs.Refuses (fs.removeEntry dir nameUpper) volume := by
  refine ⟨"File not found", Runs.bind (readChain_runs geometry chain) ?_⟩
  refine Runs.bind (searchChain_runs geometry (judgeName nameUpper) chain.visible_valid) ?_
  rw [Volume.find, slots] at missing
  cases outcome : volume.scan (judgeName nameUpper) (fs.positions (visible clusters)) with
  | stopped => exact Runs.fail _
  | taken position =>
      rw [outcome] at missing
      cases missing
  | exhausted => exact Runs.fail _

end Fat32Fs

end ArcadiaOs.Fs
