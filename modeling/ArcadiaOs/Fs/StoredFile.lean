import ArcadiaOs.Fs.Lineage
import ArcadiaOs.Fs.PositionedWrite
import ArcadiaOs.Fs.Space

/-!
What is read back of a file that was stored.  A new chain has two clusters at most, and the second
one holds the last part of the data, so longer data comes back only when it ends in zeros.
-/

namespace ArcadiaOs.Fs

open Lib

theorem Fat32Fs.needed_of_length {fs : Fat32Fs} (geometry : fs.Geometry) {data : List UInt8}
    {count : Nat} (fits : data.length ≤ count * fs.bpb.clusterSizeBytes) :
    fs.clustersNeeded data ≤ count := by
  have some := geometry.clusterSize_pos
  rw [clustersNeeded]
  split
  · exact Nat.zero_le _
  · rw [← Nat.lt_succ_iff, Nat.div_lt_iff_lt_mul some, Nat.succ_mul]
    omega

namespace Volume

/-- Data of two clusters at most, or with nothing but zeros behind the first one. -/
def Survives (fs : Fat32Fs) (data : List UInt8) : Prop :=
  data.length ≤ 2 * fs.bpb.clusterSizeBytes ∨
    ∀ index, fs.bpb.clusterSizeBytes ≤ index → byteAt data index = 0

variable {fs : Fat32Fs} {volume volume' : Volume}

theorem Stored.taken {data : List UInt8} {cluster : Nat} {tail : List Nat}
    (stored : volume.Stored fs data cluster tail) {other : Nat}
    (member : other ∈ [cluster] ++ tail) : fs.Valid other ∧ volume.fat other = 0 := by
  rcases List.mem_append.mp member with own | later
  · exact List.mem_singleton.mp own ▸ firstFree_some stored.found
  · exact (stored.extension.free later).2

theorem listing_kept {positions : List Position}
    (same : ∀ position ∈ positions, volume'.entry position = volume.entry position) :
    volume'.listing positions = volume.listing positions := by
  induction positions with
  | nil => rfl
  | cons first rest ih =>
      simp only [listing, same first List.mem_cons_self]
      rw [ih fun position member => same position (List.mem_cons_of_mem _ member)]

theorem lookup_kept (geometry : fs.Geometry) {dir : Nat} {clusters : List Nat}
    (chain : volume.Chain fs dir clusters)
    (keeps : ∀ cluster ∈ clusters, volume.Kept volume' cluster) (component : Path) :
    volume'.lookup fs dir component = volume.lookup fs dir component := by
  rw [lookup, lookup, slotsOf_eq geometry (chain.kept keeps), slotsOf_eq geometry chain,
    listing_kept fun position member =>
      (keeps position.1 (Fat32Fs.mem_positions.mp (slots_subset member)).1).entry]

section Stored

variable (geometry : fs.Geometry) {data : List UInt8} {cluster : Nat} {tail : List Nat}
  (stored : volume.Stored fs data cluster tail)
  (kept : ∀ other ∈ [cluster] ++ tail, (volume.place fs data).2.Kept volume' other)
include stored kept

theorem Stored.chain : volume'.Chain fs cluster ([cluster] ++ tail) := by
  have valid := (firstFree_some stored.found).1
  rw [stored.placed] at kept
  exact (store_chain (reserve_chain valid) valid.1 stored.extension).kept kept

include geometry

theorem Stored.byteAt_bytesOf {entry : Fat32DirEntry} (start : entry.firstCluster = cluster)
    (index : Nat) : byteAt (volume'.bytesOf entry) index =
      if index < entry.fileSize.toNat then
        if index < fs.bpb.clusterSizeBytes then byteAt data index
        else if index < demand fs data * fs.bpb.clusterSizeBytes then
          byteAt data ((fs.clustersNeeded data - 1) * fs.bpb.clusterSizeBytes +
            (index - fs.bpb.clusterSizeBytes))
        else 0
      else 0 := by
  have chain := stored.chain kept
  have distinct := chain.distinct
  have length := stored.count.2
  have single : tail.length ≤ 1 := by
    rw [List.length_append, List.length_singleton, demand] at length
    split at length <;> omega
  have short : ([cluster] ++ tail).length ≤ Fat32Fs.maxChain + 1 := by
    rw [List.length_append, List.length_singleton, Fat32Fs.maxChain]
    omega
  have contents : volume'.contents ([cluster] ++ tail) =
      ((volume.reserve fs cluster).store fs [cluster] tail data).contents ([cluster] ++ tail) := by
    rw [stored.placed] at kept
    exact contents_congr fun other member => (kept other member).2
  subst start
  rw [Volume.byteAt_bytesOf geometry chain, Fat32Fs.visible_short short, contents,
    byteAt_store distinct single, List.length_singleton, Nat.one_mul, ← length, List.length_append,
    List.length_singleton]

theorem Stored.bytesOf_iff {entry : Fat32DirEntry} (start : entry.firstCluster = cluster)
    (size : entry.fileSize.toNat = data.length) :
    volume'.bytesOf entry = data ↔ Survives fs data := by
  have held := stored.byteAt_bytesOf geometry kept start
  have some := geometry.clusterSize_pos
  rw [size] at held
  constructor
  · intro same
    rw [same] at held
    by_cases short : data.length ≤ 2 * fs.bpb.clusterSizeBytes
    · exact .inl short
    have needed : 3 ≤ fs.clustersNeeded data := by
      by_contra few
      exact short (Fat32Fs.length_of_needed geometry (by omega))
    have two : demand fs data = 2 := if_neg (by omega)
    have beyond (index : Nat) (far : 2 * fs.bpb.clusterSizeBytes ≤ index) : byteAt data index = 0 := by
      rw [held, two, if_neg (show ¬index < fs.bpb.clusterSizeBytes by omega),
        if_neg (show ¬index < 2 * fs.bpb.clusterSizeBytes by omega), ite_self]
    refine .inr fun index behind => ?_
    have last : 2 * fs.bpb.clusterSizeBytes ≤ (fs.clustersNeeded data - 1) * fs.bpb.clusterSizeBytes :=
      Nat.mul_le_mul_right _ (by omega)
    rw [held, if_neg (show ¬index < fs.bpb.clusterSizeBytes by omega), beyond _ (by omega), ite_self,
      ite_self]
  · intro survives
    refine bytes_ext (by rw [bytesOf, length_fit, size]) fun index inside => ?_
    rw [held, if_pos inside]
    by_cases first : index < fs.bpb.clusterSizeBytes
    · rw [if_pos first]
    rw [if_neg first]
    have many : 1 < fs.clustersNeeded data := by
      by_contra few
      have bound := Fat32Fs.length_of_needed geometry (show fs.clustersNeeded data ≤ 1 by omega)
      omega
    rw [demand, if_neg (Nat.not_le.mpr many)]
    rcases survives with short | blank
    · have two : fs.clustersNeeded data = 2 := by
        have few : fs.clustersNeeded data ≤ 2 := Fat32Fs.needed_of_length geometry short
        omega
      rw [two, if_pos (by omega)]
      congr 1
      omega
    · have next : fs.bpb.clusterSizeBytes ≤ (fs.clustersNeeded data - 1) * fs.bpb.clusterSizeBytes :=
        Nat.le_mul_of_pos_left _ (by omega)
      rw [blank _ (by omega), ite_self, blank index (by omega)]

/-- A file recorded with the chain its data was stored in reads as the data when that survives. -/
theorem Stored.readContent_iff {path : Path} {dir : Nat} {position : Position}
    (parent : volume'.parentOf fs path = .ok dir) (named : fileName path ≠ [])
    (found : volume'.findIn fs dir path = some position)
    (regular : (volume'.entry position).isDirectory = false)
    (start : (volume'.entry position).firstCluster = cluster)
    (size : (volume'.entry position).fileSize.toNat = data.length) :
    volume'.readContent fs path = .ok data ↔ Survives fs data := by
  simp only [readContent, parent, if_neg named, found, regular, Bool.false_eq_true, if_false,
    Except.ok.injEq]
  exact stored.bytesOf_iff geometry kept start size

end Stored

/-! Where a new entry is found. -/

theorem missing_front {nameUpper : List UInt8} {front rest : List Position}
    (missing : volume.find nameUpper (front ++ rest) = none)
    (occupied : ∀ other ∈ front, judgeVacant (volume.entry other) = .skip) :
    ∀ other ∈ front, judgeName nameUpper (volume.entry other) = .skip := by
  induction front with
  | nil => exact nofun
  | cons first others ih =>
      have filled := skip_vacant (occupied first List.mem_cons_self)
      simp only [find, List.cons_append, scan] at missing
      cases verdict : judgeName nameUpper (volume.entry first) with
      | stop =>
          simp only [judgeName, filled, Bool.false_eq_true, if_false] at verdict
          split at verdict
          · cases verdict
          · split at verdict <;> cases verdict
      | take =>
          rw [verdict] at missing
          cases missing
      | skip =>
          rw [verdict] at missing
          intro other member
          rcases List.mem_cons.mp member with rfl | later
          · exact verdict
          · exact ih missing (fun other member => occupied other (List.mem_cons_of_mem _ member))
              other later

theorem find_filled {nameUpper : List UInt8} {front rest back : List Position} {position : Position}
    (missing : volume.find nameUpper (front ++ rest) = none)
    (occupied : ∀ other ∈ front, judgeVacant (volume.entry other) = .skip)
    (same : ∀ other ∈ front, volume'.entry other = volume.entry other)
    (taken : judgeName nameUpper (volume'.entry position) = .take) :
    volume'.find nameUpper (front ++ position :: back) = some position := by
  rw [find_eq_some, scan_taken_iff]
  refine ⟨front, back, rfl, fun other member => ?_, taken⟩
  rw [same other member]
  exact missing_front missing occupied other member

section Found

variable (geometry : fs.Geometry) {middle : Volume} (shaped : middle.Shaped fs) {dir : Nat}
  {clusters : List Nat} (chain : volume.Chain fs dir clusters)
  (keeps : ∀ other ∈ clusters, volume.Kept middle other) {path : Path}
  (missing : volume.find (toUpper83 (fileName path)) (fs.slots clusters) = none)
  {entry : Fat32DirEntry} (taken : judgeName (toUpper83 (fileName path)) entry = .take)

include keeps in
theorem kept_slots : ∀ other ∈ fs.slots clusters, middle.entry other = volume.entry other :=
  fun other member => (keeps other.1 (Fat32Fs.mem_positions.mp (slots_subset member)).1).entry

include geometry shaped chain keeps missing taken

theorem setEntry_found {position : Position}
    (vacant : middle.scan judgeVacant (fs.slots clusters) = .taken position) :
    (middle.setEntry position entry).findIn fs dir path = some position ∧
      (middle.setEntry position entry).entry position = entry := by
  have middleChain := chain.kept keeps
  obtain ⟨_, inside⟩ := Fat32Fs.taken_valid middleChain vacant
  obtain ⟨front, back, split, skipped, take⟩ := (scan_taken_iff _ _).mp vacant
  have filledChain : (middle.setEntry position entry).Chain fs dir clusters :=
    middleChain.congr fun _ _ => rfl
  have holds : (middle.setEntry position entry).entry position = entry :=
    setEntry_entry_same shaped inside entry
  refine ⟨?_, holds⟩
  have entries : ∀ other ∈ fs.slots clusters, middle.entry other = volume.entry other :=
    kept_slots keeps
  rw [findIn, slotsOf_eq geometry filledChain, split]
  rw [split] at missing entries
  have frontEntries (other : Position) (member : other ∈ front) :
      middle.entry other = volume.entry other := entries other (List.mem_append_left _ member)
  refine find_filled missing (fun other member => ?_) (fun other member => ?_) (by rw [holds, taken])
  · rw [← frontEntries other member]
    exact skipped other member
  · have apart : other ≠ position := by
      rintro rfl
      have skip := skipped other member
      rw [take] at skip
      cases skip
    rw [setEntry_entry_other shaped inside entry apart, frontEntries other member]

/-- What `read_chain` shows of the grown directory decides whether its new slot is found. -/
theorem growDir_found {last cluster : Nat}
    (full : middle.scan judgeVacant (fs.slots clusters) = .exhausted)
    (ended : (Fat32Fs.visible clusters).getLast? = some last)
    (free : middle.firstFree fs = some cluster) :
    (middle.growDir fs last cluster entry).findIn fs dir path =
        (if clusters.length ≤ Fat32Fs.maxChain then some (cluster, 0) else none) ∧
      (middle.growDir fs last cluster entry).entry (cluster, 0) = entry := by
  have middleChain := chain.kept keeps
  have entries : ∀ other ∈ fs.slots clusters, middle.entry other = volume.entry other :=
    kept_slots keeps
  have fresh : ∀ other ∈ fs.slots clusters, other.1 ≠ cluster := by
    rintro other member rfl
    exact middleChain.not_free (Fat32Fs.mem_positions.mp (slots_subset member)).1
      (firstFree_some free).2
  have atStart : fs.InCluster (cluster, 0).2 := geometry.firstSlot
  have extended := extendDir_shaped shaped last cluster
  have grown : (middle.growDir fs last cluster entry).Chain fs dir
      (Fat32Fs.visible clusters ++ [cluster]) := by
    rw [growDir_eq]
    exact (extendDir_chain middleChain ended free).congr fun _ _ => rfl
  have holds : (middle.growDir fs last cluster entry).entry (cluster, 0) = entry := by
    rw [growDir_eq]
    exact setEntry_entry_same extended atStart entry
  have same (other : Position) (member : other ∈ fs.slots clusters) :
      (middle.growDir fs last cluster entry).entry other = volume.entry other := by
    have apart : other ≠ (cluster, 0) := fun same => fresh other member (congrArg Prod.fst same)
    rw [growDir_eq, setEntry_entry_other extended atStart entry apart,
      extendDir_entry_old (fresh other member), entries other member]
  have occupied (other : Position) (member : other ∈ fs.slots clusters) :
      judgeVacant (volume.entry other) = .skip := by
    rw [← entries other member]
    exact (scan_exhausted_iff _).mp full other member
  refine ⟨?_, holds⟩
  rw [findIn, slotsOf_eq geometry grown]
  split
  · have shown : Fat32Fs.visible clusters = clusters := Fat32Fs.visible_short (by omega)
    have grownShown : Fat32Fs.visible (clusters ++ [cluster]) = clusters ++ [cluster] :=
      Fat32Fs.visible_short (by rw [List.length_append, List.length_singleton]; omega)
    obtain ⟨back, first⟩ := Fat32Fs.positions_first geometry cluster
    rw [Fat32Fs.slots, shown] at missing same occupied
    rw [Fat32Fs.slots, shown, grownShown, Fat32Fs.positions_append, first]
    rw [← List.append_nil (fs.positions clusters)] at missing
    exact find_filled missing occupied same (by rw [holds, taken])
  · have cut : Fat32Fs.visible (Fat32Fs.visible clusters ++ [cluster]) =
        Fat32Fs.visible clusters := by
      have length : (Fat32Fs.visible clusters).length = Fat32Fs.maxChain + 1 := by
        rw [Fat32Fs.visible, List.length_take]
        omega
      rw [Fat32Fs.visible, ← length, List.take_left]
    have shown : fs.slots (Fat32Fs.visible clusters ++ [cluster]) = fs.slots clusters :=
      congrArg fs.positions cut
    rw [shown, ← missing]
    simp only [find]
    rw [scan_congr fun other member => congrArg (judgeName _) (same other member)]

end Found

/-- An entry put into a directory that does not have its name is found there, unless the directory
has grown beyond what `read_chain` sees. -/
theorem putEntry_found (geometry : fs.Geometry) {middle : Volume} (shaped : middle.Shaped fs)
    {dir : Nat} {clusters : List Nat} (chain : volume.Chain fs dir clusters) (present : 2 ≤ dir)
    (keeps : ∀ other ∈ clusters, volume.Kept middle other) {path : Path}
    (missing : volume.findIn fs dir path = none) {entry : Fat32DirEntry}
    (taken : judgeName (toUpper83 (fileName path)) entry = .take)
    (added : (middle.putEntry fs dir entry).1 = true) :
    (¬(volume.Full fs dir ∧ Fat32Fs.maxChain < clusters.length) ∧ ∃ position,
      (middle.putEntry fs dir entry).2.findIn fs dir path = some position ∧
      (middle.putEntry fs dir entry).2.entry position = entry) ∨
    (volume.Full fs dir ∧ Fat32Fs.maxChain < clusters.length) ∧
      (middle.putEntry fs dir entry).2.findIn fs dir path = none := by
  have vacancy : middle.scan judgeVacant (fs.slots clusters) =
      volume.scan judgeVacant (fs.slots clusters) :=
    scan_congr fun other member => congrArg judgeVacant (kept_slots keeps other member)
  rw [findIn, slotsOf_eq geometry chain] at missing
  rw [Full, slotsOf_eq geometry chain, ← vacancy]
  rcases putEntry_cases geometry (chain.kept keeps) present entry with ⟨position, vacant, put⟩ |
    ⟨_, _, put⟩ | ⟨full, last, cluster, ended, free, put⟩
  · rw [put]
    refine .inl ⟨fun cut => ?_, position,
      setEntry_found geometry shaped chain keeps missing taken vacant⟩
    rw [vacant] at cut
    cases cut.1
  · rw [put] at added
    cases added
  · obtain ⟨found, holds⟩ :=
      growDir_found geometry shaped chain keeps missing taken full ended free
    rw [put]
    by_cases short : clusters.length ≤ Fat32Fs.maxChain
    · rw [if_pos short] at found
      exact .inl ⟨fun cut => by omega, (cluster, 0), found, holds⟩
    · rw [if_neg short] at found
      exact .inr ⟨⟨full, by omega⟩, found⟩

end Volume

end ArcadiaOs.Fs
