import ArcadiaOs.Fs.Addition
import ArcadiaOs.Fs.StoredFile

/-!
A file that is created and read back.  `alloc_cluster` does not mark what it returns, so a file of
three clusters or more is stored in two of them.
-/

namespace ArcadiaOs.Fs

open Lib

def RoundTrip (vfs : VfsManager) (device : Device) (path : Path) (data : List UInt8) : Prop :=
  ∀ device', vfs.createFile path data device = .ok () device' →
    (vfs.readFileContent path).answer device' = .ok data

namespace Volume

/-- Names of directories that lead to one, and behind them an 8.3 name that is absent there or names
a regular file. -/
structure FilePath (fs : Fat32Fs) (volume : Volume) (path : Path) (dir : Nat) : Prop where
  names : up ∉ parentComponents path
  walked : ∃ trail, volume.treeWalk fs (parentComponents path) [] = some trail ∧
    trailEnd fs trail = dir
  short : Valid83 (fileName path)
  regular : ∀ position, volume.findIn fs dir path = some position →
    (volume.entry position).isDirectory = false

/-- A new name does not go behind the clusters that `read_chain` returns. -/
def SlotReached (fs : Fat32Fs) (volume : Volume) (dir : Nat) (path : Path) : Prop :=
  volume.findIn fs dir path = none → volume.Full fs dir →
    (volume.chainOf dir).length ≤ Fat32Fs.maxChain

variable {fs : Fat32Fs} {volume volume' : Volume} {path : Path} {dir : Nat}

theorem FilePath.targets (filePath : volume.FilePath fs path dir) :
    volume.Targets fs path dir := by
  obtain ⟨trail, walked, rfl⟩ := filePath.walked
  obtain ⟨proper, parent⟩ := treeWalk_names filePath.names walked
  exact ⟨proper, parent, filePath.short.component.1⟩

theorem newEntry_taken {name : Path} (valid : Valid83 name) (cluster size : Nat) :
    judgeName (toUpper83 name) (VfsManager.newEntry (toUpper83 name) 0x20 cluster size) = .take := by
  obtain ⟨notEnd, notDeleted⟩ := (newEntry_plain valid 0x20 cluster size).live
  have shown : (VfsManager.newEntry (toUpper83 name) 0x20 cluster size).isLongName = false ∧
      (VfsManager.newEntry (toUpper83 name) 0x20 cluster size).isVolumeLabel = false := by
    have attributes : decide ((0x20 : UInt8) &&& 0x0F = 0x0F) = false ∧
        decide ((0x20 : UInt8) &&& 0x08 ≠ 0) = false := by decide
    exact attributes
  simp only [judgeName, notEnd, notDeleted, shown, newEntry_fullNameUpper valid, Bool.or_false,
    Bool.false_eq_true, if_false, if_true]

theorem overwrite_sameDirs (geometry : fs.Geometry) (shaped : volume.Shaped fs)
    (sound : volume.Sound fs) {position : Position} (slot : volume.Live fs (.slot position))
    (regular : (volume.entry position).isDirectory = false) (data : List UInt8)
    (cluster size : Nat) :
    volume.SameDirs fs (((volume.free (volume.entry position).firstCluster).place fs data).2.setEntry
      position (relinked (volume.entry position) cluster size)) := by
  have shaped' := place_shaped (free_shaped shaped (volume.entry position).firstCluster) data
  refine ⟨fun dir clusters live chain => ?_, fun dir clusters live chain other member => ?_⟩
  · exact (chain.kept fun _ member => live.kept geometry sound slot regular data chain member).congr
      fun _ _ => rfl
  · by_cases same : other = position
    · rw [same, setEntry_entry_same shaped' slot.claimed.2]
      exact ⟨rfl, rfl, rfl, fun directory => absurd (regular.symm.trans directory) Bool.false_ne_true⟩
    · rw [setEntry_entry_other shaped' slot.claimed.2 _ same, (live.kept geometry sound slot regular
        data chain (Fat32Fs.mem_positions.mp member).1).entry]
      exact SameName.refl _

section Read

variable (geometry : fs.Geometry) (shaped : volume.Shaped fs) (sound : volume.Sound fs)
  (filePath : volume.FilePath fs path dir) {data : List UInt8} (bound : data.length < 2 ^ 32)
  (room : volume.HasRoom fs dir path data)
include geometry shaped sound filePath bound room

theorem FilePath.over_reads {position : Position}
    (found : volume.findIn fs dir path = some position) :
    (volume.createFile fs path data).2.ProperPath fs path ∧
      ((volume.createFile fs path data).2.readContent fs path = .ok data ↔ Survives fs data) := by
  have targets := filePath.targets
  have regular := filePath.regular position found
  have slot := targets.slot geometry sound found regular
  obtain ⟨freed, owned⟩ := sound.owns _ slot
  have chain : volume.Chain fs (volume.entry position).firstCluster freed := owned
  have shaped' := place_shaped (free_shaped shaped (volume.entry position).firstCluster) data
  rw [HasRoom, found] at room
  simp only [geometry.chainOf_eq chain, ← freeCount_free geometry chain] at room
  have some := demand_pos fs data
  rcases place_outcome (free_used geometry sound slot) data with ⟨none, _⟩ |
    ⟨one, two, _⟩ | ⟨_, cluster, tail, stored⟩
  · omega
  · omega
  have same := overwrite_sameDirs geometry shaped sound slot regular data cluster data.length
  have entry := setEntry_entry_same shaped' slot.claimed.2
    (relinked (volume.entry position) cluster data.length)
  have effect : (volume.createFile fs path data).2 =
      ((volume.free (volume.entry position).firstCluster).place fs data).2.setEntry position
        (relinked (volume.entry position) cluster data.length) := by
    rw [targets.createFile_over found regular, stored.placed]
  rw [effect]
  refine ⟨same.properPath geometry sound targets.proper, ?_⟩
  refine stored.readContent_iff geometry (fun other member => ?_)
    ((same.parentOf_eq geometry sound targets.proper).trans targets.parent) targets.named
    ((same.findIn_eq geometry sound (targets.live geometry sound) path).trans found) ?_ ?_ ?_
  · -- the new chain is made of free clusters and of those of the old one
    have apart : other ≠ position.1 := by
      rintro rfl
      have unused := (stored.taken member).2
      rw [free_fat geometry chain] at unused
      split at unused
      · rename_i inside
        exact slot.outside sound slot regular owned (Chain.mem_visible inside)
      · exact slot.claimed.1.not_free unused
    exact ⟨rfl, setData_data_other _ _ apart⟩
  · rw [entry, relinked_isDirectory, regular]
  · rw [entry]
    exact relinked_firstCluster _ (geometry.valid_u32 (firstFree_some stored.found).1) _
  · rw [entry, relinked, UInt32.toNat_ofNat', Nat.mod_eq_of_lt bound]

theorem FilePath.new_reads (missing : volume.findIn fs dir path = none) :
    (volume.createFile fs path data).2.ProperPath fs path ∧
      ((volume.createFile fs path data).2.readContent fs path = .ok data ↔
        Survives fs data ∧ volume.SlotReached fs dir path) := by
  have targets := filePath.targets
  have live := targets.live geometry sound
  obtain ⟨present, clusters, chain⟩ := live.chain sound
  rw [HasRoom, missing] at room
  simp only at room
  have some := demand_pos fs data
  have keeps : ∀ other, volume.fat other ≠ 0 → volume.Kept (volume.place fs data).2 other :=
    fun other taken => place_kept fs volume data taken
  have own : ∀ other ∈ clusters, volume.Kept (volume.place fs data).2 other :=
    fun other member => keeps other (chain.not_free member)
  rcases placeNew_cases geometry chain sound.used present (toUpper83 (fileName path)) data with
    ⟨none, _⟩ | ⟨one, two, _⟩ | ⟨cluster, tail, stored, ⟨short, _⟩ | ⟨_, added, outcome⟩⟩
  · omega
  · omega
  · omega
  have shaped' := place_shaped shaped data
  have kept (other : Nat) (outside : other ∉ clusters)
      (used : (volume.place fs data).2.fat other ≠ 0) :=
    putEntry_kept geometry (chain.kept own) present
      (VfsManager.newEntry (toUpper83 (fileName path)) 0x20 cluster data.length) outside used
  rw [targets.createFile_new missing, outcome]
  generalize entryEq : VfsManager.newEntry (toUpper83 (fileName path)) 0x20 cluster data.length =
    entry at added kept ⊢
  -- the walk does not look into the directory that was changed
  obtain ⟨trail, walked, ended⟩ := filePath.walked
  have walked' : ((volume.place fs data).2.putEntry fs dir entry).2.treeWalk fs
      (parentComponents path) [] = Option.some trail := by
    refine treeWalk_undisturbed geometry sound filePath.names .root walked
      fun other component otherLive apart => ?_
    rw [ended] at apart
    obtain ⟨_, others, otherChain⟩ := otherLive.chain sound
    refine lookup_kept geometry otherChain (fun cluster member => ?_) component
    have first := keeps cluster (otherChain.not_free member)
    refine first.trans (kept cluster (fun inside => ?_) ?_)
    · obtain ⟨owner, ownerLive, _, rfl⟩ := otherLive
      exact live.disjoint sound chain ownerLive apart otherChain member inside
    · rw [first.1]
      exact otherChain.not_free member
  obtain ⟨proper', parent'⟩ := treeWalk_names filePath.names walked'
  have parent'' : ((volume.place fs data).2.putEntry fs dir entry).2.parentOf fs path = .ok dir :=
    parent'.trans (congrArg Except.ok ended)
  refine ⟨proper', ?_⟩
  have taken : judgeName (toUpper83 (fileName path)) entry = .take :=
    entryEq ▸ newEntry_taken filePath.short cluster data.length
  have cut : volume.SlotReached fs dir path ↔
      ¬(volume.Full fs dir ∧ Fat32Fs.maxChain < clusters.length) := by
    have shown : (Fat32Fs.visible clusters).length = min (Fat32Fs.maxChain + 1) clusters.length := by
      rw [Fat32Fs.visible, List.length_take]
    simp only [SlotReached, missing, forall_const, geometry.chainOf_eq chain, shown, not_and]
    refine forall_congr' fun _ => ?_
    omega
  rw [cut]
  rcases putEntry_found geometry shaped' chain present own missing taken added with
    ⟨within, position, found, holds⟩ | ⟨beyond, lost⟩
  · rw [and_iff_left within]
    refine stored.readContent_iff geometry (fun other member => kept other (fun inside => ?_) ?_)
      parent'' targets.named found ?_ ?_ ?_
    · exact chain.not_free inside (stored.taken member).2
    · exact (stored.chain fun _ _ => ⟨rfl, rfl⟩).not_free member
    · rw [holds, ← entryEq]
      exact newEntry_regular _ _ _
    · rw [holds, ← entryEq]
      exact newEntry_firstCluster _ _ (geometry.valid_u32 (firstFree_some stored.found).1) _
    · rw [holds, ← entryEq, VfsManager.newEntry, UInt32.toNat_ofNat', Nat.mod_eq_of_lt bound]
  · refine iff_of_false (fun read => ?_) fun both => both.2 beyond
    simp only [readContent, parent'', if_neg targets.named, lost] at read
    cases read

end Read

end Volume

section Driver

variable {fs : Fat32Fs} (geometry : fs.Geometry) {vfs : VfsManager} (mounted : Mounted fs vfs)
  {device : Device} (healthy : device.Healthy) (sound : (fs.view device).Sound fs) {path : Path}
  {dir : Nat} (filePath : (fs.view device).FilePath fs path dir) {data : List UInt8}
  (bound : data.length < 2 ^ 32)
include geometry mounted healthy sound filePath bound

theorem roundTrip_iff_reads : RoundTrip vfs device path data ↔
    ((fs.view device).HasRoom fs dir path data →
      ((fs.view device).createFile fs path data).2.readContent fs path = .ok data) := by
  have shaped := fs.length_view_data geometry device
  have targets := filePath.targets
  have created := targets.created_iff geometry sound filePath.regular data
  have ran := mounted.createFile_runs geometry sound targets.proper data
  obtain ⟨device', answered, healthy', holds'⟩ := ran device healthy rfl
  have sound' := Volume.createFile_sound geometry shaped sound targets.proper data
  have reads (room : (fs.view device).HasRoom fs dir path data) :
      (vfs.readFileContent path).answer device' = .ok data ↔
        ((fs.view device).createFile fs path data).2.readContent fs path = .ok data := by
    have proper' : ((fs.view device).createFile fs path data).2.ProperPath fs path := by
      cases found : (fs.view device).findIn fs dir path with
      | none => exact (filePath.new_reads geometry shaped sound bound room found).1
      | some position => exact (filePath.over_reads geometry shaped sound bound room found).1
    exact (mounted.readFileContent_runs geometry sound' proper').answer_iff healthy' holds'
  constructor
  · intro trip room
    rw [created.mpr room] at answered
    exact (reads room).mp (trip device' answered)
  · intro stored device'' again
    rw [answered] at again
    cases answer : ((fs.view device).createFile fs path data).1 with
    | error reason =>
        rw [answer] at again
        cases again
    | ok done =>
        rw [answer] at again
        injection again with _ same
        have room := created.mp answer
        exact same ▸ (reads room).mpr (stored room)

end Driver

/-- A file that is created reads as its data exactly when, given there is room, the data spans at
most two clusters or is zero behind the first one, and the slot of a new name is not behind the
clusters that `read_chain` returns. -/
theorem round_trip_iff {fs : Fat32Fs} (geometry : fs.Geometry) {vfs : VfsManager}
    (mounted : Mounted fs vfs) {device : Device} (healthy : device.Healthy)
    (sound : (fs.view device).Sound fs) {path : Path} {dir : Nat}
    (filePath : (fs.view device).FilePath fs path dir) {data : List UInt8}
    (bound : data.length < 2 ^ 32) :
    RoundTrip vfs device path data ↔
      ((fs.view device).HasRoom fs dir path data →
        Volume.Survives fs data ∧ (fs.view device).SlotReached fs dir path) := by
  have shaped := fs.length_view_data geometry device
  rw [roundTrip_iff_reads geometry mounted healthy sound filePath bound]
  refine forall_congr' fun room => ?_
  cases found : (fs.view device).findIn fs dir path with
  | none => exact (filePath.new_reads geometry shaped sound bound room found).2
  | some position =>
      have reached : (fs.view device).SlotReached fs dir path := by
        intro missing
        rw [found] at missing
        cases missing
      rw [and_iff_left reached]
      exact (filePath.over_reads geometry shaped sound bound room found).2

/-! `/A` on the blank volume. -/

theorem blank_filePath : (smallFs.view blankDevice).FilePath smallFs [0x2F, 0x41] 2 := by
  have missing : (smallFs.view blankDevice).findIn smallFs 2 [0x2F, 0x41] = none := by
    decide
  have valid : Valid83 (fileName [0x2F, 0x41]) :=
    ⟨[0x41], [], ⟨by decide, by decide, by decide, by decide +kernel⟩, by decide⟩
  refine ⟨by decide, ⟨[], by decide, by decide⟩, valid, fun position found => ?_⟩
  rw [missing] at found
  cases found

theorem round_trip_two_clusters : RoundTrip blankSession.vfs blankDevice [0x2F, 0x41]
    (List.replicate 600 7) := by
  refine (round_trip_iff smallFs_geometry ⟨rfl, rfl⟩ (fun _ => ⟨rfl, rfl⟩) blank_wellFormed.sound
    blank_filePath (by decide +kernel)).mpr fun _ => ⟨.inl (by decide +kernel), fun _ full => ?_⟩
  have vacant : ¬(smallFs.view blankDevice).Full smallFs 2 := by decide
  exact absurd full vacant

/-- Of 1025 bytes in three clusters the last one is lost. -/
theorem three_clusters_lost : WellFormed smallFs (smallFs.view blankDevice) ∧
    (smallFs.view blankDevice).FilePath smallFs [0x2F, 0x41] 2 ∧
    ¬RoundTrip blankSession.vfs blankDevice [0x2F, 0x41] (zeros 1024 ++ [1]) := by
  have bound : (zeros 1024 ++ [1]).length < 2 ^ 32 := by decide +kernel
  have missing : (smallFs.view blankDevice).findIn smallFs 2 [0x2F, 0x41] = none := by
    decide
  have room : (smallFs.view blankDevice).HasRoom smallFs 2 [0x2F, 0x41] (zeros 1024 ++ [1]) := by
    rw [Volume.HasRoom, missing]
    decide +kernel
  have sound := blank_wellFormed.sound
  refine ⟨blank_wellFormed, blank_filePath, fun trip => ?_⟩
  have read := (roundTrip_iff_reads smallFs_geometry ⟨rfl, rfl⟩ (fun _ => ⟨rfl, rfl⟩) sound
    blank_filePath bound).mp trip room
  have shaped := smallFs.length_view_data smallFs_geometry blankDevice
  have survives := ((blank_filePath.new_reads smallFs_geometry shaped sound bound room missing).2.mp
    read).1
  have last : byteAt (zeros 1024 ++ [1]) 1024 = 1 := by decide +kernel
  rcases survives with short | blank
  · exact absurd short (by decide +kernel)
  · rw [blank 1024 (by decide)] at last
    cases last

end ArcadiaOs.Fs
