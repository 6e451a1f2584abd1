import ArcadiaOs.Fs.VolumeCore

/-!
The driver refines the machine on volumes.  On a healthy device with a sound volume,
each call answers what the machine answers and leaves the volume the machine leaves,
as long as its path goes through directories.
-/

namespace ArcadiaOs.Fs

open Lib

namespace Volume

variable {fs : Fat32Fs} {volume volume' : Volume}

def Kept (volume volume' : Volume) (cluster : Nat) : Prop :=
  volume'.fat cluster = volume.fat cluster ∧ volume'.data cluster = volume.data cluster

theorem Kept.trans {volume'' : Volume} {cluster : Nat} (first : volume.Kept volume' cluster)
    (second : volume'.Kept volume'' cluster) : volume.Kept volume'' cluster :=
  ⟨second.1.trans first.1, second.2.trans first.2⟩

theorem Kept.entry {position : Position} (kept : volume.Kept volume' position.1) :
    volume'.entry position = volume.entry position := by
  rw [Volume.entry, Volume.entry, kept.2]

theorem Chain.kept {start : Nat} {clusters : List Nat} (chain : volume.Chain fs start clusters)
    (kept : ∀ cluster ∈ clusters, volume.Kept volume' cluster) :
    volume'.Chain fs start clusters := chain.congr fun cluster member => (kept cluster member).1

theorem marked_kept {cluster other : Nat} (apart : other ≠ cluster) (bytes : List UInt8) :
    volume.Kept ((volume.setData cluster bytes).setFat cluster fat32Eoc) other :=
  ⟨setFat_fat_other _ _ apart, setData_data_other _ _ apart⟩

theorem reserve_kept {cluster other : Nat} (apart : other ≠ cluster) :
    volume.Kept (volume.reserve fs cluster) other := marked_kept apart _

theorem store_kept {clusters tail : List Nat} {data : List UInt8} {other : Nat}
    (apart : other ∉ clusters ++ tail) :
    volume.Kept (volume.store fs clusters tail data) other :=
  ⟨store_fat_other apart, store_data_other apart⟩

theorem release_kept {clusters : List Nat} {other : Nat} (apart : other ∉ clusters) :
    volume.Kept (volume.release clusters) other := ⟨if_neg apart, rfl⟩

theorem place_cases (fs : Fat32Fs) (volume : Volume) (data : List UInt8) :
    (volume.firstFree fs = none ∧ volume.place fs data = (none, volume)) ∨
    (∃ cluster, volume.firstFree fs = some cluster ∧ 1 < fs.clustersNeeded data ∧
      (volume.reserve fs cluster).firstFree fs = none ∧
      volume.place fs data = (none, volume.reserve fs cluster)) ∨
    ∃ cluster tail, volume.firstFree fs = some cluster ∧
      (volume.reserve fs cluster).Extension fs [cluster] data tail ∧
      volume.place fs data =
        (some cluster, (volume.reserve fs cluster).store fs [cluster] tail data) := by
  simp only [place]
  cases found : volume.firstFree fs with
  | none => exact .inl ⟨rfl, rfl⟩
  | some cluster =>
      by_cases small : fs.clustersNeeded data ≤ 1
      · simp only [if_pos small]
        exact .inr (.inr ⟨cluster, [], rfl, .inl ⟨small, rfl⟩, rfl⟩)
      · simp only [if_neg small]
        cases second : (volume.reserve fs cluster).firstFree fs with
        | none => exact .inr (.inl ⟨cluster, rfl, by omega, second, rfl⟩)
        | some next =>
            refine .inr (.inr ⟨cluster, [next], rfl, .inr ⟨?_, next, second, rfl⟩, rfl⟩)
            rw [List.length_singleton]
            omega

theorem Extension.free {cluster : Nat} {tail : List Nat} {data : List UInt8}
    (extension : (volume.reserve fs cluster).Extension fs [cluster] data tail) {other : Nat}
    (member : other ∈ tail) : other ≠ cluster ∧ fs.Valid other ∧ volume.fat other = 0 := by
  obtain ⟨valid, free⟩ := extension.fresh member
  have apart : other ≠ cluster := by
    rintro rfl
    simp only [reserve, setFat_fat_same, fat32Eoc] at free
    omega
  rw [(reserve_kept apart).1] at free
  exact ⟨apart, valid, free⟩

theorem place_kept (fs : Fat32Fs) (volume : Volume) (data : List UInt8) {other : Nat}
    (used : volume.fat other ≠ 0) : volume.Kept (volume.place fs data).2 other := by
  rcases place_cases fs volume data with ⟨_, placed⟩ | ⟨cluster, found, _, _, placed⟩ |
    ⟨cluster, tail, found, extension, placed⟩
  · rw [placed]
    exact ⟨rfl, rfl⟩
  all_goals
    rw [placed]
    have apart : other ≠ cluster := by
      rintro rfl
      exact used (firstFree_some found).2
  · exact reserve_kept apart
  · refine (reserve_kept apart).trans (store_kept ?_)
    rw [List.mem_append, List.mem_singleton, not_or]
    exact ⟨apart, fun member => used (extension.free member).2.2⟩

theorem find_spec {nameUpper : List UInt8} {positions : List Position} {position : Position}
    (found : volume.find nameUpper positions = some position) :
    position ∈ positions ∧ (volume.entry position).isEnd = false ∧
      (volume.entry position).isDeleted = false ∧ (volume.entry position).isLongName = false ∧
      (volume.entry position).isVolumeLabel = false ∧
      (volume.entry position).fullNameUpper = nameUpper := by
  rw [find_eq_some, scan_taken_iff] at found
  obtain ⟨front, back, split, _, take⟩ := found
  have member : position ∈ positions := by
    rw [split]
    simp
  simp only [judgeName] at take
  split at take
  · cases take
  rename_i notEnd
  split at take
  · cases take
  rename_i shown
  split at take
  · rename_i named
    simp only [Bool.or_eq_true, not_or, Bool.not_eq_true] at shown notEnd
    exact ⟨member, notEnd, shown.1.1, shown.1.2, shown.2, named⟩
  · cases take

theorem LiveDir.found (geometry : fs.Geometry) (sound : volume.Sound fs) {dir : Nat}
    (live : volume.LiveDir fs dir) {path : Path} {position : Position}
    (found : volume.findIn fs dir path = some position) (plain : ¬IsDot (volume.entry position)) :
    volume.Live fs (.slot position) := by
  obtain ⟨member, notEnd, notDeleted, notLong, notLabel, _⟩ := find_spec found
  exact live.slot geometry sound member ⟨notEnd, notDeleted, notLong, notLabel, plain⟩

theorem not_dot_of_regular {entry : Fat32DirEntry} (regular : entry.isDirectory = false) :
    ¬IsDot entry := fun dot => Bool.false_ne_true (regular.symm.trans dot.2.1)

/-- A lookup that takes an entry before any end marker takes it past end markers too. -/
theorem scan_pastEnd {nameUpper : List UInt8} {positions : List Position} {position : Position}
    (found : volume.scan (judgeName nameUpper) positions = .taken position) :
    volume.scan (judgeNamePastEnd nameUpper) positions = .taken position := by
  rw [scan_taken_iff] at found ⊢
  obtain ⟨front, back, split, skipped, take⟩ := found
  refine ⟨front, back, split, fun other member => ?_, ?_⟩
  · have skip := skipped other member
    simp only [judgeName, judgeNamePastEnd] at skip ⊢
    split at skip
    · cases skip
    · rename_i notEnd
      simp only [Bool.not_eq_true] at notEnd
      rw [notEnd, Bool.false_or]
      exact skip
  · simp only [judgeName, judgeNamePastEnd] at take ⊢
    split at take
    · cases take
    · rename_i notEnd
      simp only [Bool.not_eq_true] at notEnd
      rw [notEnd, Bool.false_or]
      exact take

theorem putEntry_cases (geometry : fs.Geometry) {dir : Nat} {clusters : List Nat}
    (chain : volume.Chain fs dir clusters) (present : 2 ≤ dir) (entry : Fat32DirEntry) :
    (∃ position, volume.scan judgeVacant (fs.slots clusters) = .taken position ∧
      volume.putEntry fs dir entry = (true, volume.setEntry position entry)) ∨
    (volume.scan judgeVacant (fs.slots clusters) = .exhausted ∧ volume.firstFree fs = none ∧
      volume.putEntry fs dir entry = (false, volume)) ∨
    (volume.scan judgeVacant (fs.slots clusters) = .exhausted ∧ ∃ last cluster,
      (Fat32Fs.visible clusters).getLast? = some last ∧ volume.firstFree fs = some cluster ∧
      volume.putEntry fs dir entry = (true, volume.growDir fs last cluster entry)) := by
  simp only [putEntry, slotsOf_eq geometry chain, geometry.chainOf_eq chain]
  rcases volume.scan_vacant (fs.slots clusters) with ⟨position, vacant⟩ | occupied
  · rw [vacant]
    exact .inl ⟨position, rfl, rfl⟩
  · right
    have some : (Fat32Fs.visible clusters).getLast? ≠ none := by
      have head := chain.head present
      cases clusters with
      | nil => cases head
      | cons first rest => simp [Fat32Fs.visible]
    obtain ⟨last, ended⟩ := Option.ne_none_iff_exists'.mp some
    rw [occupied, ended]
    cases found : volume.firstFree fs with
    | none => exact .inl ⟨rfl, rfl, rfl⟩
    | some cluster => exact .inr ⟨rfl, last, cluster, rfl, rfl, rfl⟩

end Volume

namespace Fat32Fs

variable {fs : Fat32Fs} {volume : Volume}

def spaceAnswer {ε α : Type} (refused : ε) : Option α → Except ε α
  | some value => .ok value
  | none => .error refused

theorem Refuses.mapErr {ε α : Type} {action : Disk String α} (refuses : fs.Refuses action volume)
    (refused : ε) : Runs fs (action.mapErr fun _ => refused) volume (.error refused) volume := by
  obtain ⟨reason, ran⟩ := refuses
  exact Runs.mapErr_error ran _

theorem place_runs (geometry : fs.Geometry) (volume : Volume) (data : List UInt8) {ε : Type}
    (refused : ε) :
    Runs fs ((fs.allocateAndWrite data).mapErr fun _ => refused) volume
      (spaceAnswer refused (volume.place fs data).1) (volume.place fs data).2 := by
  rcases Volume.place_cases fs volume data with ⟨full, placed⟩ | ⟨cluster, found, long, full, placed⟩ |
    ⟨cluster, tail, found, extension, placed⟩
  · rw [placed]
    exact (allocateAndWrite_full geometry full).mapErr refused
  · rw [placed]
    obtain ⟨reason, ran⟩ := allocateAndWrite_short geometry found long full
    exact Runs.mapErr_error ran _
  · rw [placed]
    exact Runs.mapErr (allocateAndWrite_runs geometry found extension) _

theorem rewrite_runs (geometry : fs.Geometry) {start : Nat} (visits : volume.Visits fs start)
    (data : List UInt8) {ε : Type} (refused : ε) :
    Runs fs ((fs.writeFileData start data).mapErr fun _ => refused) volume
      (if (volume.rewrite fs start data).1 then .ok () else .error refused)
      (volume.rewrite fs start data).2 := by
  simp only [Volume.rewrite]
  by_cases enough : fs.clustersNeeded data ≤ (volume.chainOf start).length
  · simp only [if_pos enough, if_true]
    exact Runs.mapErr (writeFileData_visits geometry visits (.inl ⟨enough, rfl⟩)) _
  · simp only [if_neg enough]
    cases found : volume.firstFree fs with
    | none =>
        simp only [Bool.false_eq_true, if_false]
        exact (writeFileData_refused geometry visits (by omega) found).mapErr refused
    | some cluster =>
        simp only [if_true]
        exact Runs.mapErr
          (writeFileData_visits geometry visits (.inr ⟨by omega, cluster, found, rfl⟩)) _

theorem enter_runs (geometry : fs.Geometry) {dir : Nat} {clusters : List Nat}
    (chain : volume.Chain fs dir clusters) (present : 2 ≤ dir) (entry : Fat32DirEntry) :
    Runs fs ((fs.addEntry dir entry).mapErr fun _ => VfsError.ioError) volume
      (volume.enter fs dir entry).1 (volume.enter fs dir entry).2 := by
  refine Runs.of_shaped geometry fun shaped => ?_
  rcases Volume.putEntry_cases geometry chain present entry with ⟨position, vacant, put⟩ |
    ⟨occupied, full, put⟩ | ⟨occupied, last, cluster, ended, found, put⟩
  · rw [Volume.enter, put]
    exact Runs.mapErr (addEntry_slot geometry shaped chain entry vacant) _
  · rw [Volume.enter, put]
    exact (addEntry_full geometry chain entry occupied full).mapErr _
  · rw [Volume.enter, put]
    exact Runs.mapErr (addEntry_grow geometry chain entry occupied ended found) _

end Fat32Fs

/-- What a write needs: from the cluster of its descriptor on, only clusters of the volume are read;
with the data stored the volume is sound, and a path under which a size is recorded goes through
directories. -/
def Volume.WriteReady (fs : Fat32Fs) (volume : Volume) (vfs : VfsManager) (fd : Nat)
    (data : List UInt8) : Prop :=
  ∀ file, vfs.fileTable.find? (fun file => file.fd = fd) = some file → file.mode ≠ .read →
    let volume' := (volume.rewrite fs file.cluster (volume.patch file data)).2
    volume.Visits fs file.cluster ∧ volume'.Sound fs ∧
      (sizeAfter file data > 0 → volume'.ProperPath fs file.path)

namespace Mounted

variable {fs : Fat32Fs} {vfs : VfsManager} {volume : Volume} (mounted : Mounted fs vfs)
  (geometry : fs.Geometry) (sound : volume.Sound fs)
include mounted geometry sound

omit mounted in
theorem findEntry_runs {dir : Nat} (live : volume.LiveDir fs dir) (path : Path) :
    Runs fs ((fs.findEntry dir (toUpper83 (fileName path))).mapErr fun _ => VfsError.ioError) volume
      (.ok ((volume.findIn fs dir path).map volume.entry)) volume := by
  obtain ⟨_, clusters, chain⟩ := live.chain sound
  rw [Volume.findIn, Volume.slotsOf_eq geometry chain]
  exact Runs.mapErr (Fat32Fs.findEntry_runs geometry chain _) _

omit mounted in
theorem parent_live {path : Path} (proper : volume.ProperPath fs path) {dir : Nat}
    (parent : volume.parentOf fs path = .ok dir) : volume.LiveDir fs dir :=
  Volume.walk_liveDir geometry sound Volume.liveDir_root proper parent

theorem parent_runs {path : Path} (proper : volume.ProperPath fs path) {dir : Nat}
    (parent : volume.parentOf fs path = .ok dir) :
    Runs fs (vfs.resolveParent path) volume (.ok (dir, fileName path)) volume := by
  have resolved := mounted.resolveParent_runs geometry sound proper
  rw [parent] at resolved
  exact resolved

theorem parent_fails {path : Path} (proper : volume.ProperPath fs path) {reason : VfsError}
    (parent : volume.parentOf fs path = .error reason) :
    Runs fs (vfs.resolveParent path) volume (.error reason) volume := by
  have resolved := mounted.resolveParent_runs geometry sound proper
  rw [parent] at resolved
  exact resolved

theorem readFileContent_runs {path : Path} (proper : volume.ProperPath fs path) :
    Runs fs (vfs.readFileContent path) volume (volume.readContent fs path) volume := by
  refine Runs.bind mounted.fs_runs ?_
  simp only [Volume.readContent]
  cases parent : volume.parentOf fs path with
  | error reason => exact Runs.bind_error (mounted.parent_fails geometry sound proper parent) _
  | ok dir =>
      have live := parent_live geometry sound proper parent
      refine Runs.bind (mounted.parent_runs geometry sound proper parent) ?_
      by_cases unnamed : fileName path = []
      · simp only [if_pos unnamed]
        exact Runs.pure _
      simp only [if_neg unnamed]
      refine Runs.bind (mounted.parent_runs geometry sound proper parent) ?_
      refine Runs.bind (findEntry_runs geometry sound live path) ?_
      cases found : volume.findIn fs dir path with
      | none => exact Runs.fail _
      | some position =>
          simp only [Option.map_some]
          cases regular : (volume.entry position).isDirectory with
          | true =>
              simp only [if_true]
              exact Runs.fail _
          | false =>
              simp only [Bool.false_eq_true, if_false]
              have slot := live.found geometry sound found (Volume.not_dot_of_regular regular)
              obtain ⟨clusters, owned⟩ := sound.owns _ slot
              by_cases empty : (volume.entry position).fileSize = 0
              · have nothing : volume.bytesOf (volume.entry position) = [] := by
                  rw [Volume.bytesOf, empty]
                  rfl
                rw [if_pos empty, nothing]
                exact Runs.pure _
              · rw [if_neg empty]
                refine Runs.of_shaped geometry fun shaped => ?_
                obtain ⟨count, ran⟩ := Fat32Fs.readFile_runs geometry shaped owned
                  (volume.entry position).fileSize.toNat
                  (zeros (volume.entry position).fileSize.toNat)
                have held : splice (zeros (volume.entry position).fileSize.toNat) 0
                    ((volume.contents (Fat32Fs.visible clusters)).take
                      (min (volume.entry position).fileSize.toNat
                        (zeros (volume.entry position).fileSize.toNat).length)) =
                    volume.bytesOf (volume.entry position) := by
                  have chain : volume.Chain fs (volume.entry position).firstCluster clusters := owned
                  rw [length_zeros, Nat.min_self, fit_eq_splice (List.length_take_le _ _),
                    fit_take, Volume.bytesOf, geometry.chainOf_eq chain]
                rw [held] at ran
                exact Runs.bind (Runs.mapErr ran _) (Runs.pure _)

theorem listDir_runs {path : Path}
    (proper : volume.throughDirs fs (pathComponents path) fs.bpb.rootCluster.toNat = true) :
    Runs fs (vfs.listDir path) volume
      ((volume.listAt fs path).map fun entries =>
        entries.map fun entry => ⟨entry.name, entry.isDir, entry.size, entry.cluster⟩) volume := by
  refine Runs.bind mounted.fs_runs ?_
  have resolved := mounted.resolvePath_runs geometry sound proper
  simp only [Volume.listAt]
  cases reached : volume.walk fs (pathComponents path) fs.bpb.rootCluster.toNat with
  | error reason =>
      rw [reached] at resolved
      exact Runs.bind_error resolved _
  | ok dir =>
      rw [reached] at resolved
      have live := Volume.walk_liveDir geometry sound Volume.liveDir_root proper reached
      obtain ⟨_, clusters, chain⟩ := live.chain sound
      simp only [Volume.slotsOf_eq geometry chain]
      refine Runs.bind resolved ?_
      exact Runs.bind (Runs.mapErr (Fat32Fs.readDirEntries_runs geometry chain) _) (Runs.pure _)

omit geometry sound in
theorem updateDirEntry_runs (geometry : fs.Geometry) {dir : Nat} {clusters : List Nat}
    (chain : volume.Chain fs dir clusters) {nameUpper : Path} {position : Position}
    (found : volume.find nameUpper (fs.slots clusters) = some position) (cluster size : Nat) :
    Runs fs (vfs.updateDirEntry dir nameUpper cluster size) volume (.ok ())
      (volume.setEntry position (Volume.relinked (volume.entry position) cluster size)) := by
  refine Runs.of_shaped geometry fun shaped => ?_
  have taken := Volume.scan_pastEnd (Volume.find_eq_some.mp found)
  obtain ⟨valid, inside⟩ := Fat32Fs.taken_valid chain taken
  refine Runs.bind mounted.fs_runs ?_
  refine Runs.bind (Runs.mapErr (Fat32Fs.readChain_runs geometry chain) _) ?_
  refine Runs.bind (Runs.mapErr
    (Fat32Fs.searchChain_runs geometry (judgeNamePastEnd nameUpper) chain.visible_valid) _) ?_
  rw [Fat32Fs.slots] at taken
  simp only [taken, Fat32Fs.dirSearch]
  exact Runs.mapErr (Fat32Fs.writeSlot_runs geometry shaped valid inside
    (Volume.relinked (volume.entry position) cluster size).length_toBytes.le) _

omit mounted geometry sound in
/-- `create_file` marks an empty file itself; the effect is that of placing no data. -/
theorem replaceData_runs (geometry : fs.Geometry) (volume : Volume) (data : List UInt8) :
    Runs fs (VfsManager.replaceData fs data) volume
      (Fat32Fs.spaceAnswer .noSpace (volume.place fs data).1) (volume.place fs data).2 := by
  rw [VfsManager.replaceData]
  split
  · rename_i empty
    subst empty
    rcases Volume.place_cases fs volume [] with ⟨full, placed⟩ | ⟨cluster, _, long, _⟩ |
      ⟨cluster, tail, found, extension, placed⟩
    · rw [placed]
      exact Runs.bind_error ((Fat32Fs.allocCluster_none geometry full).mapErr _) _
    · exact absurd long (by simp [Fat32Fs.clustersNeeded])
    · have none : tail = [] := by
        rcases extension with ⟨_, none⟩ | ⟨short, _⟩
        · exact none
        · exact absurd short (by simp [Fat32Fs.clustersNeeded])
      rw [placed, none, Volume.store_empty]
      exact Runs.bind (Runs.mapErr (Fat32Fs.allocCluster_some geometry found) _) <|
        Runs.bind (Runs.mapErr (Fat32Fs.writeFatEntry_runs geometry
          (Volume.firstFree_some found).1 (by decide)) _) (Runs.pure _)
  · exact Fat32Fs.place_runs geometry volume data _

omit mounted sound in
theorem freeOwned_runs {entry : Fat32DirEntry} {clusters : List Nat}
    (chain : volume.Chain fs entry.firstCluster clusters) :
    Runs fs (VfsManager.freeOwned fs entry) volume (.ok ()) (volume.free entry.firstCluster) := by
  rw [VfsManager.freeOwned, Volume.free, geometry.chainOf_eq chain]
  split
  · exact Runs.mapErr (Fat32Fs.freeChain_runs geometry chain) _
  · rename_i absent
    have same : volume.release (Fat32Fs.visible clusters) = volume := by
      rw [chain.none (by omega)]
      simp [Volume.release, Fat32Fs.visible]
    rw [same]
    exact Runs.pure _

end Mounted

namespace Volume

variable {fs : Fat32Fs} {volume : Volume}

theorem LiveDir.kept (geometry : fs.Geometry) (sound : volume.Sound fs) {dir : Nat}
    (live : volume.LiveDir fs dir) {position : Position}
    (slot : volume.Live fs (.slot position))
    (regular : (volume.entry position).isDirectory = false) (data : List UInt8)
    {clusters : List Nat} (chain : volume.Chain fs dir clusters) {cluster : Nat}
    (member : cluster ∈ clusters) :
    volume.Kept ((volume.free (volume.entry position).firstCluster).place fs data).2 cluster := by
  obtain ⟨owner, ownerLive, directory, rfl⟩ := live
  obtain ⟨freed, owned⟩ := sound.owns _ slot
  have different : owner ≠ .slot position := by
    rintro rfl
    exact Bool.false_ne_true (regular.symm.trans directory)
  have outside : cluster ∉ volume.chainOf (volume.entry position).firstCluster := by
    intro inside
    have shown : volume.Chain fs (volume.entry position).firstCluster freed := owned
    rw [geometry.chainOf_eq shown] at inside
    exact sound.apart owner (.slot position) ownerLive slot different clusters freed chain owned
      member (Chain.mem_visible inside)
  have kept : volume.Kept (volume.free (volume.entry position).firstCluster) cluster :=
    release_kept outside
  refine kept.trans (place_kept fs _ data ?_)
  rw [kept.1]
  exact chain.not_free member

theorem find_kept {volume' : Volume} {clusters : List Nat} {nameUpper : List UInt8}
    (kept : ∀ cluster ∈ clusters, volume.Kept volume' cluster) :
    volume'.find nameUpper (fs.slots clusters) = volume.find nameUpper (fs.slots clusters) := by
  simp only [find]
  rw [scan_congr fun position member => ?_]
  obtain ⟨inside, _⟩ := Fat32Fs.mem_positions.mp (slots_subset member)
  rw [(kept position.1 inside).entry]

end Volume

namespace Mounted

variable {fs : Fat32Fs} {vfs : VfsManager} {volume : Volume} (mounted : Mounted fs vfs)
  (geometry : fs.Geometry) (sound : volume.Sound fs)
include mounted geometry sound

theorem overwrite_runs {dir : Nat} (live : volume.LiveDir fs dir) {path : Path}
    {position : Position} (found : volume.findIn fs dir path = some position)
    (regular : (volume.entry position).isDirectory = false) (data : List UInt8)
    {newCluster : Nat} {volume' : Volume}
    (placed : (volume.free (volume.entry position).firstCluster).place fs data =
      (some newCluster, volume')) :
    Runs fs (vfs.updateDirEntry dir (toUpper83 (fileName path)) newCluster data.length) volume'
      (.ok ()) (volume'.setEntry position
        (Volume.relinked (volume.entry position) newCluster data.length)) := by
  obtain ⟨_, clusters, chain⟩ := live.chain sound
  have slot := live.found geometry sound found (Volume.not_dot_of_regular regular)
  have kept : ∀ cluster ∈ clusters, volume.Kept volume' cluster := by
    intro cluster member
    have placedKept := live.kept geometry sound slot regular data chain member
    rw [placed] at placedKept
    exact placedKept
  rw [Volume.findIn, Volume.slotsOf_eq geometry chain] at found
  have inside := (Fat32Fs.mem_positions.mp (Volume.slots_subset (Volume.find_spec found).1)).1
  rw [← (kept position.1 inside).entry]
  rw [← Volume.find_kept kept] at found
  exact mounted.updateDirEntry_runs geometry (chain.kept kept) found newCluster data.length

theorem createFile_runs {path : Path} (proper : volume.ProperPath fs path) (data : List UInt8) :
    Runs fs (vfs.createFile path data) volume (volume.createFile fs path data).1
      (volume.createFile fs path data).2 := by
  refine Runs.bind mounted.fs_runs ?_
  simp only [Volume.createFile]
  cases parent : volume.parentOf fs path with
  | error reason => exact Runs.bind_error (mounted.parent_fails geometry sound proper parent) _
  | ok dir =>
      have live := parent_live geometry sound proper parent
      refine Runs.bind (mounted.parent_runs geometry sound proper parent) ?_
      by_cases unnamed : fileName path = []
      · simp only [if_pos unnamed]
        exact Runs.fail _
      simp only [if_neg unnamed]
      refine Runs.bind (findEntry_runs geometry sound live path) ?_
      cases found : volume.findIn fs dir path with
      | none =>
          simp only [Option.map_none]
          have placed := Fat32Fs.place_runs geometry volume data VfsError.noSpace
          cases outcome : volume.place fs data with
          | mk answer volume' =>
              rw [outcome] at placed
              cases answer with
              | none => exact Runs.bind_error placed _
              | some cluster =>
                  refine Runs.bind placed ?_
                  obtain ⟨present, clusters, chain⟩ := live.chain sound
                  have kept : ∀ cluster ∈ clusters, volume.Kept volume' cluster := by
                    intro cluster member
                    have placedKept := Volume.place_kept fs volume data (chain.not_free member)
                    rw [outcome] at placedKept
                    exact placedKept
                  exact Fat32Fs.enter_runs geometry (chain.kept kept) present _
      | some position =>
          simp only [Option.map_some]
          cases regular : (volume.entry position).isDirectory with
          | true =>
              simp only [if_true]
              exact Runs.fail _
          | false =>
              simp only [Bool.false_eq_true, if_false]
              have slot := live.found geometry sound found (Volume.not_dot_of_regular regular)
              obtain ⟨clusters, owned⟩ := sound.owns _ slot
              refine Runs.bind (freeOwned_runs geometry owned) ?_
              have placed := replaceData_runs geometry
                (volume.free (volume.entry position).firstCluster) data
              cases outcome : (volume.free (volume.entry position).firstCluster).place fs data with
              | mk answer volume' =>
                  rw [outcome] at placed
                  cases answer with
                  | none => exact Runs.bind_error placed _
                  | some cluster =>
                      exact Runs.bind placed
                        (mounted.overwrite_runs geometry sound live found regular data outcome)

omit mounted geometry sound in
theorem length_dots (geometry : fs.Geometry) (cluster parent : Nat) :
    (Volume.dots fs cluster parent).length = fs.bpb.clusterSizeBytes := by
  have sectors := geometry.clusterSectors
  have size := geometry.clusterSize
  have first : (splice fs.clusterZeros 0 (VfsManager.dotEntry [0x2E] cluster).toBytes).length =
      fs.bpb.clusterSizeBytes := by
    rw [Fat32Fs.clusterZeros, length_splice, length_zeros]
    rw [Fat32DirEntry.length_toBytes, length_zeros, entrySize]
    omega
  rw [Volume.dots, length_splice, first]
  rw [first, Fat32DirEntry.length_toBytes, entrySize]
  omega

theorem mkdir_runs {path : Path} (proper : volume.ProperPath fs path) :
    Runs fs (vfs.mkdir path) volume (volume.mkdir fs path).1 (volume.mkdir fs path).2 := by
  refine Runs.bind mounted.fs_runs ?_
  simp only [Volume.mkdir]
  cases parent : volume.parentOf fs path with
  | error reason => exact Runs.bind_error (mounted.parent_fails geometry sound proper parent) _
  | ok dir =>
      have live := parent_live geometry sound proper parent
      refine Runs.bind (mounted.parent_runs geometry sound proper parent) ?_
      by_cases unnamed : fileName path = []
      · simp only [if_pos unnamed]
        exact Runs.fail _
      simp only [if_neg unnamed]
      refine Runs.bind (findEntry_runs geometry sound live path) ?_
      cases found : volume.findIn fs dir path with
      | some position =>
          simp only [Option.map_some, Option.isSome_some, if_true]
          exact Runs.fail _
      | none =>
          simp only [Option.map_none, Option.isSome_none, Bool.false_eq_true, if_false]
          cases free : volume.firstFree fs with
          | none => exact Runs.bind_error ((Fat32Fs.allocCluster_none geometry free).mapErr _) _
          | some cluster =>
              obtain ⟨valid, unused⟩ := Volume.firstFree_some free
              have large : ¬fs.bpb.clusterSizeBytes < 2 * entrySize := by
                have := geometry.clusterSectors
                rw [geometry.clusterSize, entrySize]
                omega
              refine Runs.bind (Runs.mapErr (Fat32Fs.allocCluster_some geometry free) _) ?_
              simp only [if_neg large]
              refine Runs.bind (Runs.mapErr (Fat32Fs.writeCluster_runs geometry valid
                (length_dots geometry cluster dir)) _) ?_
              refine Runs.bind (Runs.mapErr
                (Fat32Fs.writeFatEntry_runs geometry valid (by decide)) _) ?_
              have made : ((volume.setData cluster fs.clusterZeros).setData cluster
                  (Volume.dots fs cluster dir)).setFat cluster fat32Eoc =
                  (volume.setData cluster (Volume.dots fs cluster dir)).setFat cluster fat32Eoc := by
                simp only [Volume.setData, Function.update_idem]
              rw [made]
              obtain ⟨present, clusters, chain⟩ := live.chain sound
              refine Fat32Fs.enter_runs geometry (chain.congr fun other member => ?_) present _
              have apart : other ≠ cluster := by
                rintro rfl
                exact chain.not_free member unused
              rw [Volume.setFat_fat_other _ _ apart, Volume.setData_fat]

omit mounted in
theorem chain_of_spared {path : Path} (proper : volume.ProperPath fs path)
    (spares : volume.SparesDots fs path) {dir : Nat} (parent : volume.parentOf fs path = .ok dir)
    {position : Position} (found : volume.findIn fs dir path = some position) :
    ∃ clusters, volume.Chain fs (volume.entry position).firstCluster clusters := by
  by_cases dot : IsDot (volume.entry position)
  · exact ⟨[], Volume.chain_absent (spares dir position parent found dot)⟩
  · have live := parent_live geometry sound proper parent
    exact sound.owns _ (live.found geometry sound found dot)

theorem delete_runs {path : Path} (proper : volume.ProperPath fs path)
    (chained : ∀ dir position, volume.parentOf fs path = .ok dir →
      volume.findIn fs dir path = some position →
      ∃ clusters, volume.Chain fs (volume.entry position).firstCluster clusters) :
    Runs fs (vfs.delete path) volume (volume.delete fs path).1 (volume.delete fs path).2 := by
  refine Runs.of_shaped geometry fun shaped => ?_
  refine Runs.bind mounted.fs_runs ?_
  simp only [Volume.delete]
  cases parent : volume.parentOf fs path with
  | error reason => exact Runs.bind_error (mounted.parent_fails geometry sound proper parent) _
  | ok dir =>
      have live := parent_live geometry sound proper parent
      refine Runs.bind (mounted.parent_runs geometry sound proper parent) ?_
      by_cases unnamed : fileName path = []
      · simp only [if_pos unnamed]
        exact Runs.fail _
      simp only [if_neg unnamed]
      obtain ⟨_, clusters, chain⟩ := live.chain sound
      cases found : volume.findIn fs dir path with
      | none =>
          rw [Volume.findIn, Volume.slotsOf_eq geometry chain] at found
          exact Runs.bind_error
            ((Fat32Fs.removeEntry_missing geometry chain found).mapErr VfsError.ioError) _
      | some position =>
          obtain ⟨freed, owned⟩ := chained dir position parent found
          rw [Volume.findIn, Volume.slotsOf_eq geometry chain] at found
          refine Runs.bind
            (Runs.mapErr (Fat32Fs.removeEntry_runs geometry shaped chain found) _) ?_
          exact freeOwned_runs geometry (owned.congr fun _ _ => rfl)

omit mounted geometry sound in
theorem existing_runs (entry : Fat32DirEntry) {ε α : Type} (refused : ε) (opened : α) :
    Runs fs (if entry.isDirectory then Disk.fail refused else pure opened) volume
      (if entry.isDirectory then (.error refused, volume) else (.ok opened, volume) :
        Except ε α × Volume).1
      (if entry.isDirectory then (.error refused, volume) else (.ok opened, volume) :
        Except ε α × Volume).2 := by
  split
  · exact Runs.fail _
  · exact Runs.pure _

omit mounted in
theorem fresh_runs {dir : Nat} (live : volume.LiveDir fs dir) (nameUpper : Path) {α : Type}
    (opened : Nat → α) :
    let effect : Except VfsError α × Volume :=
      match volume.place fs [] with
      | (none, volume') => (.error .noSpace, volume')
      | (some cluster, volume') =>
          match volume'.enter fs dir (VfsManager.newEntry nameUpper 0x20 cluster 0) with
          | (.error reason, volume'') => (.error reason, volume'')
          | (.ok _, volume'') => (.ok (opened cluster), volume'')
    Runs fs (do
        let firstCluster ← (fs.allocateAndWrite []).mapErr fun _ => VfsError.noSpace
        (fs.addEntry dir (VfsManager.newEntry nameUpper 0x20 firstCluster 0)).mapErr
          fun _ => VfsError.ioError
        pure (opened firstCluster)) volume effect.1 effect.2 := by
  have placed := Fat32Fs.place_runs geometry volume [] VfsError.noSpace
  cases outcome : volume.place fs [] with
  | mk answer volume' =>
      rw [outcome] at placed
      cases answer with
      | none => exact Runs.bind_error placed _
      | some cluster =>
          obtain ⟨present, clusters, chain⟩ := live.chain sound
          have kept : ∀ cluster ∈ clusters, volume.Kept volume' cluster := by
            intro cluster member
            have placedKept := Volume.place_kept fs volume [] (chain.not_free member)
            rw [outcome] at placedKept
            exact placedKept
          have entered := Fat32Fs.enter_runs geometry (chain.kept kept) present
            (VfsManager.newEntry nameUpper 0x20 cluster 0)
          cases result : volume'.enter fs dir (VfsManager.newEntry nameUpper 0x20 cluster 0) with
          | mk answer volume'' =>
              simp only [result] at entered ⊢
              refine Runs.bind placed ?_
              cases answer with
              | error reason => exact Runs.bind_error entered _
              | ok _ => exact Runs.bind entered (Runs.pure _)

theorem openFile_runs {path : Path} (proper : volume.ProperPath fs (vfs.canonicalize path))
    (mode : FileMode) :
    Runs fs (vfs.openFile path mode) volume (volume.openFile fs vfs path mode).1
      (volume.openFile fs vfs path mode).2 := by
  refine Runs.bind mounted.fs_runs ?_
  simp only [Volume.openFile]
  cases parent : volume.parentOf fs (vfs.canonicalize path) with
  | error reason => exact Runs.bind_error (mounted.parent_fails geometry sound proper parent) _
  | ok dir =>
      have live := parent_live geometry sound proper parent
      refine Runs.bind (mounted.parent_runs geometry sound proper parent) ?_
      by_cases unnamed : fileName (vfs.canonicalize path) = []
      · simp only [if_pos unnamed]
        by_cases reading : mode = .read
        · simp only [if_pos reading]
          have walked := Volume.unnamed_walk fs volume unnamed fs.bpb.rootCluster.toNat
          have resolved := mounted.resolvePath_runs geometry sound (walked.2.trans proper)
          rw [walked.1, show volume.walk fs (parentComponents (vfs.canonicalize path))
            fs.bpb.rootCluster.toNat = .ok dir from parent] at resolved
          exact Runs.bind resolved (Runs.pure _)
        · simp only [if_neg reading]
          exact Runs.fail _
      simp only [if_neg unnamed]
      refine Runs.bind (findEntry_runs geometry sound live (vfs.canonicalize path)) ?_
      cases found : volume.findIn fs dir (vfs.canonicalize path) with
      | none =>
          cases mode with
          | read => exact Runs.fail _
          | write => exact Runs.fail _
          | create => exact fresh_runs geometry sound live _ _
          | createNew => exact fresh_runs geometry sound live _ _
      | some position =>
          cases mode with
          | read => exact existing_runs _ _ _
          | write => exact existing_runs _ _ _
          | create => exact existing_runs _ _ _
          | createNew => exact Runs.fail _

omit mounted sound in
theorem patched_runs {file : FileDescriptor} (visits : volume.Visits fs file.cluster)
    (data : List UInt8) :
    Runs fs (VfsManager.patched fs file data) volume (.ok (volume.patch file data)) volume := by
  refine Runs.of_shaped geometry fun shaped => ?_
  simp only [VfsManager.patched, Volume.patch]
  by_cases start : file.pos = 0
  · simp only [if_pos start]
    exact Runs.pure _
  simp only [if_neg start]
  generalize roomEq : max (file.pos + data.length) file.size = room
  refine Runs.bind ?_ (Runs.pure _)
  rw [VfsManager.currentData]
  split
  · have ran := Fat32Fs.readFile_visits geometry shaped visits file.size (zeros room)
    have whole : min file.size (zeros room).length = file.size := by
      rw [length_zeros]
      omega
    have short := List.length_take_le file.size (volume.contents (volume.chainOf file.cluster))
    rw [whole, fit_eq_splice (by omega)] at ran
    exact Runs.bind (Runs.mapErr ran _) (Runs.pure _)
  · rename_i empty
    have zero : file.size = 0 := by omega
    have nothing : fit room ((volume.contents (volume.chainOf file.cluster)).take file.size) =
        zeros room := by
      rw [zero, List.take_zero, fit, List.nil_append,
        List.take_of_length_le (by rw [length_zeros])]
    rw [nothing]
    exact Runs.pure _

omit sound in
theorem storeData_runs {file : FileDescriptor} (visits : volume.Visits fs file.cluster)
    (data : List UInt8) :
    Runs fs (vfs.storeData file data) volume
      (if (volume.rewrite fs file.cluster (volume.patch file data)).1 then .ok ()
        else .error .ioError)
      (volume.rewrite fs file.cluster (volume.patch file data)).2 :=
  Runs.bind mounted.fs_runs <| Runs.bind (patched_runs geometry visits data) <|
    Fat32Fs.rewrite_runs geometry visits _ _

theorem recordSize_runs {path : Path} {size : Nat}
    (recorded : size > 0 → volume.ProperPath fs path) :
    Runs fs (vfs.recordSize path size) volume (volume.recordSize fs path size).1
      (volume.recordSize fs path size).2 := by
  refine Runs.of_shaped geometry fun shaped => ?_
  simp only [VfsManager.recordSize, Volume.recordSize, Volume.updateSize]
  by_cases empty : size > 0
  rotate_left
  · simp only [if_neg empty]
    exact Runs.pure _
  simp only [if_pos empty]
  have proper := recorded empty
  refine Runs.bind mounted.fs_runs ?_
  cases parent : volume.parentOf fs path with
  | error reason => exact Runs.bind_error (mounted.parent_fails geometry sound proper parent) _
  | ok dir =>
      have live := parent_live geometry sound proper parent
      obtain ⟨_, clusters, chain⟩ := live.chain sound
      refine Runs.bind (mounted.parent_runs geometry sound proper parent) ?_
      by_cases unnamed : fileName path = []
      · simp only [if_pos unnamed]
        exact Runs.pure _
      simp only [if_neg unnamed]
      refine Runs.bind (Runs.mapErr (Fat32Fs.readChain_runs geometry chain) _) ?_
      refine Runs.bind (Runs.mapErr (Fat32Fs.searchChain_runs geometry
        (judgeName (toUpper83 (fileName path))) chain.visible_valid) _) ?_
      rw [Volume.findIn, Volume.slotsOf_eq geometry chain, Fat32Fs.slots, Volume.find]
      cases outcome : volume.scan (judgeName (toUpper83 (fileName path)))
          (fs.positions (Fat32Fs.visible clusters)) with
      | stopped => exact Runs.pure _
      | exhausted => exact Runs.pure _
      | taken position =>
          obtain ⟨valid, inside⟩ := Fat32Fs.taken_valid chain outcome
          exact Runs.mapErr (Fat32Fs.writeSlot_runs geometry shaped valid inside
            (Volume.resized (volume.entry position) size).length_toBytes.le) _

omit sound in
/-- `write` refines the machine. -/
theorem write_runs {fd : Nat} {data : List UInt8} (ready : volume.WriteReady fs vfs fd data)
    {device : Device} (healthy : device.Healthy) (holds : fs.view device = volume) :
    ∃ device', vfs.write fd data device =
        (outcome (volume.write fs vfs fd data).1 device', (volume.write fs vfs fd data).2.1) ∧
      device'.Healthy ∧ fs.view device' = (volume.write fs vfs fd data).2.2 := by
  simp only [VfsManager.write, Volume.write]
  cases search : vfs.fileTable.find? (fun file => file.fd = fd) with
  | none => exact ⟨device, rfl, healthy, holds⟩
  | some file =>
      by_cases reading : file.mode = .read
      · simp only [if_pos reading]
        exact ⟨device, rfl, healthy, holds⟩
      simp only [if_neg reading]
      obtain ⟨visits, sound', proper'⟩ := ready file search reading
      obtain ⟨device', ran, healthy', holds'⟩ :=
        mounted.storeData_runs geometry visits data device healthy holds
      cases result : volume.rewrite fs file.cluster (volume.patch file data) with
      | mk stored volume' =>
          rw [result] at ran holds' sound' proper'
          cases stored with
          | false =>
              rw [ran]
              exact ⟨device', rfl, healthy', holds'⟩
          | true =>
              rw [ran]
              have mounted' : Mounted fs (vfs.advance fd { file with
                  pos := file.pos + data.length, size := Volume.sizeAfter file data }) :=
                ⟨mounted.fatFs, mounted.rootCluster⟩
              obtain ⟨device'', ran', healthy'', holds''⟩ :=
                mounted'.recordSize_runs geometry sound' proper' device' healthy' holds'
              simp only [outcome, if_true]
              simp only [Volume.sizeAfter] at ran' holds'' ⊢
              rw [ran']
              cases answer : volume'.recordSize fs file.path
                  (wrap32 (max (file.pos + data.length) file.size)) with
              | mk recorded volume'' =>
                  rw [answer] at holds''
                  cases recorded with
                  | error reason => exact ⟨device'', rfl, healthy'', holds''⟩
                  | ok _ => exact ⟨device'', rfl, healthy'', holds''⟩

end Mounted

end ArcadiaOs.Fs
