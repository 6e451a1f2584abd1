import ArcadiaOs.Fs.Addition

/-!
What `mkdir` does to the whole tree.  The new directory's cluster is marked before the
parent may take another one, so the two are never the same, and nothing but the parent's
slots and free clusters is written.
-/

namespace ArcadiaOs.Fs

open Lib

namespace Volume

variable {fs : Fat32Fs} {volume volume' : Volume}

def marked (fs : Fat32Fs) (volume : Volume) (dir cluster : Nat) : Volume :=
  (volume.setData cluster (dots fs cluster dir)).setFat cluster fat32Eoc

theorem Entered.start_eq {middle : Volume} {owner : Owner} {clusters clusters' : List Nat}
    {position : Position} {entry : Fat32DirEntry}
    (entered : volume.Entered fs middle volume' owner clusters clusters' position entry)
    {other : Owner} (live : volume.Live fs other) (different : other ≠ .slot position) :
    volume'.start fs other = volume.start fs other ∧
      volume'.directory other = volume.directory other := by
  rw [entered.edit.start_eq different, entered.edit.directory_eq different]
  cases other with
  | root => exact ⟨rfl, rfl⟩
  | slot place =>
      rw [start, start, directory, directory, entered.entries place live.claimed.1]
      exact ⟨rfl, rfl⟩

theorem putEntry_live (geometry : fs.Geometry) (shaped : volume.Shaped fs)
    (sound : volume.Sound fs) {dir : Nat} (live : volume.LiveDir fs dir) {entry : Fat32DirEntry}
    (recordable : volume.Recordable fs entry) {owner : Owner}
    (ownerLive : (volume.putEntry fs dir entry).2.Live fs owner) :
    (volume.putEntry fs dir entry).2.start fs owner = entry.firstCluster ∨
      volume.Live fs owner ∧
        (volume.putEntry fs dir entry).2.start fs owner = volume.start fs owner ∧
        (volume.putEntry fs dir entry).2.directory owner = volume.directory owner := by
  obtain ⟨_, clusters, chain⟩ := live.chain sound
  obtain ⟨parent, parentLive, directory, rfl⟩ := live
  rcases putEntry_entered geometry shaped sound parentLive directory chain recordable with
    unchanged | ⟨middle, clusters', position, entered⟩
  · rw [unchanged] at ownerLive ⊢
    exact .inr ⟨ownerLive, rfl, rfl⟩
  · rcases entered.edit.live geometry ownerLive with rfl | ⟨different, before⟩
    · left
      rw [start, entered.holds]
    · have first := entered.rechain.live_of sound geometry before
      exact .inr ⟨first, entered.start_eq first different⟩

section Mkdir

variable (geometry : fs.Geometry) (shaped : volume.Shaped fs) (orderly : Orderly fs volume)
  {dir : Nat} (live : volume.LiveDir fs dir) {cluster : Nat}
  (found : volume.firstFree fs = some cluster)

include found in
theorem marked_kept_used {other : Nat} (used : volume.fat other ≠ 0) :
    volume.Kept (volume.marked fs dir cluster) other := by
  refine marked_kept ?_ _
  rintro rfl
  exact used (firstFree_some found).2

include geometry shaped orderly live found

theorem marked_adds {name : Path} (valid : Valid83 name)
    (short : ∀ clusters, volume.Chain fs dir clusters → clusters.length ≤ Fat32Fs.maxChain)
    (added : ((volume.marked fs dir cluster).putEntry fs dir
      (VfsManager.newEntry (toUpper83 name) 0x10 cluster 0)).1 = true) :
    volume.Adds fs ((volume.marked fs dir cluster).putEntry fs dir
      (VfsManager.newEntry (toUpper83 name) 0x10 cluster 0)).2 dir cluster
      (VfsManager.newEntry (toUpper83 name) 0x10 cluster 0) := by
  obtain ⟨validCluster, free⟩ := firstFree_some found
  have sound := orderly.sound
  obtain ⟨present, own, ownChain⟩ := live.chain sound
  have keeps : ∀ other, volume.fat other ≠ 0 → volume.Kept (volume.marked fs dir cluster) other :=
    fun _ used => marked_kept_used found used
  have preserves : volume.Preserves fs (volume.marked fs dir cluster) :=
    Preserves.of_agree fun other claimed => keeps other claimed.not_free
  have chainMarked := ownChain.kept fun other member => keeps other (ownChain.not_free member)
  have shapedMarked : (volume.marked fs dir cluster).Shaped fs :=
    (shaped.setData cluster (Mounted.length_dots geometry cluster dir)).setFat cluster fat32Eoc
  have plain := newEntry_plain valid 0x10 cluster 0
  have hidden : (VfsManager.newEntry (toUpper83 name) 0x10 cluster 0).isHidden = false := by
    obtain ⟨notLong, notLabel, _⟩ := newEntry_directory (toUpper83 name) cluster 0
    rw [Fat32DirEntry.isHidden, plain.live.2, notLong, notLabel]
    rfl
  have outside : cluster ∉ own := fun member => ownChain.not_free member free
  have keptCluster : (volume.marked fs dir cluster).Kept ((volume.marked fs dir cluster).putEntry fs
      dir (VfsManager.newEntry (toUpper83 name) 0x10 cluster 0)).2 cluster :=
    putEntry_kept geometry chainMarked present _ outside (by rw [marked, setFat_fat_same]; decide)
  refine ⟨putEntry_enters geometry shapedMarked keeps orderly live short plain.live.1 hidden added,
    ?_, ?_, ?_, ?_⟩
  · have chain : (volume.marked fs dir cluster).Chain fs cluster [cluster] :=
      marked_chain validCluster _
    refine chain.kept fun other member => ?_
    rw [List.mem_singleton.mp member]
    exact keptCluster
  · rw [keptCluster.2, marked, setFat_data, setData_data_same]
  · exact fun claimed => claimed.not_free free
  · intro owner ownerLive
    rcases putEntry_live geometry shapedMarked (preserves.sound geometry sound)
      (live.preserved preserves geometry sound) (dots_recordable geometry sound found dir _)
      ownerLive with started | ⟨before, start, kind⟩
    · left
      rw [started, newEntry_firstCluster _ _ (geometry.valid_u32 validCluster)]
    · right
      have first := (preserves.live_iff geometry sound owner).mp before
      exact ⟨first, start.trans (preserves.start_eq first), kind.trans (preserves.directory_eq first)⟩

end Mkdir

theorem mkdir_ok {path : Path} (made : (volume.mkdir fs path).1 = .ok ()) : ∃ dir cluster,
    volume.parentOf fs path = .ok dir ∧ volume.findIn fs dir path = none ∧
      volume.firstFree fs = some cluster ∧
      ((volume.marked fs dir cluster).putEntry fs dir
        (VfsManager.newEntry (toUpper83 (fileName path)) 0x10 cluster 0)).1 = true ∧
      (volume.mkdir fs path).2 = ((volume.marked fs dir cluster).putEntry fs dir
        (VfsManager.newEntry (toUpper83 (fileName path)) 0x10 cluster 0)).2 := by
  simp only [mkdir] at made ⊢
  cases parent : volume.parentOf fs path with
  | error reason =>
      rw [parent] at made
      cases made
  | ok dir =>
      simp only [parent] at made ⊢
      split at made
      · cases made
      rename_i named
      rw [if_neg named]
      cases absent : volume.findIn fs dir path with
      | some position =>
          rw [absent] at made
          cases made
      | none =>
          cases found : volume.firstFree fs with
          | none =>
              rw [absent, found] at made
              cases made
          | some cluster =>
              rw [absent, found] at made
              exact ⟨dir, cluster, rfl, absent, rfl, enter_ok made, enter_snd _ _ _ _⟩

theorem mkdir_adds (geometry : fs.Geometry) (shaped : volume.Shaped fs)
    (formed : WellFormed fs volume) {path : Path} (proper : volume.ProperPath fs path)
    (valid : Valid83 (fileName path)) (made : (volume.mkdir fs path).1 = .ok ()) :
    ∃ dir cluster, volume.parentOf fs path = .ok dir ∧ volume.LiveDir fs dir ∧ fs.Valid cluster ∧
      volume.Adds fs (volume.mkdir fs path).2 dir cluster
        (VfsManager.newEntry (toUpper83 (fileName path)) 0x10 cluster 0) ∧
      ∀ clusters, volume.Chain fs dir clusters → Lib.lookup Fat32DirEntry.fullNameUpper
        (liveOf (volume.slotEntries fs clusters))
        (VfsManager.newEntry (toUpper83 (fileName path)) 0x10 cluster 0).fullNameUpper = none := by
  obtain ⟨dir, cluster, reached, missing, found, added, outcome⟩ := mkdir_ok made
  have live := Mounted.parent_live geometry formed.sound proper reached
  obtain ⟨own, ownChain, short, records⟩ := records_of_formed formed live
  rw [outcome]
  refine ⟨dir, cluster, reached, live, (firstFree_some found).1, ?_, fun clusters chain => ?_⟩
  · refine marked_adds geometry shaped formed.toOrderly live found valid (fun clusters chain => ?_) added
    rw [chain.unique geometry ownChain]
    exact short
  · rw [chain.unique geometry ownChain, newEntry_fullNameUpper valid,
      ← records.findIn geometry path, missing]
    rfl

theorem mkdir_answers (geometry : fs.Geometry) {path : Path}
    {dir : Nat} {clusters : List Nat} (reached : volume.parentOf fs path = .ok dir)
    (named : fileName path ≠ []) (missing : volume.findIn fs dir path = none)
    (chain : volume.Chain fs dir clusters) (present : 2 ≤ dir) {first second : Nat}
    (apart : first ≠ second) (freeFirst : fs.Valid first ∧ volume.fat first = 0)
    (freeSecond : fs.Valid second ∧ volume.fat second = 0) :
    (volume.mkdir fs path).1 = .ok () := by
  have enough : 2 ≤ fs.bpb.totalClusters := by
    have := freeFirst.1.1
    have := freeFirst.1.2
    have := freeSecond.1.1
    have := freeSecond.1.2
    omega
  cases found : volume.firstFree fs with
  | none => exact absurd freeFirst.2 (firstFree_none found enough freeFirst.1)
  | some cluster =>
      have room : (volume.marked fs dir cluster).firstFree fs ≠ none := by
        intro full
        have taken (other : Nat) (free : fs.Valid other ∧ volume.fat other = 0) :
            other = cluster := by
          by_contra different
          refine firstFree_none full enough free.1 ?_
          exact (marked_kept different _).1.trans free.2
        exact apart ((taken first freeFirst).trans (taken second freeSecond).symm)
      have keptOwn : ∀ other ∈ clusters, volume.Kept (volume.marked fs dir cluster) other :=
        fun other member => marked_kept_used found (chain.not_free member)
      simp only [mkdir, reached, if_neg named, missing, found]
      rw [enter]
      rcases putEntry_cases geometry (chain.kept keptOwn) present
        (VfsManager.newEntry (toUpper83 (fileName path)) 0x10 cluster 0) with ⟨_, _, put⟩ |
        ⟨_, full, _⟩ | ⟨_, _, _, _, _, put⟩
      · rw [marked] at put
        rw [put]
      · exact absurd full room
      · rw [marked] at put
        rw [put]

end Volume

/-- What `mkdir` does: an empty directory is there, the parent lists it, and every other directory
and every file is as before.  The parent's chain passes the bound only when it had reached it with
every slot taken. -/
structure Made (fs : Fat32Fs) (vfs : VfsManager) (path : Path) (device device' : Device)
    (dir cluster : Nat) : Prop where
  empty : (vfs.listDir path).answer device' = .ok []
  self : ∃ entry, (fs.findEntry cluster [0x2E]).answer device' = .ok (some entry) ∧
    entry.firstCluster = cluster
  parent : ∃ entry, (fs.findEntry cluster [0x2E, 0x2E]).answer device' = .ok (some entry) ∧
    entry.firstCluster = dir
  listed : ∀ above, Leads fs (fs.view device) above dir → ∃ before after,
    (vfs.listDir above).answer device = .ok before ∧
    (vfs.listDir above).answer device' = .ok after ∧
    after.Perm (⟨(fileName path).map asciiLower, true, 0, cluster⟩ :: before)
  directories : ∀ other target, Leads fs (fs.view device) other target → target ≠ dir →
    (vfs.listDir other).answer device' = (vfs.listDir other).answer device
  files : ∀ file position, (fs.view device).Names fs file position →
    ((fs.view device).entry position).isDirectory = false →
    (vfs.readFileContent file).answer device' = (vfs.readFileContent file).answer device
  orderly : Orderly fs (fs.view device')
  short : ∀ owner clusters, (fs.view device').Live fs owner → (fs.view device').Owns fs owner clusters →
    clusters.length ≤ Fat32Fs.maxChain ∨ (fs.view device').start fs owner = dir ∧
      clusters.length = Fat32Fs.maxChain + 1 ∧ ∃ before, (fs.view device).Chain fs dir before ∧
        before.length = Fat32Fs.maxChain ∧
        (fs.view device).scan judgeVacant (fs.positions before) = .exhausted

/-- An absolute path of names of directories that lead to one, and behind them an 8.3 name. -/
structure Volume.DirectoryPath (fs : Fat32Fs) (volume : Volume) (path : Path) (dir : Nat) : Prop where
  absolute : path.head? = some slash
  names : up ∉ parentComponents path
  walked : ∃ trail, volume.treeWalk fs (parentComponents path) [] = some trail ∧
    trailEnd fs trail = dir
  short : Valid83 (fileName path)

theorem Volume.DirectoryPath.leads {fs : Fat32Fs} {volume : Volume} {path : Path} {dir : Nat}
    (directoryPath : volume.DirectoryPath fs path dir) :
    volume.ProperPath fs path ∧ volume.parentOf fs path = .ok dir := by
  obtain ⟨trail, walked, ended⟩ := directoryPath.walked
  obtain ⟨proper, reached⟩ := Volume.treeWalk_names directoryPath.names walked
  rw [ended] at reached
  exact ⟨proper, reached⟩

theorem made_of_ok {fs : Fat32Fs} (geometry : fs.Geometry) {vfs : VfsManager}
    (mounted : Mounted fs vfs) {device device' : Device} (healthy : device.Healthy)
    (formed : WellFormed fs (fs.view device)) {path : Path}
    (proper : (fs.view device).ProperPath fs path) (valid : Valid83 (fileName path))
    (made : vfs.mkdir path device = .ok () device') : ∃ dir cluster,
      (fs.view device).parentOf fs path = .ok dir ∧ Made fs vfs path device device' dir cluster := by
  have shaped : (fs.view device).Shaped fs := fun cluster =>
    fs.length_view_data geometry device cluster
  obtain ⟨answered, healthy', holds⟩ :=
    (mounted.mkdir_runs geometry formed.sound proper).of_ok healthy rfl made
  have sound' := Volume.mkdir_sound geometry shaped formed.sound proper
  obtain ⟨dir, cluster, reached, live, validCluster, adds, absent⟩ :=
    Volume.mkdir_adds geometry shaped formed proper valid answered
  rw [← holds] at sound' adds
  obtain ⟨named, notDot, _⟩ := valid.component
  have entryName := newEntry_fullNameUpper valid 0x10 cluster 0
  have plain := newEntry_plain valid 0x10 cluster 0
  have bound := geometry.valid_u32 validCluster
  have dirBound : dir < 2 ^ 32 := by
    obtain ⟨present, clusters, chain⟩ := live.chain formed.sound
    exact geometry.valid_u32 (chain.valid dir (chain.mem_start present))
  obtain ⟨self, parent⟩ := find_dots adds geometry healthy' bound dirBound
  have started : (VfsManager.newEntry (toUpper83 (fileName path)) 0x10 cluster 0).firstCluster =
      cluster := newEntry_firstCluster _ _ bound 0
  refine ⟨dir, cluster, reached, ?_, self, parent, fun above leads => ?_, ?_, ?_, ?_, ?_⟩
  · obtain ⟨properAfter, reachedAfter⟩ :=
      adds.toEnters.walk_after geometry formed live plain absent proper reached
    have found := adds.toEnters.lookup_new geometry formed live plain absent notDot entryName
    rw [listDir_named geometry mounted healthy' sound' properAfter reachedAfter ⟨named, notDot⟩ found
      (newEntry_directory _ _ _).2.2, DirEntryInfo.ofEntry, started, listing_dots adds geometry]
    rfl
  · have shown : nodeOf (DirEntryInfo.ofEntry
        (VfsManager.newEntry (toUpper83 (fileName path)) 0x10 cluster 0)) =
        ⟨(fileName path).map asciiLower, true, 0, cluster⟩ := by
      rw [nodeOf, newEntry_shown valid]
      exact congrArg₂ (VfsNode.mk _ · 0 ·) (newEntry_directory _ _ _).2.2 started
    rw [← shown]
    refine listDir_parent adds.toEnters geometry mounted healthy healthy' formed sound' live plain absent ?_ leads
    rw [entryName, toUpper83_dots]
    exact notDot
  · intro other target leads apart
    exact listDir_elsewhere adds.toEnters geometry mounted healthy healthy' formed sound' live plain absent
      leads apart
  · intro file position names regular
    exact readFileContent_kept adds.toEnters geometry mounted healthy healthy' formed sound' live plain absent
      names regular
  · exact adds.orderly geometry formed live plain absent sound'
  · exact fun owner clusters ownerLive owned => adds.short geometry formed live ownerLive owned

/-- `mkdir` adds an empty directory and nothing else. -/
theorem mkdir_adds_empty_directory {fs : Fat32Fs} (geometry : fs.Geometry) {vfs : VfsManager}
    (mounted : Mounted fs vfs) {device device' : Device} (healthy : device.Healthy)
    (formed : WellFormed fs (fs.view device)) {path : Path} {dir : Nat}
    (directoryPath : (fs.view device).DirectoryPath fs path dir)
    (made : vfs.mkdir path device = .ok () device') :
    ∃ cluster, Made fs vfs path device device' dir cluster := by
  obtain ⟨proper, parent⟩ := directoryPath.leads
  obtain ⟨reached, cluster, same, result⟩ :=
    made_of_ok geometry mounted healthy formed proper directoryPath.short made
  obtain rfl : dir = reached := Except.ok.inj (parent.symm.trans same)
  exact ⟨cluster, result⟩

theorem valid_A : Valid83 (fileName [0x2F, 0x41]) :=
  ⟨[0x41], [], ⟨by decide, by decide, by decide, by decide +kernel⟩, by decide⟩

theorem directoryPath_A (fs : Fat32Fs) (volume : Volume) :
    volume.DirectoryPath fs [0x2F, 0x41] fs.bpb.rootCluster.toNat :=
  ⟨rfl, by decide, ⟨[], rfl, rfl⟩, valid_A⟩

theorem mkdir_adds_empty_directory_blank : ∃ device',
    blankSession.vfs.mkdir [0x2F, 0x41] blankDevice = .ok () device' ∧ ∃ cluster,
      Made smallFs blankSession.vfs [0x2F, 0x41] blankDevice device' 2 cluster := by
  have mounted : Mounted smallFs blankSession.vfs := blank_ready.1
  have healthy : blankDevice.Healthy := fun _ => ⟨rfl, rfl⟩
  have proper : (smallFs.view blankDevice).ProperPath smallFs [0x2F, 0x41] := by decide
  have answered : ((smallFs.view blankDevice).mkdir smallFs [0x2F, 0x41]).1 = .ok () := by
    decide
  obtain ⟨device', ran, _, _⟩ := mounted.mkdir_runs smallFs_geometry blank_wellFormed.sound proper
    blankDevice healthy rfl
  rw [answered] at ran
  exact ⟨device', ran, mkdir_adds_empty_directory smallFs_geometry mounted healthy blank_wellFormed
    (directoryPath_A _ _) ran⟩

/-! A root directory of 100000 clusters with a long name in every slot. -/

def fullFs : Fat32Fs where
  bpb :=
    { bytesPerSector := 512, sectorsPerCluster := 1, reservedSectorCount := 1, numFats := 1,
      totalSectors32 := 102801, fatSize32 := 800, rootCluster := 2 }
  partitionLba := 0

def fullLink (cluster : Nat) : Nat :=
  if cluster < 100001 then cluster + 1 else if cluster = 100001 then fat32Eoc else 0

/-- A sector of the table from the entry of cluster `first` on. -/
def tableBytes (first : Nat) : List UInt8 :=
  (List.range sectorSize).map fun offset => byteAt (leBytes 4 (fullLink (first + offset / 4))) (offset % 4)

def fullDevice : Device where
  sector lba :=
    if lba < 801 then ⟨tableBytes ((lba - 1) * 128), by
      simp only [tableBytes, List.length_map, List.length_range]⟩
    else ⟨List.replicate sectorSize 0x0F, List.length_replicate⟩
  readable _ := true
  writable _ := true

theorem fullFs_geometry : fullFs.Geometry := by
  constructor <;> decide

theorem fullLink_lt (cluster : Nat) : fullLink cluster < 2 ^ 28 := by
  rw [fullLink]
  split
  · omega
  split
  · decide
  · decide

theorem tableBytes_word (first : Nat) {index : Nat} (inside : index < 128) :
    ofLeBytes (bytesAt (tableBytes first) (index * 4) 4) = fullLink (first + index) := by
  have same : bytesAt (tableBytes first) (index * 4) 4 =
      bytesAt (leBytes 4 (fullLink (first + index))) 0 4 := by
    refine bytesAt_congr fun place bound => ?_
    have within : index * 4 + place < sectorSize := by
      rw [sectorSize]
      omega
    have cell : (index * 4 + place) / 4 = index := by omega
    have rest : (index * 4 + place) % 4 = place := by omega
    rw [tableBytes, byteAt, List.getD_eq_getElem?_getD, List.getElem?_map,
      List.getElem?_range within, Option.map_some, Option.getD_some, cell, rest, Nat.zero_add]
  have long := length_leBytes 4 (fullLink (first + index))
  rw [same, bytesAt_eq_slice (by rw [long]), slice_all long.le, ofLeBytes_leBytes]
  exact Nat.mod_eq_of_lt (Nat.lt_trans (fullLink_lt _) (by decide : 2 ^ 28 < 256 ^ 4))

theorem full_fat {cluster : Nat} (valid : fullFs.Valid cluster) :
    (fullFs.view fullDevice).fat cluster = fullLink cluster := by
  have clusters : fullFs.bpb.totalClusters = 102000 := by decide
  have bound : cluster < 102002 := by
    have := valid.2
    omega
  have place : fullFs.fatLba cluster = 1 + cluster / 128 := Nat.zero_add _
  have table : 1 + cluster / 128 < 801 := by omega
  have whole : cluster / 128 * 128 + cluster % 128 = cluster := by omega
  rw [Fat32Fs.view]
  simp only [if_pos valid]
  rw [Fat32Fs.fatWord, place, fullDevice]
  simp only [if_pos table, Nat.add_sub_cancel_left]
  rw [tableBytes_word _ (Nat.mod_lt _ (by decide)), whole]
  exact Nat.mod_eq_of_lt (fullLink_lt _)

theorem full_data {cluster : Nat} (valid : fullFs.Valid cluster) :
    (fullFs.view fullDevice).data cluster = List.replicate 512 0x0F := by
  have beyond : ¬fullFs.dataLba cluster 0 < 801 := by
    have place : fullFs.dataLba cluster 0 = 0 + (1 + 1 * 800 + (cluster - 2) * 1 + 0) := rfl
    omega
  have one : fullFs.bpb.sectorsPerCluster.toNat = 1 := by decide
  rw [Fat32Fs.view]
  simp only [if_pos valid]
  rw [Fat32Fs.clusterBytes, one, List.range_one, List.flatMap_singleton, fullDevice]
  simp only [if_neg beyond]
  rfl

theorem full_valid {cluster : Nat} (member : cluster ∈ List.range' 2 Fat32Fs.maxChain) :
    fullFs.Valid cluster := by
  have clusters : fullFs.bpb.totalClusters = 102000 := by decide
  rw [List.mem_range'_1, Fat32Fs.maxChain] at member
  exact ⟨member.1, by omega⟩

theorem full_chain : (fullFs.view fullDevice).Chain fullFs fullFs.bpb.rootCluster.toNat
    (List.range' 2 Fat32Fs.maxChain) := by
  refine ⟨nofun, fun _ => ?_, fun cluster member => full_valid member, List.nodup_range', ?_⟩
  · rw [Fat32Fs.maxChain, List.range'_succ]
    rfl
  · have linked : Linked fullLink id (fat32Eoc ≤ ·) (List.range' 2 Fat32Fs.maxChain) := by
      refine linked_range' 2 Fat32Fs.maxChain (fun cell _ below => ?_) fun cell ended => ?_
      · rw [Fat32Fs.maxChain] at below
        rw [fullLink, if_pos (by omega)]
      · rw [Fat32Fs.maxChain] at ended
        rw [fullLink, if_neg (by omega), if_pos (by omega)]
    exact linked_congr (fun cluster member => full_fat (full_valid member)) linked

theorem full_slot {position : Position} (member : position ∈ fullFs.positions
    (List.range' 2 Fat32Fs.maxChain)) :
    ((fullFs.view fullDevice).entry position).isEnd = false ∧
      ((fullFs.view fullDevice).entry position).isDeleted = false ∧
      ((fullFs.view fullDevice).entry position).isLongName = true := by
  obtain ⟨inside, bound⟩ := Fat32Fs.mem_positions.mp member
  have slots : fullFs.entriesPerCluster = 16 := by decide
  rw [Fat32Fs.InCluster, slots] at bound
  have byte (offset : Nat) (small : offset < entrySize) :
      byteAt (List.replicate 512 0x0F) (position.2 * entrySize + offset) = 0x0F := by
    rw [entrySize] at small ⊢
    rw [byteAt, List.getD_eq_getElem?_getD, List.getElem?_replicate, if_pos (by omega)]
    rfl
  have name : byteAt ((fullFs.view fullDevice).entry position).name 0 = 0x0F := by
    rw [Volume.entry, full_data (full_valid inside)]
    exact byte 0 (by decide)
  have attributes : ((fullFs.view fullDevice).entry position).attributes = 0x0F := by
    rw [Volume.entry, full_data (full_valid inside)]
    exact byte 11 (by decide)
  rw [Fat32DirEntry.isEnd, Fat32DirEntry.isDeleted, Fat32DirEntry.isLongName, name, attributes]
  decide

theorem full_exhausted (name : List UInt8) :
    (fullFs.view fullDevice).scan judgeVacant
        (fullFs.positions (List.range' 2 Fat32Fs.maxChain)) = .exhausted ∧
      (fullFs.view fullDevice).find name
        (fullFs.positions (List.range' 2 Fat32Fs.maxChain)) = none := by
  constructor
  · refine (Volume.scan_exhausted_iff _).mpr fun position member => ?_
    obtain ⟨notEnd, notDeleted, _⟩ := full_slot member
    rw [judgeVacant, notEnd, notDeleted]
    rfl
  · have skipped : (fullFs.view fullDevice).scan (judgeName name)
        (fullFs.positions (List.range' 2 Fat32Fs.maxChain)) = .exhausted := by
      refine (Volume.scan_exhausted_iff _).mpr fun position member => ?_
      obtain ⟨notEnd, notDeleted, long⟩ := full_slot member
      rw [judgeName, notEnd, notDeleted, long]
      rfl
    rw [Volume.find, skipped]

theorem full_wellFormed : WellFormed fullFs (fullFs.view fullDevice) := by
  have slots : ∀ slot ∈ (fullFs.view fullDevice).slotEntries fullFs (List.range' 2 Fat32Fs.maxChain),
      slot.isEnd = false ∧ slot.isHidden = true := by
    intro slot member
    obtain ⟨position, inside, rfl⟩ := List.mem_map.mp member
    obtain ⟨notEnd, notDeleted, long⟩ := full_slot inside
    rw [Fat32DirEntry.isHidden, notDeleted, long]
    exact ⟨notEnd, rfl⟩
  refine wellFormed_of_blank fullFs_geometry (by decide) full_chain List.length_range'.le ?_ ?_ ?_
  · intro position member occupied
    obtain ⟨_, _, long⟩ := full_slot member
    rw [occupied.2.2.1] at long
    cases long
  · have noEnd : NoEnd _ := fun slot member => (slots slot member).1
    have whole := noEnd.zeroTail_append (zeroTail_zeros 0)
    rw [List.replicate_zero, List.append_nil] at whole
    exact whole
  · refine List.eq_nil_iff_forall_not_mem.mpr fun entry live => ?_
    obtain ⟨member, _, shown⟩ := mem_liveOf live
    rw [(slots entry member).2] at shown
    cases shown

theorem full_free {cluster : Nat} (above : 100001 < cluster) (below : cluster < 102002) :
    fullFs.Valid cluster ∧ (fullFs.view fullDevice).fat cluster = 0 := by
  have clusters : fullFs.bpb.totalClusters = 102000 := by decide
  have valid : fullFs.Valid cluster := ⟨by omega, by omega⟩
  rw [full_fat valid, fullLink, if_neg (by omega), if_neg (by omega)]
  exact ⟨valid, rfl⟩

theorem full_missing :
    (fullFs.view fullDevice).findIn fullFs fullFs.bpb.rootCluster.toNat [0x2F, 0x41] = none := by
  have slots := Volume.slotsOf_eq fullFs_geometry full_chain
  rw [Fat32Fs.slots, Fat32Fs.visible_short (by rw [List.length_range']; exact Nat.le_succ _)] at slots
  rw [Volume.findIn, slots]
  exact (full_exhausted _).2

theorem full_answer : ((fullFs.view fullDevice).mkdir fullFs [0x2F, 0x41]).1 = .ok () :=
  Volume.mkdir_answers fullFs_geometry rfl (by decide) full_missing full_chain (by decide)
    (by decide : 100002 ≠ 100003) (full_free (by decide) (by decide))
    (full_free (by decide) (by decide))

/-- Making `/A` there succeeds and leaves the root directory with a chain of 100001 clusters. -/
theorem full_directory_outgrows : WellFormed fullFs (fullFs.view fullDevice) ∧
    (fullFs.view fullDevice).DirectoryPath fullFs [0x2F, 0x41] 2 ∧
    (fullFs.view fullDevice).findIn fullFs 2 [0x2F, 0x41] = none ∧
    ∃ device', VfsManager.mkdir ⟨some fullFs, 2, [], 1, [slash]⟩ [0x2F, 0x41] fullDevice =
        .ok () device' ∧ ¬WellFormed fullFs (fullFs.view device') := by
  have proper : (fullFs.view fullDevice).ProperPath fullFs [0x2F, 0x41] := by decide
  have mounted : Mounted fullFs ⟨some fullFs, 2, [], 1, [slash]⟩ := ⟨rfl, rfl⟩
  obtain ⟨device', ran, _, holds⟩ := mounted.mkdir_runs fullFs_geometry full_wellFormed.sound proper
    fullDevice (fun _ => ⟨rfl, rfl⟩) rfl
  rw [full_answer] at ran
  refine ⟨full_wellFormed, directoryPath_A _ _, full_missing, device', ran, fun formed => ?_⟩
  have shaped : (fullFs.view fullDevice).Shaped fullFs := fun cluster =>
    fullFs.length_view_data fullFs_geometry fullDevice cluster
  obtain ⟨dir, cluster, reached, _, _, adds, _⟩ :=
    Volume.mkdir_adds fullFs_geometry shaped full_wellFormed proper valid_A full_answer
  obtain rfl : fullFs.bpb.rootCluster.toNat = dir := Except.ok.inj reached
  obtain ⟨clusters', grown, gains⟩ := adds.parent _ full_chain
  rw [← holds] at gains
  have bound := formed.short .root clusters' .root gains.chain
  rcases grown with ⟨_, vacant⟩ | ⟨length, _⟩
  · exact vacant (full_exhausted []).1
  · rw [length, List.length_range'] at bound
    exact Nat.not_succ_le_self _ bound

end ArcadiaOs.Fs
