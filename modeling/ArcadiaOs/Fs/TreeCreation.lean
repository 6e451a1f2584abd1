import ArcadiaOs.Fs.TreeEdits

/-!
New names in the file tree.  `create_file` and `mkdir` under a name that was not there put one node
into the tree, or they find no space and leave the tree as it was, though a cluster may be lost.
-/

namespace ArcadiaOs.Fs

open Lib

namespace Volume

/-- The call found no space and left the tree as it was. -/
structure Refuses (fs : Fat32Fs) (volume : Volume) (effect : Except VfsError Unit × Volume) :
    Prop where
  answer : effect.1 = .error .noSpace ∨ effect.1 = .error .ioError
  formed : WellFormed fs effect.2
  same : volume.SameBut fs effect.2 fun _ _ => False

/-- The call put a node, or none, under one name of a directory. -/
structure Puts (fs : Fat32Fs) (volume : Volume) (effect : Except VfsError Unit × Volume) (dir : Nat)
    (name : Path) (node : Option (Node (List UInt8))) : Prop where
  answer : effect.1 = .ok ()
  formed : WellFormed fs effect.2
  same : volume.SameBut fs effect.2 (Only dir name)
  here : (effect.2.child fs dir name).map effect.2.recorded = node
  empty : ∀ entry, effect.2.child fs dir name = some entry → entry.isDirectory = true →
    ∀ key, effect.2.child fs entry.firstCluster key = none

/-- A full directory that gets another cluster is still read to its end. -/
def Roomy (fs : Fat32Fs) (volume : Volume) (dir : Nat) : Prop :=
  volume.Full fs dir → (volume.chainOf dir).length < Fat32Fs.maxChain

instance (fs : Fat32Fs) (volume : Volume) (dir : Nat) : Decidable (volume.Roomy fs dir) :=
  inferInstanceAs (Decidable (_ → _))

variable {fs : Fat32Fs} {volume volume' : Volume}

theorem Records.child (geometry : fs.Geometry) {dir : Nat} {entries : List Fat32DirEntry}
    (records : volume.Records fs dir entries) (name : Path) : volume.child fs dir name =
      if IsDotName name then none else Lib.lookup Fat32DirEntry.fullNameUpper entries name := by
  rw [Volume.child, find_live, records.slots geometry]

theorem Refuses.of_kept (geometry : fs.Geometry) (formed : WellFormed fs volume)
    {effect : Except VfsError Unit × Volume}
    (answer : effect.1 = .error .noSpace ∨ effect.1 = .error .ioError)
    (kept : ∀ cluster, volume.fat cluster ≠ 0 → volume.Kept effect.2 cluster) :
    volume.Refuses fs effect := by
  have claimed : ∀ cluster, volume.Claimed fs cluster → volume.Kept effect.2 cluster :=
    fun cluster claimed => kept cluster claimed.not_free
  exact ⟨answer, wellFormed_of_kept geometry formed claimed,
    sameBut_of_kept geometry formed.sound claimed⟩

theorem Roomy.short (geometry : fs.Geometry) {dir : Nat} (roomy : volume.Roomy fs dir)
    {clusters : List Nat} (chain : volume.Chain fs dir clusters)
    (short : clusters.length ≤ Fat32Fs.maxChain)
    (full : volume.scan judgeVacant (fs.positions clusters) = .exhausted) :
    clusters.length < Fat32Fs.maxChain := by
  have visible : Fat32Fs.visible clusters = clusters :=
    Fat32Fs.visible_short (Nat.le_succ_of_le short)
  have bound := roomy (by rw [Full, slotsOf_eq geometry chain, Fat32Fs.slots, visible]; exact full)
  rw [geometry.chainOf_eq chain, visible] at bound
  exact bound

namespace Enters

variable {dir : Nat} {entry : Fat32DirEntry} (enters : volume.Enters fs volume' dir entry)
  (geometry : fs.Geometry) (formed : WellFormed fs volume) (live : volume.LiveDir fs dir)
include enters formed live

theorem around : volume.Around fs volume' dir fun _ => False :=
  ⟨fun _ _ ownerLive apart _ owned => enters.kept_owned formed live ownerLive apart owned,
    fun _ => False.elim⟩

variable (plain : entry.Plain)
  (absent : ∀ clusters, volume.Chain fs dir clusters → Lib.lookup Fat32DirEntry.fullNameUpper
    (liveOf (volume.slotEntries fs clusters)) entry.fullNameUpper = none)
include geometry plain absent

theorem child_parent : volume'.child fs dir entry.fullNameUpper = some entry ∧
    ∀ name, name ≠ entry.fullNameUpper → volume'.child fs dir name = volume.child fs dir name := by
  obtain ⟨clusters, chain, _, before⟩ := records_of_formed formed live
  obtain ⟨entries, after, _, _, found, others⟩ :=
    enters.records_parent geometry formed live plain absent chain
  have named : ¬IsDotName entry.fullNameUpper := by
    obtain ⟨base, ext, short, _, name, extension⟩ := plain
    rw [short.fullNameUpper name extension]
    exact short.named
  refine ⟨by rw [after.child geometry, if_neg named, found], fun name other => ?_⟩
  rw [after.child geometry, before.child geometry, others name other]

theorem sameBut : volume.SameBut fs volume' (Only dir entry.fullNameUpper) :=
  (enters.around formed live).sameBut geometry formed.sound live
    (enters.child_parent geometry formed live plain absent).2 fun _ => False.elim

theorem parent_tidy (roomy : volume.Roomy fs dir) {clusters : List Nat}
    (chain : volume'.Chain fs dir clusters) :
    InOrder (volume'.slotEntries fs clusters) ∧ clusters.length ≤ Fat32Fs.maxChain := by
  refine ⟨enters.parent_inOrder geometry formed live plain absent chain, ?_⟩
  obtain ⟨own, ownChain, bound, _⟩ := records_of_formed formed live
  obtain ⟨clusters', grown, gains⟩ := enters.parent own ownChain
  obtain rfl := chain.unique geometry gains.chain
  rcases grown with ⟨rfl, _⟩ | ⟨length, full⟩
  · exact bound
  · have room := roomy.short geometry ownChain bound full
    omega

end Enters

theorem putEntry_kind (geometry : fs.Geometry) (shaped : volume.Shaped fs)
    (sound : volume.Sound fs) {dir : Nat} (live : volume.LiveDir fs dir) {entry : Fat32DirEntry}
    (recordable : volume.Recordable fs entry) {owner : Owner}
    (ownerLive : (volume.putEntry fs dir entry).2.Live fs owner) :
    ((volume.putEntry fs dir entry).2.start fs owner = entry.firstCluster ∧
      (volume.putEntry fs dir entry).2.directory owner = entry.isDirectory) ∨
      volume.Live fs owner ∧
        (volume.putEntry fs dir entry).2.start fs owner = volume.start fs owner ∧
        (volume.putEntry fs dir entry).2.directory owner = volume.directory owner := by
  obtain ⟨_, clusters, chain⟩ := live.chain sound
  obtain ⟨parent, parentLive, directory, rfl⟩ := live
  rcases putEntry_entered geometry shaped sound parentLive directory chain recordable with
    unchanged | ⟨middle, clusters', position, entered⟩
  · rw [unchanged] at ownerLive ⊢
    exact .inr ⟨ownerLive, rfl, rfl⟩
  · rcases entered.edit.live geometry ownerLive with rfl | ⟨different, before⟩
    · left
      rw [start, Volume.directory, entered.holds]
      exact ⟨rfl, rfl⟩
    · have first := entered.rechain.live_of sound geometry before
      exact .inr ⟨first, entered.start_eq first different⟩

theorem newEntry_file_hidden {name : Path} (valid : Valid83 name) (cluster size : Nat) :
    (VfsManager.newEntry (toUpper83 name) 0x20 cluster size).isHidden = false :=
  (take_name (newEntry_taken valid cluster size)).2

section Create

variable (geometry : fs.Geometry) (shaped : volume.Shaped fs) (formed : WellFormed fs volume)
  {path : Path} {dir : Nat} (targets : volume.Targets fs path dir)
  (valid : Valid83 (fileName path)) (missing : volume.findIn fs dir path = none)
  (roomy : volume.Roomy fs dir)
include geometry shaped formed targets valid missing roomy

omit shaped roomy in
theorem absent_name (cluster size : Nat) (attributes : UInt8) (clusters : List Nat)
    (chain : volume.Chain fs dir clusters) : Lib.lookup Fat32DirEntry.fullNameUpper
      (liveOf (volume.slotEntries fs clusters))
      (VfsManager.newEntry (toUpper83 (fileName path)) attributes cluster size).fullNameUpper =
        none := by
  have live := targets.live geometry formed.sound
  obtain ⟨own, ownChain, _, records⟩ := records_of_formed formed live
  obtain rfl := chain.unique geometry ownChain
  rw [newEntry_fullNameUpper valid, ← records.findIn geometry path, missing]
  rfl

omit shaped valid missing roomy in
/-- Entering the new file leaves the clusters that its data was put into. -/
theorem stored_entered {data : List UInt8} {cluster : Nat} {tail : List Nat}
    (stored : volume.Stored fs data cluster tail) (entry : Fat32DirEntry) :
    ∀ other ∈ [cluster] ++ tail, (volume.place fs data).2.Kept
      ((volume.place fs data).2.putEntry fs dir entry).2 other := by
  have sound := formed.sound
  obtain ⟨present, clusters, chain⟩ := (targets.live geometry sound).chain sound
  have middleChain := chain.kept fun cluster inside =>
    place_kept fs volume data (chain.not_free inside)
  intro other member
  refine putEntry_kept geometry middleChain present entry (fun inside => ?_) ?_
  · exact chain.not_free inside (stored.taken member).2
  · exact (stored.chain fun _ _ => ⟨rfl, rfl⟩).not_free member

theorem createFile_new_puts {data : List UInt8} (bound : data.length < 2 ^ 32)
    (survives : Survives fs data) {cluster : Nat} {tail : List Nat}
    (stored : volume.Stored fs data cluster tail)
    (added : ((volume.place fs data).2.putEntry fs dir
      (VfsManager.newEntry (toUpper83 (fileName path)) 0x20 cluster data.length)).1 = true)
    (sound' : ((volume.place fs data).2.putEntry fs dir
      (VfsManager.newEntry (toUpper83 (fileName path)) 0x20 cluster data.length)).2.Sound fs) :
    volume.Puts fs (.ok (), ((volume.place fs data).2.putEntry fs dir
        (VfsManager.newEntry (toUpper83 (fileName path)) 0x20 cluster data.length)).2) dir
      (toUpper83 (fileName path)) (some (.file data)) := by
  have sound := formed.sound
  have live := targets.live geometry sound
  obtain ⟨clusters, chain, bounded, _⟩ := records_of_formed formed live
  have shaped' := place_shaped shaped data
  have preserves := place_preserves fs volume data
  have placed : volume.place fs data = (some cluster, (volume.place fs data).2) := by
    rw [stored.placed]
  have startBound := geometry.valid_u32 (firstFree_some stored.found).1
  have plain := newEntry_plain valid 0x20 cluster data.length
  have absent := absent_name geometry formed targets valid missing cluster data.length 0x20
  have start := newEntry_firstCluster (toUpper83 (fileName path)) 0x20 startBound data.length
  have regular := newEntry_regular (toUpper83 (fileName path)) cluster data.length
  have named := newEntry_fullNameUpper valid 0x20 cluster data.length
  have size : (VfsManager.newEntry (toUpper83 (fileName path)) 0x20 cluster
      data.length).fileSize.toNat = data.length := by
    rw [VfsManager.newEntry, UInt32.toNat_ofNat', Nat.mod_eq_of_lt bound]
  have hidden := newEntry_file_hidden valid cluster data.length
  obtain ⟨_, placedChain⟩ := place_placed placed
  have recordable := placedChain.recordable geometry sound (toUpper83 (fileName path)) data.length
  generalize VfsManager.newEntry (toUpper83 (fileName path)) 0x20 cluster data.length = entry at *
  have enters := putEntry_enters geometry shaped' (fun other taken => place_kept fs volume data taken)
    formed.toOrderly live (fun others other => by rw [other.unique geometry chain]; exact bounded)
    plain.live.1 hidden added
  obtain ⟨here, _⟩ := enters.child_parent geometry formed live plain absent
  have kept := stored_entered geometry formed targets stored entry
  rw [named] at here
  refine ⟨rfl, ?_, named ▸ enters.sameBut geometry formed live plain absent, ?_, ?_⟩
  · refine (enters.around formed live).wellFormed geometry formed sound' (fun owner ownerLive => ?_)
      fun others other => enters.parent_tidy geometry formed live plain absent roomy other
    rcases putEntry_kind geometry shaped' (preserves.sound geometry sound)
      (live.preserved preserves geometry sound) recordable ownerLive with
      ⟨began, kind⟩ | ⟨before, began, kind⟩
    · left
      refine ⟨kind.trans regular, fun others owned => ?_⟩
      rw [Owns, began, start] at owned
      obtain rfl := owned.unique geometry (stored.chain kept)
      have length := stored.count.2
      have few := (demand_pos fs data).2
      rw [length, Fat32Fs.maxChain]
      omega
    · have first := (preserves.live_iff geometry sound owner).mp before
      exact .inr ⟨first, not_false, began.trans (preserves.start_eq first),
        kind.trans (preserves.directory_eq first)⟩
  · simp only [here, Option.map_some, recorded, regular, Bool.false_eq_true, if_false]
    rw [(stored.bytesOf_iff geometry kept start size).mpr survives]
  · intro found same directory
    rw [here, Option.some.injEq] at same
    rw [← same, regular] at directory
    cases directory

theorem createFile_new_effect {data : List UInt8} (bound : data.length < 2 ^ 32)
    (survives : Survives fs data) : volume.Refuses fs (volume.createFile fs path data) ∨
      volume.Puts fs (volume.createFile fs path data) dir (toUpper83 (fileName path))
        (some (.file data)) := by
  have sound := formed.sound
  obtain ⟨present, clusters, chain⟩ := (targets.live geometry sound).chain sound
  have sound' := createFile_sound geometry shaped sound targets.proper data
  rw [targets.createFile_new missing] at sound' ⊢
  rcases placeNew_cases geometry chain sound.used present (toUpper83 (fileName path)) data with
    ⟨_, outcome⟩ | ⟨_, _, cluster, found, outcome⟩ | ⟨cluster, tail, stored, ⟨_, outcome⟩ |
    ⟨_, added, outcome⟩⟩
  · rw [outcome]
    exact .inl (.of_kept geometry formed (.inl rfl) fun _ _ => ⟨rfl, rfl⟩)
  · rw [outcome]
    refine .inl (.of_kept geometry formed (.inl rfl) fun other used => reserve_kept ?_)
    rintro rfl
    exact used (firstFree_some found).2
  · rw [outcome]
    exact .inl (.of_kept geometry formed (.inr rfl)
      fun other taken => place_kept fs volume data taken)
  · rw [outcome] at sound' ⊢
    exact .inr (createFile_new_puts geometry shaped formed targets valid missing roomy bound survives
      stored added sound')

theorem mkdir_effect : volume.Refuses fs (volume.mkdir fs path) ∨
    volume.Puts fs (volume.mkdir fs path) dir (toUpper83 (fileName path)) (some .directory) := by
  have sound := formed.sound
  have live := targets.live geometry sound
  obtain ⟨clusters, chain, _, _⟩ := records_of_formed formed live
  have present := (live.chain sound).1
  rcases mkdir_cases geometry chain sound.used present targets.parent targets.named missing with
    ⟨_, outcome⟩ | ⟨cluster, found, _, ⟨_, outcome⟩ | ⟨_, made⟩⟩
  · rw [outcome]
    exact .inl (.of_kept geometry formed (.inl rfl) fun _ _ => ⟨rfl, rfl⟩)
  · rw [outcome]
    exact .inl (.of_kept geometry formed (.inr rfl) fun other used => marked_kept_used found used)
  · right
    have sound' := mkdir_sound geometry shaped sound targets.proper
    obtain ⟨parent, cluster, reached, _, validCluster, adds, absent⟩ :=
      mkdir_adds geometry shaped formed targets.proper valid made
    obtain rfl := Except.ok.inj (targets.parent.symm.trans reached)
    have plain := newEntry_plain valid 0x10 cluster 0
    have named := newEntry_fullNameUpper valid 0x10 cluster 0
    have start := newEntry_firstCluster (toUpper83 (fileName path)) 0x10
      (geometry.valid_u32 validCluster) 0
    have directory := (newEntry_directory (toUpper83 (fileName path)) cluster 0).2.2
    obtain ⟨here, _⟩ := adds.toEnters.child_parent geometry formed live plain absent
    rw [named] at here
    refine ⟨made, ⟨adds.orderly geometry formed live plain absent sound', ?_⟩,
      named ▸ adds.toEnters.sameBut geometry formed live plain absent, ?_, ?_⟩
    · intro owner others ownerLive owned
      rcases adds.short geometry formed live ownerLive owned with short |
        ⟨_, _, before, beforeChain, length, full⟩
      · exact short
      · have room := roomy.short geometry beforeChain length.le full
        omega
    · simp only [here, Option.map_some, recorded, directory, if_true]
    · intro entry same _ key
      rw [here, Option.some.injEq] at same
      have records : (volume.mkdir fs path).2.Records fs cluster _ :=
        ⟨[cluster], adds.made, show 1 ≤ Fat32Fs.maxChain + 1 by decide,
          dots_liveOf geometry adds.dots⟩
      obtain ⟨_, _, selfName, _⟩ := dotEntry_live [0x2E] (.inl rfl) cluster
      obtain ⟨_, _, upName, _⟩ := dotEntry_live [0x2E, 0x2E] (.inr rfl) dir
      rw [← same, start, records.child geometry]
      split
      · rfl
      · rename_i notDot
        rw [lookup_eq_none_iff]
        intro dot member named
        simp only [List.mem_cons, List.not_mem_nil, or_false] at member
        rcases member with rfl | rfl
        · exact notDot (.inl (named.symm.trans selfName))
        · exact notDot (.inr (named.symm.trans upName))

end Create

end Volume

end ArcadiaOs.Fs
