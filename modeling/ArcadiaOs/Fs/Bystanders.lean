import ArcadiaOs.Fs.StoredFile

/-!
What a call leaves alone.  Lists and reads are the same where the slots of the directories are, and
a write keeps off every file but its own as long as no other one has the clusters that it reads or
the slot that its path leads to.
-/

namespace ArcadiaOs.Fs

open Lib

namespace Volume

/-- Every cluster of every directory is as before. -/
def KeepsDirs (fs : Fat32Fs) (volume volume' : Volume) : Prop :=
  ∀ dir clusters, volume.LiveDir fs dir → volume.Chain fs dir clusters →
    ∀ cluster ∈ clusters, volume.Kept volume' cluster

/-- The directories are as before, their slots too but for some, and so are the files recorded in
the other slots. -/
structure Spares (fs : Fat32Fs) (volume volume' : Volume) (own : Position → Prop) : Prop where
  dirs : volume.SameDirs fs volume'
  slots : ∀ dir, volume.LiveDir fs dir → ∀ position ∈ volume.slotsOf fs dir, ¬own position →
    volume'.entry position = volume.entry position
  files : ∀ position, volume.Live fs (.slot position) →
    (volume.entry position).isDirectory = false → ¬own position →
    ∀ clusters, volume.Owns fs (.slot position) clusters → ∀ cluster ∈ clusters,
      volume.Kept volume' cluster

/-- The regular file recorded at a position starts at the cluster of the descriptor. -/
structure Starts (fs : Fat32Fs) (volume : Volume) (file : FileDescriptor) (position : Position) :
    Prop where
  live : volume.Live fs (.slot position)
  regular : (volume.entry position).isDirectory = false
  start : (volume.entry position).firstCluster = file.cluster

/-- A write keeps off the files that are not the descriptor's own: that file is there, or the
clusters it reads belong to nothing; and where it records a size, its path leads to nothing else, or
to an entry of that size. -/
structure Apart (fs : Fat32Fs) (volume : Volume) (own : Position → Prop) (file : FileDescriptor)
    (data : List UInt8) : Prop where
  chain : (∃ position, own position) ∨
    ∀ cluster ∈ volume.chainOf file.cluster, fs.Valid cluster ∧ ¬volume.Claimed fs cluster
  size : sizeAfter file data > 0 → volume.ProperPath fs file.path ∧
    ∀ position, volume.Names fs file.path position →
      own position ∨ (volume.entry position).fileSize.toNat = sizeAfter file data

variable {fs : Fat32Fs} {volume volume' : Volume}

theorem Names.unique {path : Path} {position other : Position}
    (names : volume.Names fs path position) (others : volume.Names fs path other) :
    position = other := by
  obtain ⟨dir, parent, found⟩ := names.found
  obtain ⟨dir', parent', found'⟩ := others.found
  obtain rfl : dir = dir' := Except.ok.inj (parent.symm.trans parent')
  exact Option.some.inj (found.symm.trans found')

theorem Spares.refl (fs : Fat32Fs) (volume : Volume) (own : Position → Prop) :
    volume.Spares fs volume own :=
  ⟨⟨fun _ _ _ chain => chain, fun _ _ _ _ _ _ => SameName.refl _⟩, fun _ _ _ _ _ => rfl,
    fun _ _ _ _ _ _ _ _ => ⟨rfl, rfl⟩⟩

theorem recordSize_cases {path : Path} {size : Nat} (recorded : size > 0 → volume.ProperPath fs path) :
    (volume.recordSize fs path size).2 = volume ∨
      size > 0 ∧ ∃ position, volume.Names fs path position ∧
        (volume.recordSize fs path size).2 =
          volume.setEntry position (resized (volume.entry position) size) := by
  simp only [recordSize, updateSize]
  by_cases some : size > 0
  rotate_left
  · rw [if_neg some]
    exact .inl rfl
  rw [if_pos some]
  cases parent : volume.parentOf fs path with
  | error reason => exact .inl rfl
  | ok dir =>
      by_cases unnamed : fileName path = []
      · simp only [if_pos unnamed, true_or]
      simp only [if_neg unnamed]
      cases found : volume.findIn fs dir path with
      | none => exact .inl rfl
      | some position =>
          exact .inr ⟨some, position, ⟨recorded some, unnamed, dir, parent, found⟩, rfl⟩

section Sound

variable (geometry : fs.Geometry) (sound : volume.Sound fs)
include geometry sound

theorem KeepsDirs.slots (kept : volume.KeepsDirs fs volume') {dir : Nat}
    (live : volume.LiveDir fs dir) {position : Position} (member : position ∈ volume.slotsOf fs dir) :
    volume'.entry position = volume.entry position := by
  obtain ⟨_, clusters, chain⟩ := live.chain sound
  rw [slotsOf_eq geometry chain] at member
  exact (kept dir clusters live chain position.1
    (Fat32Fs.mem_positions.mp (slots_subset member)).1).entry

theorem SameDirs.names_of (same : volume.SameDirs fs volume') {path : Path}
    (proper : volume.ProperPath fs path) {position : Position}
    (names : volume'.Names fs path position) : volume.Names fs path position := by
  obtain ⟨dir, parent, found⟩ := names.found
  rw [same.parentOf_eq geometry sound proper] at parent
  have live := Mounted.parent_live geometry sound proper parent
  rw [same.findIn_eq geometry sound live] at found
  exact ⟨proper, names.named, dir, parent, found⟩

theorem listAt_kept (same : volume.SameDirs fs volume')
    (slots : ∀ dir, volume.LiveDir fs dir → ∀ position ∈ volume.slotsOf fs dir,
      volume'.entry position = volume.entry position) {path : Path}
    (proper : volume.throughDirs fs (pathComponents path) fs.bpb.rootCluster.toNat = true) :
    volume'.listAt fs path = volume.listAt fs path := by
  simp only [listAt, (same.walk geometry sound liveDir_root proper).1]
  cases reached : volume.walk fs (pathComponents path) fs.bpb.rootCluster.toNat with
  | error reason => rfl
  | ok dir =>
      have live := walk_liveDir geometry sound liveDir_root proper reached
      simp only [same.slotsOf_eq geometry sound live, listing_kept (slots dir live)]

theorem readContent_kept (same : volume.SameDirs fs volume') {path : Path}
    (proper : volume.ProperPath fs path)
    (kept : ∀ position, volume.Names fs path position →
      volume'.entry position = volume.entry position ∧
        ((volume.entry position).isDirectory = false →
          volume'.bytesOf (volume.entry position) = volume.bytesOf (volume.entry position))) :
    volume'.readContent fs path = volume.readContent fs path := by
  simp only [readContent, same.parentOf_eq geometry sound proper]
  cases parent : volume.parentOf fs path with
  | error reason => rfl
  | ok dir =>
      by_cases unnamed : fileName path = []
      · simp only [if_pos unnamed]
      have live := Mounted.parent_live geometry sound proper parent
      simp only [if_neg unnamed, same.findIn_eq geometry sound live path]
      cases found : volume.findIn fs dir path with
      | none => rfl
      | some position =>
          obtain ⟨entry, bytes⟩ := kept position ⟨proper, unnamed, dir, parent, found⟩
          simp only [entry]
          cases regular : (volume.entry position).isDirectory with
          | true => simp only [if_true]
          | false => rw [bytes regular]

theorem Spares.reads {own : Position → Prop} (spares : volume.Spares fs volume' own) {path : Path}
    {position : Position} (names : volume.Names fs path position)
    (regular : (volume.entry position).isDirectory = false) (other : ¬own position) :
    volume'.readContent fs path = volume.readContent fs path := by
  refine readContent_kept geometry sound spares.dirs names.proper fun place placeNames => ?_
  obtain rfl := names.unique placeNames
  obtain ⟨dir, live, _, found⟩ := names.parent geometry sound
  have slot := names.live geometry sound regular
  obtain ⟨clusters, owned⟩ := sound.owns _ slot
  exact ⟨spares.slots dir live position (find_spec found).1 other,
    fun _ => bytesOf_kept geometry owned (spares.files position slot regular other clusters owned)⟩

theorem Spares.lists {own : Position → Prop} (spares : volume.Spares fs volume' own)
    (none : ∀ position, ¬own position) {path : Path}
    (proper : volume.throughDirs fs (pathComponents path) fs.bpb.rootCluster.toNat = true) :
    volume'.listAt fs path = volume.listAt fs path :=
  listAt_kept geometry sound spares.dirs
    (fun dir live position member => spares.slots dir live position member (none position)) proper

theorem Spares.resized {own : Position → Prop} (spares : volume.Spares fs volume' own)
    (shaped : volume'.Shaped fs) {path : Path} {position : Position} {size : Nat}
    (names : volume.Names fs path position)
    (mine : own position ∨ (volume.entry position).fileSize.toNat = size) :
    volume.Spares fs (volume'.setEntry position (resized (volume'.entry position) size)) own := by
  obtain ⟨dir, live, _, found⟩ := names.parent geometry sound
  have member := (find_spec found).1
  have inside := live.inside geometry sound member
  obtain ⟨_, held, heldChain⟩ := live.chain sound
  rw [slotsOf_eq geometry heldChain] at member
  have within := (Fat32Fs.mem_positions.mp (slots_subset member)).1
  refine ⟨⟨fun other clusters otherLive chain => ?_, fun other clusters otherLive chain place at' => ?_⟩,
    fun other otherLive place at' foreign => ?_, fun other slot regular foreign clusters owned cluster
      at' => ?_⟩
  · exact (spares.dirs.chains other clusters otherLive chain).congr fun _ _ => rfl
  · have kept := spares.dirs.slots other clusters otherLive chain place at'
    by_cases same : place = position
    · subst same
      rw [setEntry_entry_same shaped inside]
      exact ⟨kept.1, kept.2, kept.3, kept.4⟩
    · rw [setEntry_entry_other shaped inside _ same]
      exact kept
  · have kept := spares.slots other otherLive place at' foreign
    by_cases same : place = position
    · subst same
      rw [setEntry_entry_same shaped inside, kept, Volume.resized, ← mine.resolve_left foreign,
        UInt32.ofNat_toNat]
    · rw [setEntry_entry_other shaped inside _ same, kept]
  · refine (spares.files other slot regular foreign clusters owned cluster at').trans
      ⟨rfl, setData_data_other _ _ ?_⟩
    rintro rfl
    exact live.apart sound heldChain slot regular owned within at'

end Sound

section Write

variable (geometry : fs.Geometry) (sound : volume.Sound fs) {own : Position → Prop}
  {file : FileDescriptor} (starts : ∀ position, own position → volume.Starts fs file position)
  {data : List UInt8} (apart : volume.Apart fs own file data)
include geometry sound starts apart

theorem Apart.unread {owner : Owner} (live : volume.Live fs owner)
    (other : ∀ position, own position → owner ≠ .slot position) {clusters : List Nat}
    (owned : volume.Owns fs owner clusters) {cluster : Nat} (member : cluster ∈ clusters) :
    cluster ∉ volume.chainOf file.cluster := by
  rcases apart.chain with ⟨position, mine⟩ | unclaimed
  · obtain ⟨slot, _, start⟩ := starts position mine
    obtain ⟨held, heldOwned⟩ := sound.owns _ slot
    have chain : volume.Chain fs file.cluster held := start ▸ heldOwned
    rw [geometry.chainOf_eq chain]
    intro read
    exact sound.apart _ _ live slot (other position mine) _ _ owned heldOwned member
      (Chain.mem_visible read)
  · exact fun read => (unclaimed cluster read).2 ⟨owner, clusters, live, owned, member⟩

theorem Apart.visits : volume.Visits fs file.cluster := by
  rcases apart.chain with ⟨position, mine⟩ | unclaimed
  · obtain ⟨slot, _, start⟩ := starts position mine
    obtain ⟨held, owned⟩ := sound.owns _ slot
    have chain : volume.Chain fs file.cluster held := start ▸ owned
    exact geometry.chain_visits chain
  · exact fun cluster read => (unclaimed cluster read).1

theorem Apart.kept (bytes : List UInt8) {owner : Owner} (live : volume.Live fs owner)
    (other : ∀ position, own position → owner ≠ .slot position) {clusters : List Nat}
    (owned : volume.Owns fs owner clusters) {cluster : Nat} (member : cluster ∈ clusters) :
    volume.Kept (volume.rewrite fs file.cluster bytes).2 cluster :=
  rewrite_unread bytes (apart.unread geometry sound starts live other owned member)
    (owned.not_free member)

theorem Apart.keepsDirs (bytes : List UInt8) :
    volume.KeepsDirs fs (volume.rewrite fs file.cluster bytes).2 := by
  rintro dir clusters ⟨owner, live, directory, rfl⟩ chain cluster member
  refine apart.kept geometry sound starts bytes live (fun position mine same => ?_) chain member
  subst same
  exact Bool.false_ne_true ((starts position mine).regular.symm.trans directory)

theorem Apart.rewrite_sound (bytes : List UInt8) :
    (volume.rewrite fs file.cluster bytes).2.Sound fs := by
  by_cases mine : ∃ position, own position
  · obtain ⟨position, mine⟩ := mine
    obtain ⟨live, regular, start⟩ := starts position mine
    exact Volume.rewrite_sound geometry sound (.inr ⟨position, live, regular, start⟩) bytes
  · refine (Preserves.of_agree fun cluster claimed => ?_).sound geometry sound
    obtain ⟨owner, clusters, live, owned, member⟩ := claimed
    exact apart.kept geometry sound starts bytes live (fun position own => absurd ⟨position, own⟩ mine)
      owned member

theorem Apart.ready :
    let volume' := (volume.rewrite fs file.cluster (volume.patch file data)).2
    volume.Visits fs file.cluster ∧ volume'.Sound fs ∧
      (sizeAfter file data > 0 → volume'.ProperPath fs file.path) := by
  have same := SameDirs.of_kept (apart.keepsDirs geometry sound starts (volume.patch file data))
  exact ⟨apart.visits geometry sound starts,
    apart.rewrite_sound geometry sound starts (volume.patch file data),
    fun recorded => same.properPath geometry sound (apart.size recorded).1⟩

theorem Apart.stored (bytes : List UInt8) :
    volume.Spares fs (volume.rewrite fs file.cluster bytes).2 own := by
  have kept := apart.keepsDirs geometry sound starts bytes
  refine ⟨SameDirs.of_kept kept, fun dir live position member _ =>
    kept.slots geometry sound live member, ?_⟩
  intro position live regular foreign clusters owned cluster member
  refine apart.kept geometry sound starts bytes live (fun other mine same => ?_) owned member
  exact foreign (Owner.slot.inj same ▸ mine)

theorem Apart.recorded (shaped : volume.Shaped fs) :
    volume.Spares fs ((volume.rewrite fs file.cluster (volume.patch file data)).2.recordSize fs
      file.path (sizeAfter file data)).2 own := by
  have stored := apart.stored geometry sound starts (volume.patch file data)
  obtain ⟨_, _, proper'⟩ := apart.ready geometry sound starts
  rcases recordSize_cases proper' with same | ⟨recorded, position, names', outcome⟩
  · rw [same]
    exact stored
  · obtain ⟨proper, led⟩ := apart.size recorded
    have names := stored.dirs.names_of geometry sound proper names'
    rw [outcome]
    exact stored.resized geometry sound (rewrite_shaped shaped _ _) names (led position names)

omit geometry sound starts apart in
theorem resized_kept (entry : Fat32DirEntry) (size : Nat) :
    (resized entry size).isDirectory = entry.isDirectory ∧
      (resized entry size).firstCluster = entry.firstCluster := ⟨rfl, rfl⟩

theorem Apart.record (shaped : volume.Shaped fs) {position : Position}
    (live : volume.Live fs (.slot position)) :
    let volume' := (volume.rewrite fs file.cluster (volume.patch file data)).2
    let recorded := (volume'.recordSize fs file.path (sizeAfter file data)).2
    (volume'.entry position = volume.entry position) ∧
      (recorded.entry position).isDirectory = (volume.entry position).isDirectory ∧
      (recorded.entry position).firstCluster = (volume.entry position).firstCluster := by
  have kept := apart.keepsDirs geometry sound starts (volume.patch file data)
  obtain ⟨_, sound', proper'⟩ := apart.ready geometry sound starts
  have entry : (volume.rewrite fs file.cluster (volume.patch file data)).2.entry position =
      volume.entry position := by
    cases live with
    | slot parent directory owned member _ =>
        have held := (Fat32Fs.mem_positions.mp member).1
        exact (kept _ _ ⟨_, parent, directory, rfl⟩ owned position.1 held).entry
  refine ⟨entry, ?_⟩
  rw [← entry]
  rcases recordSize_cases proper' with same | ⟨_, place, names, outcome⟩
  · rw [same]
    exact ⟨rfl, rfl⟩
  · obtain ⟨dir, placeLive, _, found⟩ := names.parent geometry sound'
    have inside := placeLive.inside geometry sound' (find_spec found).1
    have shaped' := rewrite_shaped shaped file.cluster (volume.patch file data)
    rw [outcome]
    by_cases same : position = place
    · subst same
      rw [setEntry_entry_same shaped' inside]
      exact resized_kept _ _
    · rw [setEntry_entry_other shaped' inside _ same]
      exact ⟨rfl, rfl⟩

end Write

/-! Slots that are not written. -/

theorem putEntry_slot (geometry : fs.Geometry) (shaped : volume.Shaped fs) {dir : Nat}
    {clusters : List Nat} (chain : volume.Chain fs dir clusters) (present : 2 ≤ dir)
    (entry : Fat32DirEntry) {position : Position} (occupied : Occupied (volume.entry position))
    (used : volume.fat position.1 ≠ 0) :
    (volume.putEntry fs dir entry).2.entry position = volume.entry position := by
  rcases putEntry_cases geometry chain present entry with ⟨place, vacant, put⟩ | ⟨_, _, put⟩ |
    ⟨_, last, cluster, _, found, put⟩
  · rw [put]
    obtain ⟨_, inside⟩ := Fat32Fs.taken_valid chain vacant
    obtain ⟨_, _, _, _, take⟩ := (scan_taken_iff _ _).mp vacant
    refine setEntry_entry_other shaped inside entry ?_
    rintro rfl
    rw [judgeVacant, occupied.1, occupied.2.1] at take
    cases take
  · rw [put]
  · have notNew : position.1 ≠ cluster := fun same => used (same ▸ (firstFree_some found).2)
    have inside : fs.InCluster (cluster, 0).2 := geometry.firstSlot
    rw [put, growDir_eq, setEntry_entry_other (extendDir_shaped shaped last cluster) inside entry
      fun same => notNew (congrArg Prod.fst same)]
    exact extendDir_entry_old notNew

section Calls

variable (geometry : fs.Geometry) (shaped : volume.Shaped fs) (sound : volume.Sound fs)
  {position : Position} (slot : volume.Live fs (.slot position))
include geometry shaped sound slot

omit shaped in
theorem enter_slot {middle : Volume} (shaped' : middle.Shaped fs)
    (keeps : ∀ cluster, volume.fat cluster ≠ 0 → volume.Kept middle cluster) {dir : Nat}
    (live : volume.LiveDir fs dir) (entry : Fat32DirEntry) :
    (middle.enter fs dir entry).2.entry position = volume.entry position := by
  obtain ⟨present, clusters, chain⟩ := live.chain sound
  have kept := keeps position.1 slot.claimed.1.not_free
  have chain' := chain.kept fun cluster member => keeps cluster (chain.not_free member)
  rw [enter_snd, putEntry_slot geometry shaped' chain' present entry, kept.entry]
  · rw [kept.entry]
    exact slot.occupied
  · rw [kept.1]
    exact slot.claimed.1.not_free

theorem fresh_slot {dir : Nat} (live : volume.LiveDir fs dir) (nameUpper : Path) {α : Type}
    (opened : Nat → α) :
    let effect : Except VfsError α × Volume :=
      match volume.place fs [] with
      | (none, volume') => (.error .noSpace, volume')
      | (some cluster, volume') =>
          match volume'.enter fs dir (VfsManager.newEntry nameUpper 0x20 cluster 0) with
          | (.error reason, volume'') => (.error reason, volume'')
          | (.ok _, volume'') => (.ok (opened cluster), volume'')
    effect.2.entry position = volume.entry position := by
  have keeps : ∀ cluster, volume.fat cluster ≠ 0 → volume.Kept (volume.place fs []).2 cluster :=
    fun cluster used => place_kept fs volume [] used
  have shaped' := place_shaped shaped []
  refine @fresh_rule fs volume (fun volume' => volume'.entry position = volume.entry position) dir
    nameUpper α opened (fun volume' outcome => ?_) fun cluster volume' outcome => ?_
  · rw [outcome] at keeps
    exact (keeps position.1 slot.claimed.1.not_free).entry
  · rw [outcome] at keeps shaped'
    exact enter_slot geometry sound slot shaped' keeps live _

theorem openFile_slot {vfs : VfsManager} {path : Path}
    (proper : volume.ProperPath fs (vfs.canonicalize path)) (mode : FileMode) :
    (volume.openFile fs vfs path mode).2.entry position = volume.entry position := by
  have existing : ∀ (entry : Fat32DirEntry) (refused : VfsError) (opened : Nat × VfsManager),
      (if entry.isDirectory then (.error refused, volume) else (.ok opened, volume) :
        Except VfsError (Nat × VfsManager) × Volume).2.entry position = volume.entry position := by
    intro entry refused opened
    split
    · rfl
    · rfl
  simp only [openFile]
  cases parent : volume.parentOf fs (vfs.canonicalize path) with
  | error reason => rfl
  | ok dir =>
      have live := Mounted.parent_live geometry sound proper parent
      simp only
      split
      · split
        · rfl
        · rfl
      cases volume.findIn fs dir (vfs.canonicalize path) with
      | none =>
          cases mode with
          | read => rfl
          | write => rfl
          | create => exact fresh_slot geometry shaped sound slot live _ _
          | createNew => exact fresh_slot geometry shaped sound slot live _ _
      | some place =>
          cases mode with
          | read => exact existing _ _ _
          | write => exact existing _ _ _
          | create => exact existing _ _ _
          | createNew => rfl

theorem mkdir_slot {path : Path} (proper : volume.ProperPath fs path) :
    (volume.mkdir fs path).2.entry position = volume.entry position := by
  simp only [mkdir]
  cases parent : volume.parentOf fs path with
  | error reason => rfl
  | ok dir =>
      have live := Mounted.parent_live geometry sound proper parent
      simp only
      split
      · rfl
      cases volume.findIn fs dir path with
      | some place => rfl
      | none =>
          cases found : volume.firstFree fs with
          | none => rfl
          | some cluster =>
              have shaped' := (shaped.setData cluster
                (Mounted.length_dots geometry cluster dir)).setFat cluster fat32Eoc
              refine enter_slot geometry sound slot shaped' (fun other used => marked_kept ?_ _) live _
              rintro rfl
              exact used (firstFree_some found).2

theorem createFile_slot {path : Path} (proper : volume.ProperPath fs path) (data : List UInt8) :
    (volume.createFile fs path data).2.entry position = volume.entry position ∨
      (volume.createFile fs path data).1 = .ok () ∧ volume.Names fs path position := by
  simp only [createFile]
  cases parent : volume.parentOf fs path with
  | error reason => exact .inl rfl
  | ok dir =>
      have live := Mounted.parent_live geometry sound proper parent
      simp only
      by_cases unnamed : fileName path = []
      · rw [if_pos unnamed]
        exact .inl rfl
      rw [if_neg unnamed]
      cases found : volume.findIn fs dir path with
      | none =>
          have keeps : ∀ cluster, volume.fat cluster ≠ 0 →
              volume.Kept (volume.place fs data).2 cluster :=
            fun cluster used => place_kept fs volume data used
          have shaped' := place_shaped shaped data
          cases outcome : volume.place fs data with
          | mk answer volume' =>
              rw [outcome] at keeps shaped'
              cases answer with
              | none => exact .inl (keeps position.1 slot.claimed.1.not_free).entry
              | some cluster => exact .inl (enter_slot geometry sound slot shaped' keeps live _)
      | some place =>
          simp only
          cases regular : (volume.entry place).isDirectory with
          | true => exact .inl rfl
          | false =>
              have placeLive := live.found geometry sound found (not_dot_of_regular regular)
              obtain ⟨clusters, owned⟩ := sound.owns _ placeLive
              have kept := overwrite_kept geometry owned data slot.claimed.1.not_free
                (slot.outside sound placeLive regular owned)
              have shaped' := place_shaped
                (free_shaped shaped (volume.entry place).firstCluster) data
              simp only [Bool.false_eq_true, if_false, Volume.start] at kept ⊢
              cases outcome : (volume.free (volume.entry place).firstCluster).place fs data with
              | mk answer volume' =>
                  rw [outcome] at kept shaped'
                  cases answer with
                  | none => exact .inl kept.entry
                  | some cluster =>
                      by_cases same : position = place
                      · exact .inr ⟨rfl, same ▸ ⟨proper, unnamed, dir, parent, found⟩⟩
                      · refine .inl ?_
                        simp only
                        rw [setEntry_entry_other shaped' placeLive.claimed.2 _ same]
                        exact kept.entry

omit slot in
theorem delete_slot {path : Path} (proper : volume.ProperPath fs path) :
    (volume.delete fs path).2.entry position = volume.entry position ∨
      (volume.delete fs path).1 = .ok () ∧ volume.Names fs path position := by
  simp only [delete]
  cases parent : volume.parentOf fs path with
  | error reason => exact .inl rfl
  | ok dir =>
      have live := Mounted.parent_live geometry sound proper parent
      simp only
      by_cases unnamed : fileName path = []
      · rw [if_pos unnamed]
        exact .inl rfl
      rw [if_neg unnamed]
      cases found : volume.findIn fs dir path with
      | none => exact .inl rfl
      | some place =>
          have inside := live.inside geometry sound (find_spec found).1
          by_cases same : position = place
          · exact .inr ⟨rfl, same ▸ ⟨proper, unnamed, dir, parent, found⟩⟩
          · refine .inl ?_
            simp only [free_entry]
            exact erase_entry_other shaped inside same

end Calls

end Volume

end ArcadiaOs.Fs
