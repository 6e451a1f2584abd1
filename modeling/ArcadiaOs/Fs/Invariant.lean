import ArcadiaOs.Fs.Refinement

/-!
Every step of the machine on volumes keeps a volume sound: clusters are taken from the
free ones, an entry is recorded with a chain nobody owns, and what is freed had one owner.
-/

namespace ArcadiaOs.Fs

open Lib

theorem firstCluster_setFirstCluster (entry : Fat32DirEntry) {cluster : Nat}
    (bound : cluster < 2 ^ 32) : (entry.setFirstCluster cluster).firstCluster = cluster := by
  simp only [Fat32DirEntry.firstCluster, Fat32DirEntry.setFirstCluster, UInt16.toNat_ofNat']
  omega

theorem newEntry_firstCluster (nameUpper : Path) (attributes : UInt8) {cluster : Nat}
    (bound : cluster < 2 ^ 32) (size : Nat) :
    (VfsManager.newEntry nameUpper attributes cluster size).firstCluster = cluster :=
  firstCluster_setFirstCluster (Fat32DirEntry.zeroed.setName83 nameUpper) bound

theorem newEntry_regular (nameUpper : Path) (cluster size : Nat) :
    (VfsManager.newEntry nameUpper 0x20 cluster size).isDirectory = false := by
  have regular : decide ((0x20 : UInt8) &&& 0x10 ≠ 0) = false := by decide
  exact regular

theorem Fat32Fs.Geometry.firstSlot {fs : Fat32Fs} (geometry : fs.Geometry) : fs.InCluster 0 := by
  have sectors := geometry.clusterSectors
  rw [Fat32Fs.InCluster, Fat32Fs.entriesPerCluster, geometry.clusterSize, entrySize]
  omega

theorem Fat32Fs.Geometry.valid_u32 {fs : Fat32Fs} (geometry : fs.Geometry) {cluster : Nat}
    (valid : fs.Valid cluster) : cluster < 2 ^ 32 :=
  Nat.lt_trans (geometry.valid_bound valid) (by decide)

theorem occupied_congr {left right : Fat32DirEntry} (name : left.name = right.name)
    (ext : left.ext = right.ext) (attributes : left.attributes = right.attributes) :
    Occupied left ↔ Occupied right := by
  cases left
  cases right
  cases name
  cases ext
  cases attributes
  exact Iff.rfl

theorem slotAt_zeros (size index : Nat) : slotAt (zeros size) index = Fat32DirEntry.zeroed := by
  apply Fat32DirEntry.readAt_congr
  intro offset _
  rw [byteAt_zeros]
  rfl

theorem not_occupied_zeroed : ¬Occupied Fat32DirEntry.zeroed := by decide

theorem dotEntry_isDirectory (name : Path) (cluster : Nat) :
    (VfsManager.dotEntry name cluster).isDirectory = true := by
  have directory : decide ((0x10 : UInt8) &&& 0x10 ≠ 0) = true := by decide
  exact directory

theorem dots_slot {fs : Fat32Fs} (geometry : fs.Geometry) (cluster parent : Nat) {index : Nat}
    (inside : fs.InCluster index) :
    slotAt (Volume.dots fs cluster parent) index =
      if index = 0 then VfsManager.dotEntry [0x2E] cluster
      else if index = 1 then VfsManager.dotEntry [0x2E, 0x2E] parent
      else Fat32DirEntry.zeroed := by
  have fits := inside.fits
  have sectors := geometry.clusterSectors
  have size := geometry.clusterSize
  have long := (VfsManager.dotEntry [0x2E] cluster).length_toBytes
  have longParent := (VfsManager.dotEntry [0x2E, 0x2E] parent).length_toBytes
  have room : 0 + (VfsManager.dotEntry [0x2E] cluster).toBytes.length ≤ fs.clusterZeros.length := by
    rw [long, Fat32Fs.clusterZeros, length_zeros, entrySize]
    omega
  have first := length_splice room
  have roomParent : entrySize + (VfsManager.dotEntry [0x2E, 0x2E] parent).toBytes.length ≤
      (splice fs.clusterZeros 0 (VfsManager.dotEntry [0x2E] cluster).toBytes).length := by
    rw [longParent, first, Fat32Fs.clusterZeros, length_zeros, entrySize]
    omega
  simp only [Volume.dots, slotAt]
  rcases index with _ | _ | later
  · rw [Fat32DirEntry.readAt_splice_apart roomParent (by rw [entrySize]; omega)]
    rw [Nat.zero_mul, Fat32DirEntry.readAt_splice_same _ (by rw [← long]; exact room)]
    rfl
  · rw [Nat.zero_add, Nat.one_mul,
      Fat32DirEntry.readAt_splice_same _ (by rw [← longParent]; exact roomParent)]
    rfl
  · rw [Fat32DirEntry.readAt_splice_apart roomParent (by rw [longParent, entrySize]; omega)]
    rw [Fat32DirEntry.readAt_splice_apart room (by rw [long, entrySize]; omega),
      if_neg (by omega), if_neg (by omega)]
    exact slotAt_zeros _ (later + 2)

theorem dots_empty {fs : Fat32Fs} (geometry : fs.Geometry) (cluster parent : Nat) {index : Nat}
    (inside : fs.InCluster index) :
    ¬Occupied (slotAt (Volume.dots fs cluster parent) index) := by
  rw [dots_slot geometry cluster parent inside]
  split
  · exact fun occupied => occupied.2.2.2.2 ⟨rfl, dotEntry_isDirectory _ _, .inl rfl⟩
  split
  · exact fun occupied => occupied.2.2.2.2 ⟨rfl, dotEntry_isDirectory _ _, .inr rfl⟩
  · exact not_occupied_zeroed

namespace Volume

variable {fs : Fat32Fs} {volume volume' : Volume}

/-- Data placed in clusters that were free, linked into a chain of their own. -/
structure Placed (fs : Fat32Fs) (volume volume' : Volume) (start : Nat) (clusters : List Nat) :
    Prop where
  chain : volume'.Chain fs start clusters
  present : 2 ≤ start
  unused : ∀ cluster ∈ clusters, volume.fat cluster = 0
  kept : ∀ cluster, volume.fat cluster ≠ 0 → volume.Kept volume' cluster

theorem store_placed {clusters : List Nat} {start : Nat} (head : clusters.head? = some start)
    (distinct : clusters.Nodup) (valid : ∀ cluster ∈ clusters, fs.Valid cluster)
    (free : ∀ cluster ∈ clusters, volume.fat cluster = 0) (data : List UInt8) :
    volume.Placed fs (volume.store fs clusters [] data) start clusters := by
  have present := (valid start (List.mem_of_mem_head? head)).1
  refine ⟨⟨fun absent => by omega, fun _ => head, valid, distinct, ?_⟩, present, free, ?_⟩
  · rw [store, List.append_nil]
    refine (thread_linked id fat32Eoc distinct volume.fat).imp fun value last => ?_
    simp only [EndOfChain, last, le_refl]
  · intro cluster used
    have apart : cluster ∉ clusters ++ [] := by
      rw [List.append_nil]
      exact fun member => used (free cluster member)
    exact ⟨store_fat_other apart, store_data_other apart⟩

theorem place_placed {data : List UInt8} {start : Nat}
    (placed : volume.place fs data = (some start, volume')) :
    ∃ clusters, volume.Placed fs volume' start clusters := by
  have kept : ∀ cluster, volume.fat cluster ≠ 0 → volume.Kept volume' cluster := by
    intro cluster used
    have placedKept := place_kept fs volume data used
    rw [placed] at placedKept
    exact placedKept
  rcases place_cases fs volume data with ⟨_, outcome⟩ | ⟨_, _, _, _, outcome⟩ |
    ⟨cluster, tail, found, extension, outcome⟩
  · rw [outcome] at placed
    cases placed
  · rw [outcome] at placed
    cases placed
  · rw [outcome, Prod.mk.injEq, Option.some.injEq] at placed
    obtain ⟨rfl, rfl⟩ := placed
    obtain ⟨valid, free⟩ := firstFree_some found
    refine ⟨[cluster] ++ tail, ?_, valid.1, fun other member => ?_, kept⟩
    · exact store_chain (reserve_chain valid) valid.1 extension
    · rcases List.mem_append.mp member with own | later
      · exact List.mem_singleton.mp own ▸ free
      · exact (extension.free later).2.2

theorem place_shaped (shaped : volume.Shaped fs) (data : List UInt8) :
    (volume.place fs data).2.Shaped fs := by
  rcases place_cases fs volume data with ⟨_, placed⟩ | ⟨cluster, _, _, _, placed⟩ |
    ⟨cluster, tail, _, _, placed⟩
  · rw [placed]
    exact shaped
  · rw [placed]
    exact reserve_shaped shaped cluster
  · rw [placed]
    exact store_shaped (reserve_shaped shaped cluster)

theorem place_preserves (fs : Fat32Fs) (volume : Volume) (data : List UInt8) :
    volume.Preserves fs (volume.place fs data).2 :=
  Preserves.of_agree fun _ claimed => place_kept fs volume data claimed.not_free

theorem marked_preserves {cluster : Nat} (free : volume.fat cluster = 0) (bytes : List UInt8) :
    volume.Preserves fs ((volume.setData cluster bytes).setFat cluster fat32Eoc) := by
  refine Preserves.of_agree fun other claimed => marked_kept ?_ bytes
  rintro rfl
  exact claimed.not_free free

def extendDir (fs : Fat32Fs) (volume : Volume) (last cluster : Nat) : Volume where
  fat := Function.update (Function.update volume.fat last cluster) cluster fat32Eoc
  data := Function.update volume.data cluster fs.clusterZeros

theorem growDir_eq (fs : Fat32Fs) (volume : Volume) (last cluster : Nat) (entry : Fat32DirEntry) :
    volume.growDir fs last cluster entry =
      (volume.extendDir fs last cluster).setEntry (cluster, 0) entry := by
  simp only [growDir, extendDir, setEntry, setData, Function.update_self, Function.update_idem,
    Nat.zero_mul]

theorem extendDir_kept {last cluster other : Nat} (notLast : other ≠ last)
    (notNew : other ≠ cluster) : volume.Kept (volume.extendDir fs last cluster) other := by
  constructor
  · simp only [extendDir, Function.update_of_ne notNew, Function.update_of_ne notLast]
  · simp only [extendDir, Function.update_of_ne notNew]

theorem extendDir_entry_old {last cluster : Nat} {position : Position}
    (old : position.1 ≠ cluster) :
    (volume.extendDir fs last cluster).entry position = volume.entry position := by
  simp only [entry, extendDir, Function.update_of_ne old]

theorem extendDir_entry_new {last cluster : Nat} {position : Position}
    (new : position.1 = cluster) :
    (volume.extendDir fs last cluster).entry position = Fat32DirEntry.zeroed := by
  simp only [entry, extendDir, new, Function.update_self, Fat32Fs.clusterZeros, slotAt_zeros]

theorem extendDir_chain {dir : Nat} {clusters : List Nat} (chain : volume.Chain fs dir clusters)
    {last cluster : Nat} (ended : (Fat32Fs.visible clusters).getLast? = some last)
    (found : volume.firstFree fs = some cluster) :
    (volume.extendDir fs last cluster).Chain fs dir (Fat32Fs.visible clusters ++ [cluster]) := by
  obtain ⟨valid, free⟩ := firstFree_some found
  obtain ⟨front, shown⟩ : ∃ front, Fat32Fs.visible clusters = front ++ [last] := by
    obtain ⟨front, same⟩ := List.getLast?_eq_some_iff.mp ended
    exact ⟨front, same⟩
  have split : clusters = front ++ last :: clusters.drop (Fat32Fs.maxChain + 1) := by
    conv_lhs => rw [← List.take_append_drop (Fat32Fs.maxChain + 1) clusters]
    rw [show clusters.take (Fat32Fs.maxChain + 1) = front ++ [last] from shown,
      List.append_assoc, List.singleton_append]
  have fresh : cluster ∉ Fat32Fs.visible clusters := fun member =>
    chain.not_free (Chain.mem_visible member) free
  have distinct := chain.visible_distinct
  refine ⟨fun absent => ?_, fun present => ?_, fun other member => ?_, ?_, ?_⟩
  · rw [chain.none absent] at ended
    cases ended
  · have head := chain.head present
    rw [shown]
    rw [split] at head
    cases front with
    | nil => exact head
    | cons first rest => exact head
  · rcases List.mem_append.mp member with old | new
    · exact chain.visible_valid other old
    · exact List.mem_singleton.mp new ▸ valid
  · rw [List.nodup_append]
    refine ⟨distinct, List.nodup_singleton _, ?_⟩
    rintro other member new memberNew rfl
    exact fresh (List.mem_singleton.mp memberNew ▸ member)
  · have linked := chain.linked
    rw [split] at linked
    rw [shown] at distinct fresh
    rw [shown, List.append_assoc]
    exact linked_redirect linked distinct fresh (Nat.le_refl fat32Eoc)

theorem extendDir_rechain {owner : Owner} (live : volume.Live fs owner)
    (directory : volume.directory owner = true) (sound : volume.Sound fs) {clusters : List Nat}
    (owned : volume.Owns fs owner clusters) {last cluster : Nat}
    (ended : (Fat32Fs.visible clusters).getLast? = some last)
    (found : volume.firstFree fs = some cluster) :
    volume.Rechain fs (volume.extendDir fs last cluster) owner clusters
      (Fat32Fs.visible clusters ++ [cluster]) := by
  obtain ⟨valid, free⟩ := firstFree_some found
  have notNew : ∀ {other}, volume.Claimed fs other → other ≠ cluster := by
    rintro other claimed rfl
    exact claimed.not_free free
  have entries : ∀ {position : Position}, volume.Claimed fs position.1 →
      (volume.extendDir fs last cluster).entry position = volume.entry position :=
    fun claimed => extendDir_entry_old (notNew claimed)
  have start_eq : (volume.extendDir fs last cluster).start fs owner = volume.start fs owner := by
    cases owner with
    | root => rfl
    | slot position => rw [start, start, entries live.claimed.1]
  have kind : (volume.extendDir fs last cluster).directory owner = volume.directory owner := by
    cases owner with
    | root => rfl
    | slot position => rw [Volume.directory, Volume.directory, entries live.claimed.1]
  refine ⟨live, owned, ?_, kind, fun _ => ?_, fun other member => ?_, ?_, ?_, ?_⟩
  · rw [Owns, start_eq]
    exact extendDir_chain owned ended found
  · rw [start_eq]
    exact sound.directories owner live directory
  · rcases List.mem_append.mp member with old | new
    · exact .inl (Chain.mem_visible old)
    · rw [List.mem_singleton.mp new]
      exact .inr fun claimed => notNew claimed rfl
  · intro other claimed outside
    refine (extendDir_kept ?_ (notNew claimed)).1
    rintro rfl
    exact outside (Chain.mem_visible (List.mem_of_getLast? ended))
  · intro position claimed _ _ _
    rw [entries claimed]
    exact Similar.refl _
  · intro _ position member unclaimed
    obtain ⟨inside, _⟩ := Fat32Fs.mem_positions.mp member
    rcases List.mem_append.mp inside with old | new
    · exact absurd ⟨owner, clusters, live, owned, Chain.mem_visible old⟩ unclaimed
    · rw [extendDir_entry_new (List.mem_singleton.mp new)]
      exact not_occupied_zeroed

/-- An entry that may be recorded: it starts a chain nobody owns, and a directory is empty. -/
def Recordable (fs : Fat32Fs) (volume : Volume) (entry : Fat32DirEntry) : Prop :=
  Occupied entry → ∃ clusters, volume.Chain fs entry.firstCluster clusters ∧
    (entry.isDirectory = true → 2 ≤ entry.firstCluster ∧
      ∀ position ∈ fs.positions clusters, ¬Occupied (volume.entry position)) ∧
    ∀ cluster ∈ clusters, ¬volume.Claimed fs cluster

/-- A recordable entry written over a slot outside its own chain. -/
theorem setEntry_edit (shaped : volume.Shaped fs) {position : Position}
    (inside : fs.InCluster position.2) {entry : Fat32DirEntry}
    (recordable : Occupied entry → ∃ clusters, volume.Chain fs entry.firstCluster clusters ∧
      (entry.isDirectory = true → 2 ≤ entry.firstCluster ∧
        ∀ position ∈ fs.positions clusters, ¬Occupied (volume.entry position)) ∧
      (∀ cluster ∈ clusters, ¬volume.Claimed fs cluster) ∧ position.1 ∉ clusters) :
    volume.SlotEdit fs (volume.setEntry position entry) position := by
  refine ⟨rfl, fun other different => setEntry_entry_other shaped inside entry different, ?_⟩
  rw [setEntry_entry_same shaped inside entry]
  intro occupied
  obtain ⟨clusters, chain, empty, unclaimed, outside⟩ := recordable occupied
  refine ⟨clusters, chain, fun directory => ⟨(empty directory).1, fun other member => ?_⟩, ?_⟩
  · have different : other ≠ position := by
      rintro rfl
      exact outside (Fat32Fs.mem_positions.mp member).1
    rw [setEntry_entry_other shaped inside entry different]
    exact (empty directory).2 other member
  · intro owner others live _ owned cluster member memberOwn
    exact unclaimed cluster memberOwn ⟨owner, others, live, owned, member⟩

theorem extendDir_shaped (shaped : volume.Shaped fs) (last cluster : Nat) :
    (volume.extendDir fs last cluster).Shaped fs := by
  intro other
  by_cases new : other = cluster
  · simp only [extendDir, new, Function.update_self, Fat32Fs.clusterZeros, length_zeros]
  · simp only [extendDir, Function.update_of_ne new]
    exact shaped other

theorem Rechain.refl (sound : volume.Sound fs) {owner : Owner} (live : volume.Live fs owner)
    {clusters : List Nat} (owned : volume.Owns fs owner clusters) :
    volume.Rechain fs volume owner clusters clusters := by
  refine ⟨live, owned, owned, rfl, sound.directories owner live, fun _ member => .inl member,
    fun _ _ _ => rfl, fun _ _ _ _ _ => Similar.refl _, fun _ position member unclaimed => ?_⟩
  obtain ⟨inside, _⟩ := Fat32Fs.mem_positions.mp member
  exact absurd ⟨owner, clusters, live, owned, inside⟩ unclaimed

/-- An entry recorded in a slot of a directory, which has grown by an empty cluster first when it
was full. -/
structure Entered (fs : Fat32Fs) (volume middle volume' : Volume) (owner : Owner)
    (clusters clusters' : List Nat) (position : Position) (entry : Fat32DirEntry) : Prop where
  rechain : volume.Rechain fs middle owner clusters clusters'
  entries : ∀ other, volume.Claimed fs other.1 → middle.entry other = volume.entry other
  kept : ∀ cluster, volume.fat cluster ≠ 0 → ¬volume.Claimed fs cluster → volume.Kept middle cluster
  blank : ∀ other ∈ fs.positions clusters', ¬volume.Claimed fs other.1 →
    middle.entry other = Fat32DirEntry.zeroed
  within : position ∈ fs.positions clusters'
  edit : middle.SlotEdit fs volume' position
  holds : volume'.entry position = entry

section Entered

variable (geometry : fs.Geometry) (shaped : volume.Shaped fs) (sound : volume.Sound fs)
  {owner : Owner} (live : volume.Live fs owner) (directory : volume.directory owner = true)
  {clusters : List Nat} (owned : volume.Owns fs owner clusters) {entry : Fat32DirEntry}
  (recordable : volume.Recordable fs entry)

section Vacant

include shaped sound live owned recordable

theorem setEntry_entered {position : Position}
    (vacant : volume.scan judgeVacant (fs.slots clusters) = .taken position) :
    volume.Entered fs volume (volume.setEntry position entry) owner clusters clusters position
      entry := by
  obtain ⟨_, inside⟩ := Fat32Fs.taken_valid owned vacant
  have within : position ∈ fs.positions clusters := by
    obtain ⟨front, back, split, _, _⟩ := (scan_taken_iff _ _).mp vacant
    have member : position ∈ fs.slots clusters := by
      rw [split]
      simp
    exact slots_subset member
  have claimed : volume.Claimed fs position.1 :=
    ⟨owner, clusters, live, owned, (Fat32Fs.mem_positions.mp within).1⟩
  refine ⟨Rechain.refl sound live owned, fun _ _ => rfl, fun _ _ _ => ⟨rfl, rfl⟩,
    fun other member unclaimed => ?_, within, ?_, setEntry_entry_same shaped inside entry⟩
  · exact absurd ⟨owner, clusters, live, owned, (Fat32Fs.mem_positions.mp member).1⟩ unclaimed
  · refine setEntry_edit shaped inside fun occupied => ?_
    obtain ⟨own, ownChain, empty, unclaimed⟩ := recordable occupied
    exact ⟨own, ownChain, empty, unclaimed, fun member => unclaimed position.1 member claimed⟩

end Vacant

variable {last cluster : Nat} (ended : (Fat32Fs.visible clusters).getLast? = some last)
  (found : volume.firstFree fs = some cluster)

include live owned ended found in
theorem extendDir_kept_unclaimed : ∀ other, volume.fat other ≠ 0 → ¬volume.Claimed fs other →
    volume.Kept (volume.extendDir fs last cluster) other := by
  intro other used unclaimed
  refine extendDir_kept ?_ ?_
  · rintro rfl
    exact unclaimed ⟨owner, clusters, live, owned, Chain.mem_visible (List.mem_of_getLast? ended)⟩
  · rintro rfl
    exact used (firstFree_some found).2

include geometry sound live directory owned recordable ended found

/-- The empty cluster that a directory gets takes nothing from the entry. -/
theorem extendDir_recordable (occupied : Occupied entry) :
    ∃ own, (volume.extendDir fs last cluster).Chain fs entry.firstCluster own ∧
      (entry.isDirectory = true → 2 ≤ entry.firstCluster ∧ ∀ position ∈ fs.positions own,
        ¬Occupied ((volume.extendDir fs last cluster).entry position)) ∧
      (∀ other ∈ own, ¬(volume.extendDir fs last cluster).Claimed fs other) ∧ cluster ∉ own := by
  have rechain := extendDir_rechain live directory sound owned ended found
  have free := (firstFree_some found).2
  obtain ⟨own, ownChain, empty, unclaimed⟩ := recordable occupied
  have ownKept : ∀ other ∈ own, volume.Kept (volume.extendDir fs last cluster) other :=
    fun other member => extendDir_kept_unclaimed live owned ended found other
      (ownChain.not_free member) (unclaimed other member)
  refine ⟨own, ownChain.kept ownKept, fun isDirectory => ⟨(empty isDirectory).1, ?_⟩, ?_, ?_⟩
  · intro position member
    rw [(ownKept position.1 (Fat32Fs.mem_positions.mp member).1).entry]
    exact (empty isDirectory).2 position member
  · rintro other member ⟨holder, held, holderLive, holderOwns, memberHeld⟩
    have before := rechain.live_of sound geometry holderLive
    by_cases same : owner = holder
    · subst same
      rw [holderOwns.unique geometry rechain.after] at memberHeld
      rcases List.mem_append.mp memberHeld with old | new
      · exact unclaimed other member ⟨owner, clusters, live, owned, Chain.mem_visible old⟩
      · exact ownChain.not_free member (List.mem_singleton.mp new ▸ free)
    · rw [rechain.owns_iff sound geometry before same] at holderOwns
      exact unclaimed other member ⟨holder, held, before, holderOwns, memberHeld⟩
  · exact fun member => ownChain.not_free member free

include shaped

theorem growDir_entered : volume.Entered fs (volume.extendDir fs last cluster)
    (volume.growDir fs last cluster entry) owner clusters (Fat32Fs.visible clusters ++ [cluster])
    (cluster, 0) entry := by
  have free := (firstFree_some found).2
  have atStart : fs.InCluster (cluster, 0).2 := geometry.firstSlot
  have extended := extendDir_shaped shaped last cluster
  rw [growDir_eq]
  refine ⟨extendDir_rechain live directory sound owned ended found, ?_,
    extendDir_kept_unclaimed live owned ended found, ?_, ?_, setEntry_edit extended atStart
      (extendDir_recordable geometry sound live directory owned recordable ended found),
    setEntry_entry_same extended atStart entry⟩
  · intro other claimed
    have notNew : other.1 ≠ cluster := by
      rintro same
      exact claimed.not_free (same ▸ free)
    exact extendDir_entry_old notNew
  · intro other member unclaimed
    obtain ⟨inside, _⟩ := Fat32Fs.mem_positions.mp member
    rcases List.mem_append.mp inside with old | new
    · exact absurd ⟨owner, clusters, live, owned, Chain.mem_visible old⟩ unclaimed
    · exact extendDir_entry_new (List.mem_singleton.mp new)
  · exact Fat32Fs.mem_positions.mpr
      ⟨List.mem_append_right _ (List.mem_singleton_self cluster), atStart⟩

omit ended found

theorem putEntry_entered :
    (volume.putEntry fs (volume.start fs owner) entry).2 = volume ∨
      ∃ middle clusters' position, volume.Entered fs middle
        (volume.putEntry fs (volume.start fs owner) entry).2 owner clusters clusters' position
        entry := by
  have present := sound.directories owner live directory
  rcases putEntry_cases geometry owned present entry with ⟨position, vacant, put⟩ |
    ⟨_, _, put⟩ | ⟨_, last, cluster, ended, found, put⟩
  · rw [put]
    exact .inr ⟨volume, clusters, position,
      setEntry_entered shaped sound live owned recordable vacant⟩
  · rw [put]
    exact .inl rfl
  · -- the directory grows by an empty cluster first, then the entry is written there
    rw [put]
    exact .inr ⟨_, _, _,
      growDir_entered geometry shaped sound live directory owned recordable ended found⟩

end Entered

theorem putEntry_sound (geometry : fs.Geometry) (shaped : volume.Shaped fs)
    (sound : volume.Sound fs) {dir : Nat} (live : volume.LiveDir fs dir) {entry : Fat32DirEntry}
    (recordable : volume.Recordable fs entry) : (volume.putEntry fs dir entry).2.Sound fs := by
  obtain ⟨_, clusters, chain⟩ := live.chain sound
  obtain ⟨owner, ownerLive, directory, rfl⟩ := live
  rcases putEntry_entered geometry shaped sound ownerLive directory chain recordable with
    unchanged | ⟨middle, clusters', position, entered⟩
  · rw [unchanged]
    exact sound
  · exact entered.edit.sound geometry (entered.rechain.sound_after sound geometry)

theorem enter_ok {dir : Nat} {entry : Fat32DirEntry}
    (entered : (volume.enter fs dir entry).1 = .ok ()) :
    (volume.putEntry fs dir entry).1 = true := by
  rw [enter] at entered
  cases put : volume.putEntry fs dir entry with
  | mk done volume' =>
      rw [put] at entered
      cases done with
      | true => rfl
      | false => cases entered

theorem enter_snd (fs : Fat32Fs) (volume : Volume) (dir : Nat) (entry : Fat32DirEntry) :
    (volume.enter fs dir entry).2 = (volume.putEntry fs dir entry).2 := by
  rw [enter]
  cases put : volume.putEntry fs dir entry with
  | mk done volume' => cases done <;> rfl

theorem Placed.valid {start : Nat} {clusters : List Nat}
    (placed : volume.Placed fs volume' start clusters) : fs.Valid start :=
  placed.chain.valid start (placed.chain.mem_start placed.present)

theorem Placed.recordable (geometry : fs.Geometry) (sound : volume.Sound fs) {start : Nat}
    {clusters : List Nat} (placed : volume.Placed fs volume' start clusters) (nameUpper : Path)
    (size : Nat) : volume'.Recordable fs (VfsManager.newEntry nameUpper 0x20 start size) := by
  intro _
  have preserves : volume.Preserves fs volume' :=
    Preserves.of_agree fun _ claimed => placed.kept _ claimed.not_free
  rw [newEntry_firstCluster nameUpper 0x20 (geometry.valid_u32 placed.valid)]
  refine ⟨clusters, placed.chain, fun directory => ?_, fun cluster member claimed => ?_⟩
  · rw [newEntry_regular] at directory
    cases directory
  · rw [preserves.claimed_iff geometry sound] at claimed
    exact claimed.not_free (placed.unused cluster member)

theorem place_enter_sound (geometry : fs.Geometry) (shaped : volume.Shaped fs)
    (sound : volume.Sound fs) {dir : Nat} (live : volume.LiveDir fs dir) {data : List UInt8}
    {start : Nat} (outcome : volume.place fs data = (some start, volume')) (nameUpper : Path)
    (size : Nat) :
    (volume'.enter fs dir (VfsManager.newEntry nameUpper 0x20 start size)).2.Sound fs := by
  have preserves := place_preserves fs volume data
  have shaped' := place_shaped shaped data
  rw [outcome] at preserves shaped'
  obtain ⟨clusters, placed⟩ := place_placed outcome
  rw [enter_snd]
  exact putEntry_sound geometry shaped' (preserves.sound geometry sound)
    (live.preserved preserves geometry sound) (placed.recordable geometry sound nameUpper size)

theorem dots_recordable (geometry : fs.Geometry) (sound : volume.Sound fs) {cluster : Nat}
    (found : volume.firstFree fs = some cluster) (parent : Nat) (nameUpper : Path) :
    ((volume.setData cluster (dots fs cluster parent)).setFat cluster fat32Eoc).Recordable fs
      (VfsManager.newEntry nameUpper 0x10 cluster 0) := by
  intro _
  obtain ⟨valid, free⟩ := firstFree_some found
  rw [newEntry_firstCluster _ _ (geometry.valid_u32 valid)]
  refine ⟨[cluster], marked_chain valid _, fun _ => ⟨valid.1, ?_⟩, ?_⟩
  · intro position member
    obtain ⟨inside, bound⟩ := Fat32Fs.mem_positions.mp member
    rw [entry, List.mem_singleton.mp inside, setFat_data, setData_data_same]
    exact dots_empty geometry cluster parent bound
  · intro other member claimed
    rw [(marked_preserves free _).claimed_iff geometry sound] at claimed
    exact claimed.not_free (List.mem_singleton.mp member ▸ free)

theorem mkdir_sound (geometry : fs.Geometry) (shaped : volume.Shaped fs) (sound : volume.Sound fs)
    {path : Path} (proper : volume.ProperPath fs path) : (volume.mkdir fs path).2.Sound fs := by
  simp only [mkdir]
  cases parent : volume.parentOf fs path with
  | error reason => exact sound
  | ok dir =>
      simp only
      split
      · exact sound
      cases volume.findIn fs dir path with
      | some position => exact sound
      | none =>
          cases found : volume.firstFree fs with
          | none => exact sound
          | some cluster =>
              have live := Mounted.parent_live geometry sound proper parent
              have preserves : volume.Preserves fs _ :=
                marked_preserves (firstFree_some found).2 (dots fs cluster dir)
              have shaped' := (shaped.setData cluster
                (Mounted.length_dots geometry cluster dir)).setFat cluster fat32Eoc
              simp only [enter_snd]
              exact putEntry_sound geometry shaped' (preserves.sound geometry sound)
                (live.preserved preserves geometry sound)
                (dots_recordable geometry sound found dir _)

theorem free_shaped (shaped : volume.Shaped fs) (start : Nat) : (volume.free start).Shaped fs := by
  intro cluster
  rw [free, release]
  exact shaped cluster

theorem free_entry (volume : Volume) (start : Nat) (position : Position) :
    (volume.free start).entry position = volume.entry position := by
  simp only [entry, free, release]

theorem free_fat {start : Nat} {clusters : List Nat} (geometry : fs.Geometry)
    (chain : volume.Chain fs start clusters) (cluster : Nat) :
    (volume.free start).fat cluster =
      if cluster ∈ Fat32Fs.visible clusters then 0 else volume.fat cluster := by
  rw [free, geometry.chainOf_eq chain]
  rfl

theorem firstFree_enough {cluster : Nat} (found : volume.firstFree fs = some cluster) :
    2 ≤ fs.bpb.totalClusters := by
  rw [firstFree] at found
  split at found
  · cases found
  · omega

theorem free_not_full (geometry : fs.Geometry) (sound : volume.Sound fs) {position : Position}
    (live : volume.Live fs (.slot position)) (present : 2 ≤ (volume.entry position).firstCluster) :
    (volume.free (volume.entry position).firstCluster).firstFree fs ≠ none := by
  intro full
  obtain ⟨clusters, owned⟩ := sound.owns _ live
  obtain ⟨rootClusters, rootOwned⟩ := sound.owns _ .root
  have chain : volume.Chain fs (volume.entry position).firstCluster clusters := owned
  have rootPresent := sound.directories .root .root rfl
  have own := chain.mem_start present
  have rootOwn := rootOwned.mem_start rootPresent
  have apart := sound.apart (.slot position) .root live .root nofun clusters rootClusters owned
    rootOwned own
  have valid := chain.valid _ own
  have rootValid := rootOwned.valid _ rootOwn
  have different : (volume.entry position).firstCluster ≠ volume.start fs .root := by
    intro same
    rw [← same] at rootOwn
    exact apart rootOwn
  have enough : 2 ≤ fs.bpb.totalClusters := by
    have := valid.1
    have := valid.2
    have := rootValid.1
    have := rootValid.2
    omega
  refine firstFree_none full enough valid ?_
  rw [free_fat geometry chain, if_pos (chain.shown_start present)]

theorem freed_short (geometry : fs.Geometry) {start : Nat} {clusters : List Nat}
    (chain : volume.Chain fs start clusters) (present : 2 ≤ start) {cluster : Nat}
    (found : (volume.free start).firstFree fs = some cluster)
    (full : ((volume.free start).reserve fs cluster).firstFree fs = none) :
    clusters = [cluster] ∧ start = cluster := by
  have only : ∀ other ∈ Fat32Fs.visible clusters, other = cluster := by
    intro other member
    by_contra apart
    refine firstFree_none full (firstFree_enough found) (chain.visible_valid other member) ?_
    rw [(reserve_kept apart).1, free_fat geometry chain, if_pos member]
  have head := chain.head present
  cases clusters with
  | nil => cases head
  | cons first rest =>
      obtain rfl : first = start := Option.some.inj head
      have same : first = cluster :=
        only _ (by rw [Fat32Fs.visible, List.take_succ_cons]; exact List.mem_cons_self)
      refine ⟨?_, same⟩
      cases rest with
      | nil => rw [same]
      | cons second others =>
          have again : second = cluster := by
            apply only
            rw [Fat32Fs.visible, List.take_succ_cons, Fat32Fs.maxChain, List.take_succ_cons]
            exact List.mem_cons_of_mem _ List.mem_cons_self
          have distinct := chain.distinct
          rw [again, same] at distinct
          simp at distinct

theorem relinked_firstCluster (entry : Fat32DirEntry) {cluster : Nat} (bound : cluster < 2 ^ 32)
    (size : Nat) : (relinked entry cluster size).firstCluster = cluster :=
  firstCluster_setFirstCluster entry bound

theorem relinked_isDirectory (entry : Fat32DirEntry) (cluster size : Nat) :
    (relinked entry cluster size).isDirectory = entry.isDirectory := rfl

theorem overwrite_kept (geometry : fs.Geometry) {start : Nat} {clusters : List Nat}
    (chain : volume.Chain fs start clusters) (data : List UInt8) {cluster : Nat}
    (used : volume.fat cluster ≠ 0) (outside : cluster ∉ clusters) :
    volume.Kept ((volume.free start).place fs data).2 cluster := by
  have freeKept : volume.Kept (volume.free start) cluster := by
    rw [free, geometry.chainOf_eq chain]
    exact release_kept fun member => outside (Chain.mem_visible member)
  refine freeKept.trans (place_kept fs _ data ?_)
  rw [freeKept.1]
  exact used

/-- A regular file whose clusters were freed and whose slot names the chain placed instead. -/
theorem overwrite_rechain (geometry : fs.Geometry) (shaped : volume.Shaped fs)
    {position : Position} (live : volume.Live fs (.slot position))
    (regular : (volume.entry position).isDirectory = false) {clusters : List Nat}
    (owned : volume.Owns fs (.slot position) clusters) {data : List UInt8} {start : Nat}
    (outcome : (volume.free (volume.entry position).firstCluster).place fs data =
      (some start, volume')) (size : Nat) :
    ∃ clusters', volume.Rechain fs
      (volume'.setEntry position (relinked (volume.entry position) start size)) (.slot position)
      clusters clusters' := by
  have chain : volume.Chain fs (volume.entry position).firstCluster clusters := owned
  obtain ⟨clusters', placed⟩ := place_placed outcome
  have shaped' : volume'.Shaped fs := by
    have placedShaped := place_shaped
      (free_shaped shaped (volume.entry position).firstCluster) data
    rw [outcome] at placedShaped
    exact placedShaped
  obtain ⟨slotClaimed, inside⟩ := live.claimed
  have kept : ∀ {cluster}, volume.Claimed fs cluster → cluster ∉ clusters →
      volume.Kept volume' cluster := by
    intro cluster claimed outside
    have same := overwrite_kept geometry chain data claimed.not_free outside
    rw [outcome] at same
    exact same
  have linkedStart : ((volume'.setEntry position
      (relinked (volume.entry position) start size)).entry position).firstCluster = start := by
    rw [setEntry_entry_same shaped' inside]
    exact relinked_firstCluster _ (geometry.valid_u32 placed.valid) size
  refine ⟨clusters', live, owned, ?_, ?_, fun directory => ?_, fun cluster member => ?_, ?_, ?_, ?_⟩
  · rw [Owns, Volume.start, linkedStart]
    exact placed.chain.congr fun _ _ => rfl
  · rw [directory, directory, setEntry_entry_same shaped' inside, relinked_isDirectory]
  · rw [Volume.directory, regular] at directory
    cases directory
  · have unused := placed.unused cluster member
    rw [free_fat geometry chain] at unused
    split at unused
    · rename_i shown
      exact .inl (Chain.mem_visible shown)
    · exact .inr fun claimed => claimed.not_free unused
  · exact fun cluster claimed outside => (kept claimed outside).1
  · intro other claimed _ apart outside
    have different : other ≠ position := fun same => apart (congrArg Owner.slot same.symm)
    rw [setEntry_entry_other shaped' inside _ different]
    rcases outside with outside | directory
    · rw [(kept claimed outside).entry]
      exact Similar.refl _
    · rw [Volume.directory, regular] at directory
      cases directory
  · intro directory
    rw [Volume.directory, regular] at directory
    cases directory

theorem overwrite_short_rechain (geometry : fs.Geometry) (sound : volume.Sound fs)
    {position : Position} (live : volume.Live fs (.slot position))
    (regular : (volume.entry position).isDirectory = false) {clusters : List Nat}
    (owned : volume.Owns fs (.slot position) clusters) (data : List UInt8)
    (full : ((volume.free (volume.entry position).firstCluster).place fs data).1 = none) :
    clusters = [] ∨ volume.Rechain fs
      ((volume.free (volume.entry position).firstCluster).place fs data).2 (.slot position)
      clusters clusters := by
  have chain : volume.Chain fs (volume.entry position).firstCluster clusters := owned
  by_cases absent : (volume.entry position).firstCluster < 2
  · exact .inl (chain.none absent)
  have present : 2 ≤ (volume.entry position).firstCluster := by omega
  have kept : ∀ {cluster}, volume.Claimed fs cluster → cluster ∉ clusters → volume.Kept
      ((volume.free (volume.entry position).firstCluster).place fs data).2 cluster :=
    fun claimed outside => overwrite_kept geometry chain data claimed.not_free outside
  have slotKept := (kept live.claimed.1 (live.outside sound live regular owned)).entry
  rcases place_cases fs (volume.free (volume.entry position).firstCluster) data with
    ⟨none, _⟩ | ⟨cluster, found, _, short, outcome⟩ | ⟨cluster, _, _, _, outcome⟩
  · exact absurd none (free_not_full geometry sound live present)
  · obtain ⟨rfl, same⟩ := freed_short geometry chain present found short
    refine .inr ⟨live, owned, ?_, ?_, fun directory => ?_, fun _ member => .inl member,
      fun _ claimed outside => (kept claimed outside).1, ?_, ?_⟩
    · rw [Owns, start, slotKept, outcome, same]
      exact reserve_chain (chain.valid cluster List.mem_cons_self)
    · rw [directory, directory, slotKept]
    · rw [Volume.directory, regular] at directory
      cases directory
    · intro other claimed _ _ apart
      rcases apart with apart | directory
      · rw [(kept claimed apart).entry]
        exact Similar.refl _
      · rw [Volume.directory, regular] at directory
        cases directory
    · intro directory
      rw [Volume.directory, regular] at directory
      cases directory
  · rw [outcome] at full
    cases full

theorem overwrite_short_sound (geometry : fs.Geometry) (sound : volume.Sound fs)
    {position : Position} (live : volume.Live fs (.slot position))
    (regular : (volume.entry position).isDirectory = false) {clusters : List Nat}
    (owned : volume.Owns fs (.slot position) clusters) (data : List UInt8)
    (full : ((volume.free (volume.entry position).firstCluster).place fs data).1 = none) :
    ((volume.free (volume.entry position).firstCluster).place fs data).2.Sound fs := by
  have chain : volume.Chain fs (volume.entry position).firstCluster clusters := owned
  rcases overwrite_short_rechain geometry sound live regular owned data full with rfl | rechain
  · exact (Preserves.of_agree fun _ claimed =>
      overwrite_kept geometry chain data claimed.not_free nofun).sound geometry sound
  · exact rechain.sound_after sound geometry

theorem createFile_sound (geometry : fs.Geometry) (shaped : volume.Shaped fs)
    (sound : volume.Sound fs) {path : Path} (proper : volume.ProperPath fs path)
    (data : List UInt8) : (volume.createFile fs path data).2.Sound fs := by
  simp only [createFile]
  cases parent : volume.parentOf fs path with
  | error reason => exact sound
  | ok dir =>
      have live := Mounted.parent_live geometry sound proper parent
      simp only
      split
      · exact sound
      cases found : volume.findIn fs dir path with
      | none =>
          simp only
          have preserves := place_preserves fs volume data
          cases outcome : volume.place fs data with
          | mk answer volume' =>
              rw [outcome] at preserves
              cases answer with
              | none => exact preserves.sound geometry sound
              | some start => exact place_enter_sound geometry shaped sound live outcome _ _
      | some position =>
          simp only
          cases regular : (volume.entry position).isDirectory with
          | true => exact sound
          | false =>
              simp only [Bool.false_eq_true, if_false]
              have slot := live.found geometry sound found (not_dot_of_regular regular)
              obtain ⟨clusters, owned⟩ := sound.owns _ slot
              cases outcome : (volume.free (volume.entry position).firstCluster).place fs data with
              | mk answer volume' =>
                  cases answer with
                  | none =>
                      have short := overwrite_short_sound geometry sound slot regular owned data
                      rw [outcome] at short
                      exact short rfl
                  | some start =>
                      obtain ⟨clusters', rechain⟩ := overwrite_rechain geometry shaped slot regular
                        owned outcome data.length
                      exact rechain.sound_after sound geometry

theorem fresh_rule {holds : Volume → Prop} {dir : Nat} {nameUpper : Path} {α : Type}
    (opened : Nat → α) (full : ∀ volume', volume.place fs [] = (none, volume') → holds volume')
    (entered : ∀ cluster volume', volume.place fs [] = (some cluster, volume') →
      holds (volume'.enter fs dir (VfsManager.newEntry nameUpper 0x20 cluster 0)).2) :
    let effect : Except VfsError α × Volume :=
      match volume.place fs [] with
      | (none, volume') => (.error .noSpace, volume')
      | (some cluster, volume') =>
          match volume'.enter fs dir (VfsManager.newEntry nameUpper 0x20 cluster 0) with
          | (.error reason, volume'') => (.error reason, volume'')
          | (.ok _, volume'') => (.ok (opened cluster), volume'')
    holds effect.2 := by
  cases outcome : volume.place fs [] with
  | mk answer volume' =>
      cases answer with
      | none => exact full volume' outcome
      | some cluster =>
          have enters := entered cluster volume' outcome
          cases result : volume'.enter fs dir (VfsManager.newEntry nameUpper 0x20 cluster 0) with
          | mk answer volume'' =>
              rw [result] at enters
              simp only [result]
              cases answer with
              | error reason => exact enters
              | ok _ => exact enters

theorem fresh_sound (geometry : fs.Geometry) (shaped : volume.Shaped fs) (sound : volume.Sound fs)
    {dir : Nat} (live : volume.LiveDir fs dir) (nameUpper : Path) {α : Type} (opened : Nat → α) :
    let effect : Except VfsError α × Volume :=
      match volume.place fs [] with
      | (none, volume') => (.error .noSpace, volume')
      | (some cluster, volume') =>
          match volume'.enter fs dir (VfsManager.newEntry nameUpper 0x20 cluster 0) with
          | (.error reason, volume'') => (.error reason, volume'')
          | (.ok _, volume'') => (.ok (opened cluster), volume'')
    effect.2.Sound fs := by
  apply fresh_rule opened
  · intro volume' outcome
    have preserves := place_preserves fs volume []
    rw [outcome] at preserves
    exact preserves.sound geometry sound
  · intro cluster volume' outcome
    exact place_enter_sound geometry shaped sound live outcome nameUpper 0

theorem openFile_sound (geometry : fs.Geometry) (shaped : volume.Shaped fs)
    (sound : volume.Sound fs) {vfs : VfsManager} {path : Path}
    (proper : volume.ProperPath fs (vfs.canonicalize path)) (mode : FileMode) :
    (volume.openFile fs vfs path mode).2.Sound fs := by
  have existing : ∀ (entry : Fat32DirEntry) (refused : VfsError) (opened : Nat × VfsManager),
      (if entry.isDirectory then (.error refused, volume) else (.ok opened, volume) :
        Except VfsError (Nat × VfsManager) × Volume).2.Sound fs := by
    intro entry refused opened
    split <;> exact sound
  simp only [openFile]
  cases parent : volume.parentOf fs (vfs.canonicalize path) with
  | error reason => exact sound
  | ok dir =>
      have live := Mounted.parent_live geometry sound proper parent
      simp only
      split
      · split <;> exact sound
      cases found : volume.findIn fs dir (vfs.canonicalize path) with
      | none =>
          cases mode with
          | read => exact sound
          | write => exact sound
          | create => exact fresh_sound geometry shaped sound live _ _
          | createNew => exact fresh_sound geometry shaped sound live _ _
      | some position =>
          cases mode with
          | read => exact existing _ _ _
          | write => exact existing _ _ _
          | create => exact existing _ _ _
          | createNew => exact sound

theorem LiveDir.inside (geometry : fs.Geometry) (sound : volume.Sound fs) {dir : Nat}
    (live : volume.LiveDir fs dir) {position : Position}
    (member : position ∈ volume.slotsOf fs dir) : fs.InCluster position.2 := by
  obtain ⟨_, clusters, chain⟩ := live.chain sound
  rw [slotsOf_eq geometry chain] at member
  exact (Fat32Fs.mem_positions.mp (slots_subset member)).2

theorem erase_edit (shaped : volume.Shaped fs) {position : Position}
    (inside : fs.InCluster position.2) :
    volume.SlotEdit fs (volume.erase position) position := by
  refine ⟨rfl, fun other different => erase_entry_other shaped inside different, ?_⟩
  intro occupied
  have deleted := erase_deleted shaped inside
  rw [occupied.2.1] at deleted
  cases deleted

theorem erase_free_preserves (geometry : fs.Geometry) (shaped : volume.Shaped fs)
    (sound : volume.Sound fs) {position : Position} (inside : fs.InCluster position.2) {start : Nat}
    {clusters : List Nat} (chain : volume.Chain fs start clusters)
    (owned : clusters = [] ∨
      volume.Live fs (.slot position) ∧ volume.Owns fs (.slot position) clusters) :
    (volume.erase position).Preserves fs ((volume.erase position).free start) := by
  have edit := erase_edit shaped inside
  have chain' : (volume.erase position).Chain fs start clusters := edit.chain_iff.mpr chain
  refine Preserves.of_agree ?_
  rintro cluster ⟨owner, held, ownerLive, ownerOwns, member⟩
  rw [free, geometry.chainOf_eq chain']
  refine release_kept fun freed => ?_
  rcases edit.live geometry ownerLive with rfl | ⟨different, before⟩
  · have deleted := erase_deleted shaped inside
    rw [ownerLive.occupied.2.1] at deleted
    cases deleted
  · rw [edit.owns_iff different] at ownerOwns
    rcases owned with rfl | ⟨slot, slotOwns⟩
    · exact absurd (Chain.mem_visible freed) List.not_mem_nil
    · exact sound.apart owner _ before slot different held clusters ownerOwns slotOwns member
        (Chain.mem_visible freed)

theorem freed_owned (geometry : fs.Geometry) (sound : volume.Sound fs) {path : Path}
    (proper : volume.ProperPath fs path) (spares : volume.SparesDots fs path) {dir : Nat}
    (parent : volume.parentOf fs path = .ok dir) {position : Position}
    (found : volume.findIn fs dir path = some position) :
    ∃ clusters, volume.Chain fs (volume.entry position).firstCluster clusters ∧
      (clusters = [] ∨
        volume.Live fs (.slot position) ∧ volume.Owns fs (.slot position) clusters) := by
  obtain ⟨clusters, chain⟩ := Mounted.chain_of_spared geometry sound proper spares parent found
  refine ⟨clusters, chain, ?_⟩
  by_cases dot : IsDot (volume.entry position)
  · exact .inl (chain.none (spares dir position parent found dot))
  · have live := Mounted.parent_live geometry sound proper parent
    exact .inr ⟨live.found geometry sound found dot, chain⟩

/-- What `delete` frees had one owner, and that owner is gone. -/
theorem delete_sound (geometry : fs.Geometry) (shaped : volume.Shaped fs) (sound : volume.Sound fs)
    {path : Path} (proper : volume.ProperPath fs path) (spares : volume.SparesDots fs path) :
    (volume.delete fs path).2.Sound fs := by
  simp only [delete]
  cases parent : volume.parentOf fs path with
  | error reason => exact sound
  | ok dir =>
      have live := Mounted.parent_live geometry sound proper parent
      simp only
      split
      · exact sound
      cases found : volume.findIn fs dir path with
      | none => exact sound
      | some position =>
          have inside := live.inside geometry sound (find_spec found).1
          obtain ⟨clusters, chain, owned⟩ := freed_owned geometry sound proper spares parent found
          exact (erase_free_preserves geometry shaped sound inside chain owned).sound geometry
            ((erase_edit shaped inside).sound geometry sound)

theorem resized_preserves (shaped : volume.Shaped fs) {position : Position}
    (inside : fs.InCluster position.2) (size : Nat) :
    volume.Preserves fs (volume.setEntry position (resized (volume.entry position) size)) := by
  refine ⟨fun _ _ => rfl, fun other _ _ => ?_⟩
  by_cases same : other = position
  · rw [same, setEntry_entry_same shaped inside]
    exact ⟨occupied_congr rfl rfl rfl, rfl, rfl⟩
  · rw [setEntry_entry_other shaped inside _ same]
    exact Similar.refl _

theorem recordSize_preserves (geometry : fs.Geometry) (shaped : volume.Shaped fs)
    (sound : volume.Sound fs) {path : Path} {size : Nat}
    (recorded : size > 0 → volume.ProperPath fs path) :
    volume.Preserves fs (volume.recordSize fs path size).2 := by
  have same : volume.Preserves fs volume := ⟨fun _ _ => rfl, fun _ _ _ => Similar.refl _⟩
  simp only [recordSize, updateSize]
  split
  · rename_i some
    have proper := recorded some
    cases parent : volume.parentOf fs path with
    | error reason => exact same
    | ok dir =>
        have live := Mounted.parent_live geometry sound proper parent
        obtain ⟨_, clusters, chain⟩ := live.chain sound
        simp only
        split
        · exact same
        cases found : volume.findIn fs dir path with
        | none => exact same
        | some position =>
            have member := (find_spec found).1
            rw [slotsOf_eq geometry chain] at member
            exact resized_preserves shaped (Fat32Fs.mem_positions.mp (slots_subset member)).2 size
  · exact same

theorem rewrite_outcome (fs : Fat32Fs) (volume : Volume) (start : Nat) (data : List UInt8) :
    ((volume.chainOf start).length < fs.clustersNeeded data ∧ volume.firstFree fs = none ∧
      volume.rewrite fs start data = (false, volume)) ∨
    ∃ tail, volume.Extension fs (volume.chainOf start) data tail ∧
      volume.rewrite fs start data =
        (true, volume.store fs (volume.chainOf start) tail data) := by
  simp only [rewrite]
  by_cases enough : fs.clustersNeeded data ≤ (volume.chainOf start).length
  · rw [if_pos enough]
    exact .inr ⟨[], .inl ⟨enough, rfl⟩, rfl⟩
  · rw [if_neg enough]
    cases found : volume.firstFree fs with
    | none => exact .inl ⟨by omega, rfl, rfl⟩
    | some cluster => exact .inr ⟨[cluster], .inr ⟨by omega, cluster, found, rfl⟩, rfl⟩

theorem rewrite_cases (geometry : fs.Geometry) {start : Nat} {clusters : List Nat}
    (chain : volume.Chain fs start clusters) (data : List UInt8) :
    ((Fat32Fs.visible clusters).length < fs.clustersNeeded data ∧ volume.firstFree fs = none ∧
      volume.rewrite fs start data = (false, volume)) ∨
    ∃ tail, volume.Extension fs (Fat32Fs.visible clusters) data tail ∧
      volume.rewrite fs start data =
        (true, volume.store fs (Fat32Fs.visible clusters) tail data) := by
  rw [← geometry.chainOf_eq chain]
  exact rewrite_outcome fs volume start data

theorem rewrite_unread {start : Nat} (data : List UInt8) {cluster : Nat}
    (unread : cluster ∉ volume.chainOf start) (used : volume.fat cluster ≠ 0) :
    volume.Kept (volume.rewrite fs start data).2 cluster := by
  rcases rewrite_outcome fs volume start data with ⟨_, _, outcome⟩ | ⟨tail, extension, outcome⟩
  · rw [outcome]
    exact ⟨rfl, rfl⟩
  · rw [outcome]
    refine store_kept fun member => ?_
    rcases List.mem_append.mp member with old | new
    · exact unread old
    · exact used (extension.fresh new).2

theorem rewrite_shaped (shaped : volume.Shaped fs) (start : Nat) (data : List UInt8) :
    (volume.rewrite fs start data).2.Shaped fs := by
  rcases rewrite_outcome fs volume start data with ⟨_, _, outcome⟩ | ⟨tail, _, outcome⟩
  · rw [outcome]
    exact shaped
  · rw [outcome]
    exact store_shaped shaped

/-- A chain a write may go to: none at all, or that of a live regular file. -/
def Writable (fs : Fat32Fs) (volume : Volume) (start : Nat) : Prop :=
  start < 2 ∨ ∃ position, volume.Live fs (.slot position) ∧
    (volume.entry position).isDirectory = false ∧ (volume.entry position).firstCluster = start

theorem Writable.chain (sound : volume.Sound fs) {start : Nat}
    (writable : volume.Writable fs start) : ∃ clusters, volume.Chain fs start clusters := by
  rcases writable with absent | ⟨position, live, _, rfl⟩
  · exact ⟨[], chain_absent absent⟩
  · exact sound.owns _ live

theorem rewrite_kept (geometry : fs.Geometry) {start : Nat} {clusters : List Nat}
    (chain : volume.Chain fs start clusters) (data : List UInt8) {cluster : Nat}
    (outside : cluster ∉ clusters) (used : volume.fat cluster ≠ 0) :
    volume.Kept (volume.rewrite fs start data).2 cluster := by
  refine rewrite_unread data (fun member => ?_) used
  rw [geometry.chainOf_eq chain] at member
  exact outside (Chain.mem_visible member)

/-- A live regular file keeps its slot, and its chain grows by free clusters only. -/
theorem rewrite_rechain (sound : volume.Sound fs) {position : Position}
    (live : volume.Live fs (.slot position))
    (regular : (volume.entry position).isDirectory = false) {clusters : List Nat}
    (owned : volume.Owns fs (.slot position) clusters)
    (present : 2 ≤ (volume.entry position).firstCluster) {data : List UInt8} {tail : List Nat}
    (extension : volume.Extension fs (Fat32Fs.visible clusters) data tail) :
    volume.Rechain fs (volume.store fs (Fat32Fs.visible clusters) tail data) (.slot position)
      clusters (Fat32Fs.visible clusters ++ tail) := by
  have kept : ∀ {cluster}, volume.Claimed fs cluster → cluster ∉ clusters →
      volume.Kept (volume.store fs (Fat32Fs.visible clusters) tail data) cluster := by
    intro cluster claimed outside
    refine store_kept fun member => ?_
    rcases List.mem_append.mp member with old | new
    · exact outside (Chain.mem_visible old)
    · exact claimed.not_free (extension.fresh new).2
  have entryKept := (kept live.claimed.1 (live.outside sound live regular owned)).entry
  refine ⟨live, owned, ?_, ?_, fun directory => ?_, fun cluster member => ?_, ?_, ?_, ?_⟩
  · rw [Owns, start, entryKept]
    exact store_chain owned present extension
  · rw [directory, directory, entryKept]
  · rw [Volume.directory, regular] at directory
    cases directory
  · rcases List.mem_append.mp member with old | new
    · exact .inl (Chain.mem_visible old)
    · exact .inr fun claimed => claimed.not_free (extension.fresh new).2
  · exact fun cluster claimed outside => (kept claimed outside).1
  · intro other claimed _ _ outside
    rcases outside with outside | directory
    · rw [(kept claimed outside).entry]
      exact Similar.refl _
    · rw [Volume.directory, regular] at directory
      cases directory
  · intro directory
    rw [Volume.directory, regular] at directory
    cases directory

theorem rewrite_sound (geometry : fs.Geometry) (sound : volume.Sound fs) {start : Nat}
    (writable : volume.Writable fs start) (data : List UInt8) :
    (volume.rewrite fs start data).2.Sound fs := by
  obtain ⟨clusters, chain⟩ := writable.chain sound
  by_cases absent : start < 2
  · obtain rfl := chain.none absent
    exact (Preserves.of_agree fun cluster claimed =>
      rewrite_kept geometry chain data nofun claimed.not_free).sound geometry sound
  rcases writable with absent' | ⟨position, live, regular, rfl⟩
  · exact absurd absent' absent
  rcases rewrite_cases geometry chain data with ⟨_, _, outcome⟩ | ⟨tail, extension, outcome⟩
  · rw [outcome]
    exact sound
  · rw [outcome]
    exact (rewrite_rechain sound live regular chain (by omega) extension).sound_after sound
      geometry

end Volume

end ArcadiaOs.Fs
