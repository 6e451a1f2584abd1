import ArcadiaOs.Fs.DirectoryMap
import ArcadiaOs.Fs.FileAsDirectory
import ArcadiaOs.Fs.ShortName
import ArcadiaOs.Fs.UniqueNames

/-!
Well-formed volumes.  Every owner has a chain of its own, every directory is in order and
is read to its end, so what paths and lookups find is told by the live entries.
-/

namespace ArcadiaOs.Fs

open Lib

/-- The slots of a directory in order: zeroed behind an end marker, every name once, and all names
but the dots upper-case 8.3. -/
structure InOrder (slots : List Fat32DirEntry) : Prop where
  zeroTail : ZeroTail slots
  unique : UniqueKeys Fat32DirEntry.fullNameUpper (liveOf slots)
  plain : ∀ entry ∈ liveOf slots, ¬IsDot entry → entry.Plain

/-- Every owner has a chain of its own, and every directory is in order. -/
structure Orderly (fs : Fat32Fs) (volume : Volume) : Prop where
  sound : volume.Sound fs
  inOrder : ∀ dir clusters, volume.LiveDir fs dir → volume.Chain fs dir clusters →
    InOrder (volume.slotEntries fs clusters)

structure WellFormed (fs : Fat32Fs) (volume : Volume) : Prop extends Orderly fs volume where
  short : ∀ owner clusters, volume.Live fs owner → volume.Owns fs owner clusters →
    clusters.length ≤ Fat32Fs.maxChain

theorem InOrder.plainName {slots : List Fat32DirEntry} (order : InOrder slots) :
    ∀ entry ∈ shownEntries (liveOf slots), PlainName entry.fullNameUpper := by
  intro entry member
  obtain ⟨live, named⟩ := mem_shownEntries.mp member
  exact (order.plain entry live fun dot => named dot.2.2).plainName

theorem dotEntry_live (name : Path) (dot : name = [0x2E] ∨ name = [0x2E, 0x2E]) (cluster : Nat) :
    (VfsManager.dotEntry name cluster).isEnd = false ∧
      (VfsManager.dotEntry name cluster).isHidden = false ∧
      (VfsManager.dotEntry name cluster).fullNameUpper = name ∧
      IsDot (VfsManager.dotEntry name cluster) := by
  have attributes : (decide ((0x2E : UInt8) = 0xE5) || decide ((0x10 : UInt8) &&& 0x0F = 0x0F) ||
      decide ((0x10 : UInt8) &&& 0x08 ≠ 0)) = false := by decide
  rcases dot with rfl | rfl
  · exact ⟨rfl, attributes, rfl, rfl, dotEntry_isDirectory _ _, .inl rfl⟩
  · exact ⟨rfl, attributes, rfl, rfl, dotEntry_isDirectory _ _, .inr rfl⟩

theorem dotEntry_firstCluster (name : Path) {cluster : Nat} (bound : cluster < 2 ^ 32) :
    (VfsManager.dotEntry name cluster).firstCluster = cluster :=
  firstCluster_setFirstCluster Fat32DirEntry.zeroed bound

namespace Volume

variable {fs : Fat32Fs} {volume volume' : Volume}

def Records (fs : Fat32Fs) (volume : Volume) (dir : Nat) (entries : List Fat32DirEntry) : Prop :=
  ∃ clusters, volume.Chain fs dir clusters ∧ clusters.length ≤ Fat32Fs.maxChain + 1 ∧
    liveOf (volume.slotEntries fs clusters) = entries

section Records

variable (geometry : fs.Geometry) {dir : Nat} {entries : List Fat32DirEntry}
  (records : volume.Records fs dir entries)
include geometry records

theorem Records.slots : liveOf ((volume.slotsOf fs dir).map volume.entry) = entries := by
  obtain ⟨clusters, chain, short, live⟩ := records
  rw [slotsOf_eq geometry chain, Fat32Fs.slots, Fat32Fs.visible_short short]
  exact live

theorem Records.listing : volume.listing (volume.slotsOf fs dir) = shownOf entries := by
  rw [listing_live, records.slots geometry]

theorem Records.findIn (path : Path) : (volume.findIn fs dir path).map volume.entry =
    Lib.lookup Fat32DirEntry.fullNameUpper entries (toUpper83 (fileName path)) := by
  rw [Volume.findIn, find_live, records.slots geometry]

theorem Records.lookup
    (plain : ∀ entry ∈ shownEntries entries, PlainName entry.fullNameUpper) {component : Path}
    (named : ¬IsDotName component) : volume.lookup fs dir component =
      (Lib.lookup Fat32DirEntry.fullNameUpper entries (toUpper83 component)).map
        DirEntryInfo.ofEntry := by
  have upperNamed : ¬IsDotName (toUpper83 component) :=
    fun dot => named ((toUpper83_dots component).mp dot)
  rw [Volume.lookup, records.listing geometry, find_shownOf, lookup_plain plain upperNamed]

end Records

theorem walk_kept (geometry : fs.Geometry) (sound : volume.Sound fs)
    (kept : ∀ dir component info, volume.LiveDir fs dir → ¬IsDotName component →
      volume.lookup fs dir component = some info → volume'.lookup fs dir component = some info)
    {path : List Path} {current dir : Nat} (live : volume.LiveDir fs current)
    (proper : volume.throughDirs fs path current = true)
    (reached : volume.walk fs path current = .ok dir) :
    volume'.throughDirs fs path current = true ∧ volume'.walk fs path current = .ok dir := by
  induction path generalizing current with
  | nil => exact ⟨rfl, reached⟩
  | cons component rest ih =>
      simp only [walk, throughDirs] at proper reached ⊢
      by_cases stay : component = [] ∨ component = [0x2E]
      · simp only [if_pos stay] at proper reached ⊢
        exact ih live proper reached
      simp only [if_neg stay] at proper reached ⊢
      by_cases up : component = [0x2E, 0x2E]
      · simp only [if_pos up] at proper reached ⊢
        exact ih liveDir_root proper reached
      simp only [if_neg up] at proper reached ⊢
      have named : ¬IsDotName component := by
        rintro (one | two)
        · exact stay (.inr one)
        · exact up two
      cases found : volume.lookup fs current component with
      | none =>
          rw [found] at reached
          cases reached
      | some info =>
          rw [found] at reached proper
          rw [kept current component info live named found]
          simp only [Bool.and_eq_true] at proper ⊢
          obtain ⟨through, led⟩ := ih (live.down geometry sound found proper.1) proper.2 reached
          exact ⟨⟨proper.1, through⟩, led⟩

theorem slotEntries_kept {clusters : List Nat}
    (kept : ∀ cluster ∈ clusters, volume.Kept volume' cluster) :
    volume'.slotEntries fs clusters = volume.slotEntries fs clusters := by
  refine List.map_congr_left fun position member => ?_
  exact (kept position.1 (Fat32Fs.mem_positions.mp member).1).entry

theorem LiveDir.disjoint (sound : volume.Sound fs) {dir : Nat} (live : volume.LiveDir fs dir)
    {clusters : List Nat} (chain : volume.Chain fs dir clusters) {owner : Owner}
    (ownerLive : volume.Live fs owner) (elsewhere : volume.start fs owner ≠ dir)
    {held : List Nat} (owned : volume.Owns fs owner held) : held.Disjoint clusters := by
  obtain ⟨parent, parentLive, _, rfl⟩ := live
  have different : owner ≠ parent := by
    rintro rfl
    exact elsewhere rfl
  exact sound.apart owner parent ownerLive parentLive different held clusters owned chain

theorem dots_slots (geometry : fs.Geometry) {dir cluster : Nat}
    (dots : volume.data cluster = Volume.dots fs cluster dir) :
    volume.slotEntries fs [cluster] =
      VfsManager.dotEntry [0x2E] cluster :: VfsManager.dotEntry [0x2E, 0x2E] dir ::
        List.replicate (fs.entriesPerCluster - 2) Fat32DirEntry.zeroed := by
  have sectors := geometry.clusterSectors
  have room : fs.entriesPerCluster = fs.entriesPerCluster - 2 + 1 + 1 := by
    rw [Fat32Fs.entriesPerCluster, geometry.clusterSize, entrySize]
    omega
  have slot (index : Nat) (inside : index < fs.entriesPerCluster) :
      volume.entry (cluster, index) = if index = 0 then VfsManager.dotEntry [0x2E] cluster
        else if index = 1 then VfsManager.dotEntry [0x2E, 0x2E] dir else Fat32DirEntry.zeroed := by
    rw [entry, dots]
    exact dots_slot geometry cluster dir inside
  have split : fs.positions [cluster] = (cluster, 0) :: (cluster, 1) ::
      (List.range (fs.entriesPerCluster - 2)).map fun index => (cluster, index + 2) := by
    rw [Fat32Fs.positions, List.flatMap_singleton, Fat32Fs.slotIndices]
    conv_lhs => rw [room, List.range_succ_eq_map, List.range_succ_eq_map]
    simp only [List.map_cons, List.map_map]
    rfl
  rw [slotEntries, split, List.map_cons, List.map_cons, slot 0 (by omega), slot 1 (by omega)]
  congr 2
  refine List.eq_replicate_iff.mpr ⟨by simp only [List.length_map, List.length_range], ?_⟩
  intro entry member
  rw [List.map_map] at member
  obtain ⟨index, inside, rfl⟩ := List.mem_map.mp member
  rw [List.mem_range] at inside
  exact slot (index + 2) (by omega)

theorem dots_liveOf (geometry : fs.Geometry) {dir cluster : Nat}
    (dots : volume.data cluster = Volume.dots fs cluster dir) :
    liveOf (volume.slotEntries fs [cluster]) =
      [VfsManager.dotEntry [0x2E] cluster, VfsManager.dotEntry [0x2E, 0x2E] dir] := by
  obtain ⟨notEnd, shown, _⟩ := dotEntry_live [0x2E] (.inl rfl) cluster
  obtain ⟨notEndParent, shownParent, _⟩ := dotEntry_live [0x2E, 0x2E] (.inr rfl) dir
  rw [dots_slots geometry dots, liveOf_shown notEnd shown, liveOf_shown notEndParent shownParent,
    liveOf_zeros]

theorem dots_inOrder (geometry : fs.Geometry) {dir cluster : Nat}
    (dots : volume.data cluster = Volume.dots fs cluster dir) :
    InOrder (volume.slotEntries fs [cluster]) := by
  obtain ⟨notEnd, _, named, dot⟩ := dotEntry_live [0x2E] (.inl rfl) cluster
  obtain ⟨notEndParent, _, namedParent, dotParent⟩ := dotEntry_live [0x2E, 0x2E] (.inr rfl) dir
  refine ⟨?_, ?_, fun entry member plain => ?_⟩
  · have front : NoEnd [VfsManager.dotEntry [0x2E] cluster, VfsManager.dotEntry [0x2E, 0x2E] dir] := by
      intro slot member
      simp only [List.mem_cons, List.not_mem_nil, or_false] at member
      rcases member with rfl | rfl
      · exact notEnd
      · exact notEndParent
    rw [dots_slots geometry dots]
    exact front.zeroTail_append (zeroTail_zeros _)
  · rw [dots_liveOf geometry dots, UniqueKeys, List.map_cons, List.map_cons, named, namedParent]
    decide
  · rw [dots_liveOf geometry dots] at member
    simp only [List.mem_cons, List.not_mem_nil, or_false] at member
    rcases member with rfl | rfl
    · exact absurd dot plain
    · exact absurd dotParent plain

theorem records_of_formed (formed : WellFormed fs volume) {dir : Nat}
    (live : volume.LiveDir fs dir) : ∃ clusters, volume.Chain fs dir clusters ∧
      clusters.length ≤ Fat32Fs.maxChain ∧
      volume.Records fs dir (liveOf (volume.slotEntries fs clusters)) := by
  obtain ⟨_, clusters, chain⟩ := live.chain formed.sound
  obtain ⟨owner, ownerLive, _, rfl⟩ := live
  have short := formed.short owner clusters ownerLive chain
  exact ⟨clusters, chain, short, clusters, chain, Nat.le_succ_of_le short, rfl⟩

end Volume

def Leads (fs : Fat32Fs) (volume : Volume) (path : Path) (dir : Nat) : Prop :=
  volume.throughDirs fs (pathComponents path) fs.bpb.rootCluster.toNat = true ∧
    volume.walk fs (pathComponents path) fs.bpb.rootCluster.toNat = .ok dir

section Answers

variable {fs : Fat32Fs} (geometry : fs.Geometry) {vfs : VfsManager} (mounted : Mounted fs vfs)
  {device : Device} (healthy : device.Healthy) (sound : (fs.view device).Sound fs)
include geometry mounted healthy sound

theorem listDir_leads {path : Path} {dir : Nat} (leads : Leads fs (fs.view device) path dir) :
    (vfs.listDir path).answer device =
      .ok (((fs.view device).listing ((fs.view device).slotsOf fs dir)).map nodeOf) := by
  have live := Volume.walk_liveDir geometry sound Volume.liveDir_root leads.1 leads.2
  have followed := walk_followed geometry mounted healthy sound Volume.liveDir_root leads.1 leads.2
  have resolved : vfs.resolvePath path device = .ok dir device := by
    rw [mounted.resolvePath_eq, mounted.rootCluster]
    exact followed
  rw [Disk.answer, listDir_resolved geometry mounted healthy sound live resolved]

theorem listDir_named {path : Path} {dir : Nat}
    (proper : (fs.view device).ProperPath fs path)
    (reached : (fs.view device).parentOf fs path = .ok dir)
    (named : fileName path ≠ [] ∧ ¬IsDotName (fileName path)) {info : DirEntryInfo}
    (found : (fs.view device).lookup fs dir (fileName path) = some info)
    (directory : info.isDir = true) :
    (vfs.listDir path).answer device =
      .ok (((fs.view device).listing ((fs.view device).slotsOf fs info.cluster)).map nodeOf) := by
  have live := Volume.walk_liveDir geometry sound Volume.liveDir_root proper reached
  have followed := walk_followed geometry mounted healthy sound Volume.liveDir_root proper reached
  have opened := component_found geometry vfs healthy sound live
    ⟨named.1, fun dot => named.2 (.inl dot), fun dots => named.2 (.inr dots)⟩ found
  have resolved : vfs.resolvePath path device = .ok info.cluster device := by
    rw [mounted.resolvePath_parent, mounted.rootCluster, Disk.bind_ok followed]
    exact opened
  rw [Disk.answer, listDir_resolved geometry mounted healthy sound
    (live.down geometry sound found directory) resolved]

end Answers

/-! Volumes with nothing but a root directory that records nothing. -/

theorem wellFormed_of_blank {fs : Fat32Fs} (geometry : fs.Geometry) {volume : Volume}
    {clusters : List Nat} (present : 2 ≤ fs.bpb.rootCluster.toNat)
    (chain : volume.Chain fs fs.bpb.rootCluster.toNat clusters)
    (short : clusters.length ≤ Fat32Fs.maxChain)
    (blank : ∀ position ∈ fs.positions clusters, ¬Occupied (volume.entry position))
    (zeroTail : ZeroTail (volume.slotEntries fs clusters))
    (nothing : liveOf (volume.slotEntries fs clusters) = []) : WellFormed fs volume := by
  refine ⟨⟨Volume.sound_of_blank geometry chain blank present, ?_⟩, ?_⟩
  · rintro dir others ⟨owner, ownerLive, _, rfl⟩ owned
    obtain rfl := Volume.only_root geometry chain blank ownerLive
    obtain rfl := owned.unique geometry chain
    refine ⟨zeroTail, ?_, fun entry live => ?_⟩
    · rw [nothing]
      exact List.nodup_nil
    · rw [nothing] at live
      cases live
  · intro owner others ownerLive owned
    obtain rfl := Volume.only_root geometry chain blank ownerLive
    obtain rfl := owned.unique geometry chain
    exact short

theorem blank_wellFormed : WellFormed smallFs (smallFs.view blankDevice) := by
  obtain ⟨_, zeroTail, _⟩ := blank_tidy
  have nothing : liveOf ((smallFs.view blankDevice).slotEntries smallFs [2]) = [] := by
    decide
  exact wellFormed_of_blank smallFs_geometry (by decide) blank_chain (by decide) blank_unoccupied
    zeroTail nothing

end ArcadiaOs.Fs
