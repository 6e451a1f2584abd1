import ArcadiaOs.Fs.Invariant
import Mathlib.Order.Interval.Finset.Nat

/-!
Space on a volume.  What each step of a creation takes or gives back is a number of clusters, so
what the step answers is told by how many are free.
-/

namespace ArcadiaOs.Fs

open Lib

namespace Volume

def freeSet (fs : Fat32Fs) (volume : Volume) : Finset Nat :=
  (Finset.Ico 2 (fs.bpb.totalClusters + 2)).filter fun cluster => volume.fat cluster = 0

def freeCount (fs : Fat32Fs) (volume : Volume) : Nat := (volume.freeSet fs).card

/-- The clusters `allocate_and_write` takes: a second one when the data needs more than one, and no
third one. -/
def demand (fs : Fat32Fs) (data : List UInt8) : Nat := if fs.clustersNeeded data ≤ 1 then 1 else 2

def Full (fs : Fat32Fs) (volume : Volume) (dir : Nat) : Prop :=
  volume.scan judgeVacant (volume.slotsOf fs dir) = .exhausted

instance (fs : Fat32Fs) (volume : Volume) (dir : Nat) : Decidable (volume.Full fs dir) :=
  inferInstanceAs (Decidable (_ = _))

def slotDemand (fs : Fat32Fs) (volume : Volume) (dir : Nat) : Nat :=
  if volume.Full fs dir then 1 else 0

def Used (fs : Fat32Fs) (volume : Volume) : Prop :=
  ∃ cluster, fs.Valid cluster ∧ volume.fat cluster ≠ 0

variable {fs : Fat32Fs} {volume volume' : Volume}

theorem mem_freeSet {cluster : Nat} :
    cluster ∈ volume.freeSet fs ↔ fs.Valid cluster ∧ volume.fat cluster = 0 := by
  rw [freeSet, Finset.mem_filter, Finset.mem_Ico]
  rfl

theorem Sound.used (sound : volume.Sound fs) : volume.Used fs := by
  obtain ⟨clusters, owned⟩ := sound.owns .root .root
  have member := owned.mem_start (sound.directories .root .root rfl)
  exact ⟨_, owned.valid _ member, owned.not_free member⟩

/-- On a volume in use `alloc_cluster` fails only when nothing is free: one that it takes for
empty is too small to have a free cluster left. -/
theorem firstFree_none_iff (used : volume.Used fs) :
    volume.firstFree fs = none ↔ volume.freeCount fs = 0 := by
  rw [freeCount, Finset.card_eq_zero, Finset.eq_empty_iff_forall_notMem]
  obtain ⟨root, rootValid, taken⟩ := used
  constructor
  · intro full cluster member
    obtain ⟨valid, free⟩ := mem_freeSet.mp member
    by_cases enough : 2 ≤ fs.bpb.totalClusters
    · exact firstFree_none full enough valid free
    · obtain rfl : cluster = root := by
        have := valid.1
        have := valid.2
        have := rootValid.1
        have := rootValid.2
        omega
      exact taken free
  · intro none
    cases found : volume.firstFree fs with
    | none => rfl
    | some cluster => exact absurd (mem_freeSet.mpr (firstFree_some found)) (none cluster)

theorem firstFree_mem {cluster : Nat} (found : volume.firstFree fs = some cluster) :
    cluster ∈ volume.freeSet fs := mem_freeSet.mpr (firstFree_some found)

theorem freeSet_marked {clusters : List Nat} (marked : ∀ cluster ∈ clusters, volume'.fat cluster ≠ 0)
    (others : ∀ cluster, cluster ∉ clusters → volume'.fat cluster = volume.fat cluster) :
    volume'.freeSet fs = volume.freeSet fs \ clusters.toFinset := by
  ext cluster
  rw [Finset.mem_sdiff, mem_freeSet, mem_freeSet, List.mem_toFinset]
  by_cases member : cluster ∈ clusters
  · exact iff_of_false (fun free => marked cluster member free.2) fun free => free.2 member
  · rw [others cluster member]
    exact ⟨fun free => ⟨free, member⟩, fun free => free.1⟩

theorem freeCount_marked {clusters : List Nat} (distinct : clusters.Nodup)
    (before : ∀ cluster ∈ clusters, cluster ∈ volume.freeSet fs)
    (marked : ∀ cluster ∈ clusters, volume'.fat cluster ≠ 0)
    (others : ∀ cluster, cluster ∉ clusters → volume'.fat cluster = volume.fat cluster) :
    volume'.freeCount fs + clusters.length = volume.freeCount fs := by
  have inside : clusters.toFinset ⊆ volume.freeSet fs :=
    fun cluster member => before cluster (List.mem_toFinset.mp member)
  rw [freeCount, freeCount, freeSet_marked marked others, ← List.toFinset_card_of_nodup distinct]
  exact Finset.card_sdiff_add_card_eq_card inside

theorem freeCount_mark {cluster : Nat} (found : volume.firstFree fs = some cluster)
    (bytes : List UInt8) :
    ((volume.setData cluster bytes).setFat cluster fat32Eoc).freeCount fs + 1 =
      volume.freeCount fs := by
  refine freeCount_marked (List.nodup_singleton cluster) (fun other member => ?_)
    (fun other member => ?_) fun other apart => ?_
  · exact List.mem_singleton.mp member ▸ firstFree_mem found
  · rw [List.mem_singleton.mp member, setFat_fat_same]
    decide
  · exact (marked_kept (fun same => apart (List.mem_singleton.mpr same)) bytes).1

theorem freeCount_reserve {cluster : Nat} (found : volume.firstFree fs = some cluster) :
    (volume.reserve fs cluster).freeCount fs + 1 = volume.freeCount fs := freeCount_mark found _

theorem freeCount_free (geometry : fs.Geometry) {start : Nat} {clusters : List Nat}
    (chain : volume.Chain fs start clusters) :
    (volume.free start).freeCount fs = volume.freeCount fs + (Fat32Fs.visible clusters).length := by
  symm
  refine freeCount_marked chain.visible_distinct (fun cluster member => ?_)
    (fun cluster member => ?_) fun cluster apart => ?_
  · rw [mem_freeSet, free_fat geometry chain, if_pos member]
    exact ⟨chain.visible_valid cluster member, rfl⟩
  · exact chain.not_free (Chain.mem_visible member)
  · rw [free_fat geometry chain, if_neg apart]

theorem Used.reserve (used : volume.Used fs) (cluster : Nat) :
    (volume.reserve fs cluster).Used fs := by
  obtain ⟨root, valid, taken⟩ := used
  refine ⟨root, valid, ?_⟩
  by_cases same : root = cluster
  · rw [same, Volume.reserve, setFat_fat_same]
    decide
  · rw [(reserve_kept same).1]
    exact taken

structure Stored (fs : Fat32Fs) (volume : Volume) (data : List UInt8) (cluster : Nat)
    (tail : List Nat) : Prop where
  found : volume.firstFree fs = some cluster
  extension : (volume.reserve fs cluster).Extension fs [cluster] data tail
  placed : volume.place fs data =
    (some cluster, (volume.reserve fs cluster).store fs [cluster] tail data)

theorem Stored.count {data : List UInt8} {cluster : Nat} {tail : List Nat}
    (stored : volume.Stored fs data cluster tail) :
    (volume.place fs data).2.freeCount fs + demand fs data = volume.freeCount fs ∧
      ([cluster] ++ tail).length = demand fs data := by
  obtain ⟨found, extension, placed⟩ := stored
  have valid := (firstFree_some found).1
  have reserved : (volume.reserve fs cluster).Chain fs cluster [cluster] := reserve_chain valid
  have chain := store_chain reserved valid.1 extension
  have distinct := chain.distinct
  have length : ([cluster] ++ tail).length = demand fs data := by
    rw [demand]
    rcases extension with ⟨few, rfl⟩ | ⟨many, next, _, rfl⟩
    · rw [if_pos (by simpa using few)]
      rfl
    · rw [if_neg (by simpa using many)]
      rfl
  refine ⟨?_, length⟩
  rw [placed, ← length]
  refine freeCount_marked distinct (fun other member => ?_) (fun other member => ?_)
    fun other apart => ?_
  · rcases List.mem_append.mp member with own | later
    · exact List.mem_singleton.mp own ▸ firstFree_mem found
    · exact mem_freeSet.mpr (extension.free later).2
  · exact chain.not_free member
  · rw [store_fat_other apart]
    rw [List.mem_append, not_or] at apart
    exact (reserve_kept fun same => apart.1 (List.mem_singleton.mpr same)).1

theorem place_outcome (used : volume.Used fs) (data : List UInt8) :
    (volume.freeCount fs = 0 ∧ volume.place fs data = (none, volume)) ∨
    (volume.freeCount fs = 1 ∧ demand fs data = 2 ∧ ∃ cluster,
      volume.firstFree fs = some cluster ∧
      volume.place fs data = (none, volume.reserve fs cluster)) ∨
    (demand fs data ≤ volume.freeCount fs ∧ ∃ cluster tail, volume.Stored fs data cluster tail) := by
  rcases place_cases fs volume data with ⟨full, placed⟩ | ⟨cluster, found, long, full, placed⟩ |
    ⟨cluster, tail, found, extension, placed⟩
  · exact .inl ⟨(firstFree_none_iff used).mp full, placed⟩
  · have last := freeCount_reserve found
    rw [(firstFree_none_iff (used.reserve cluster)).mp full] at last
    refine .inr (.inl ⟨last.symm, ?_, cluster, found, placed⟩)
    rw [demand, if_neg (by omega)]
  · have stored : volume.Stored fs data cluster tail := ⟨found, extension, placed⟩
    have count := stored.count.1
    exact .inr (.inr ⟨by omega, cluster, tail, stored⟩)

theorem demand_pos (fs : Fat32Fs) (data : List UInt8) : 1 ≤ demand fs data ∧ demand fs data ≤ 2 := by
  rw [demand]
  split
  · exact ⟨Nat.le_refl 1, Nat.le_succ 1⟩
  · exact ⟨Nat.le_succ 1, Nat.le_refl 2⟩

theorem Used.kept (used : volume.Used fs)
    (keeps : ∀ cluster, volume.fat cluster ≠ 0 → volume.Kept volume' cluster) : volume'.Used fs := by
  obtain ⟨root, valid, taken⟩ := used
  refine ⟨root, valid, ?_⟩
  rw [(keeps root taken).1]
  exact taken

theorem free_used (geometry : fs.Geometry) (sound : volume.Sound fs) {position : Position}
    (live : volume.Live fs (.slot position)) :
    (volume.free (volume.entry position).firstCluster).Used fs := by
  obtain ⟨clusters, owned⟩ := sound.owns _ live
  obtain ⟨rootClusters, rootOwned⟩ := sound.owns _ .root
  have member := rootOwned.mem_start (sound.directories .root .root rfl)
  have apart := sound.apart _ _ live .root nofun _ _ owned rootOwned
  have chain : volume.Chain fs (volume.entry position).firstCluster clusters := owned
  refine ⟨_, rootOwned.valid _ member, ?_⟩
  rw [free_fat geometry chain, if_neg fun freed => apart (Chain.mem_visible freed) member]
  exact rootOwned.not_free member

section Directory

variable (geometry : fs.Geometry) {dir : Nat} {clusters : List Nat}
  (chain : volume.Chain fs dir clusters)
include geometry chain

theorem slotDemand_kept (keeps : ∀ cluster ∈ clusters, volume.Kept volume' cluster) :
    volume'.slotDemand fs dir = volume.slotDemand fs dir := by
  have same : volume'.scan judgeVacant (fs.slots clusters) =
      volume.scan judgeVacant (fs.slots clusters) := by
    refine scan_congr fun position member => ?_
    rw [(keeps position.1 (Fat32Fs.mem_positions.mp (slots_subset member)).1).entry]
  simp only [slotDemand, Full, slotsOf_eq geometry (chain.kept keeps), slotsOf_eq geometry chain, same]

theorem putEntry_fits (used : volume.Used fs) (present : 2 ≤ dir) (entry : Fat32DirEntry) :
    (volume.putEntry fs dir entry).1 = true ↔
      volume.slotDemand fs dir ≤ volume.freeCount fs := by
  simp only [slotDemand, Full, slotsOf_eq geometry chain]
  rcases putEntry_cases geometry chain present entry with ⟨position, vacant, put⟩ |
    ⟨full, none, put⟩ | ⟨full, last, cluster, _, found, put⟩
  · simp [put, vacant]
  · simp [put, full, (firstFree_none_iff used).mp none]
  · have some : volume.freeCount fs ≠ 0 := by
      rw [Ne, ← firstFree_none_iff used, found]
      exact nofun
    simp only [put, full, if_true, true_iff]
    omega

theorem putEntry_refused (present : 2 ≤ dir) {entry : Fat32DirEntry}
    (refused : (volume.putEntry fs dir entry).1 = false) :
    volume.putEntry fs dir entry = (false, volume) := by
  rcases putEntry_cases geometry chain present entry with ⟨position, vacant, put⟩ |
    ⟨full, none, put⟩ | ⟨full, last, cluster, _, found, put⟩
  · rw [put] at refused
    cases refused
  · exact put
  · rw [put] at refused
    cases refused

end Directory

theorem enter_cases (geometry : fs.Geometry) {dir : Nat} {clusters : List Nat}
    (chain : volume.Chain fs dir clusters) (used : volume.Used fs) (present : 2 ≤ dir)
    (entry : Fat32DirEntry) :
    (volume.freeCount fs < volume.slotDemand fs dir ∧
      volume.enter fs dir entry = (.error .ioError, volume)) ∨
    (volume.slotDemand fs dir ≤ volume.freeCount fs ∧ (volume.putEntry fs dir entry).1 = true ∧
      volume.enter fs dir entry = (.ok (), (volume.putEntry fs dir entry).2)) := by
  have fits := putEntry_fits geometry chain used present entry
  simp only [enter]
  cases put : volume.putEntry fs dir entry with
  | mk done volume' =>
      rw [put] at fits
      cases done with
      | false =>
          have refused := putEntry_refused geometry chain present (congrArg Prod.fst put)
          obtain rfl : volume = volume' := congrArg Prod.snd (refused.symm.trans put)
          simp only [Bool.false_eq_true, false_iff, Nat.not_le] at fits
          exact .inl ⟨fits, rfl⟩
      | true => exact .inr ⟨fits.mp rfl, rfl, rfl⟩

def placeNew (fs : Fat32Fs) (volume : Volume) (dir : Nat) (nameUpper : Path) (data : List UInt8) :
    Except VfsError Unit × Volume :=
  match volume.place fs data with
  | (none, volume') => (.error .noSpace, volume')
  | (some cluster, volume') =>
      volume'.enter fs dir (VfsManager.newEntry nameUpper 0x20 cluster data.length)

section Fresh

variable (geometry : fs.Geometry) {dir : Nat} {clusters : List Nat}
  (chain : volume.Chain fs dir clusters) (used : volume.Used fs) (present : 2 ≤ dir)
include geometry chain used present

theorem placeNew_cases (nameUpper : Path) (data : List UInt8) :
    (volume.freeCount fs = 0 ∧ volume.placeNew fs dir nameUpper data = (.error .noSpace, volume)) ∨
    (volume.freeCount fs = 1 ∧ demand fs data = 2 ∧ ∃ cluster, volume.firstFree fs = some cluster ∧
      volume.placeNew fs dir nameUpper data = (.error .noSpace, volume.reserve fs cluster)) ∨
    ∃ cluster tail, volume.Stored fs data cluster tail ∧
      let entry := VfsManager.newEntry nameUpper 0x20 cluster data.length
      let placed := (volume.place fs data).2
      (volume.freeCount fs < demand fs data + volume.slotDemand fs dir ∧
        volume.placeNew fs dir nameUpper data = (.error .ioError, placed)) ∨
      (demand fs data + volume.slotDemand fs dir ≤ volume.freeCount fs ∧
        (placed.putEntry fs dir entry).1 = true ∧
        volume.placeNew fs dir nameUpper data = (.ok (), (placed.putEntry fs dir entry).2)) := by
  simp only [placeNew]
  rcases place_outcome used data with ⟨none, outcome⟩ | ⟨one, two, cluster, found, outcome⟩ |
    ⟨_, cluster, tail, stored⟩
  · rw [outcome]
    exact .inl ⟨none, rfl⟩
  · rw [outcome]
    exact .inr (.inl ⟨one, two, cluster, found, rfl⟩)
  · have keeps : ∀ other, volume.fat other ≠ 0 → volume.Kept (volume.place fs data).2 other :=
      fun other taken => place_kept fs volume data taken
    have own : ∀ other ∈ clusters, volume.Kept (volume.place fs data).2 other :=
      fun other member => keeps other (chain.not_free member)
    have count := stored.count.1
    have entered := enter_cases geometry (chain.kept own) (used.kept keeps) present
      (VfsManager.newEntry nameUpper 0x20 cluster data.length)
    rw [slotDemand_kept geometry chain own] at entered
    refine .inr (.inr ⟨cluster, tail, stored, ?_⟩)
    rw [stored.placed] at count entered ⊢
    simp only at count entered ⊢
    rcases entered with ⟨short, outcome⟩ | ⟨enough, added, outcome⟩
    · exact .inl ⟨by omega, outcome⟩
    · exact .inr ⟨by omega, added, outcome⟩

theorem mkdir_cases {path : Path} (parent : volume.parentOf fs path = .ok dir)
    (named : fileName path ≠ []) (missing : volume.findIn fs dir path = none) :
    (volume.freeCount fs = 0 ∧ volume.mkdir fs path = (.error .noSpace, volume)) ∨
    ∃ cluster, volume.firstFree fs = some cluster ∧
      let marked := (volume.setData cluster (dots fs cluster dir)).setFat cluster fat32Eoc
      marked.freeCount fs + 1 = volume.freeCount fs ∧
      ((volume.freeCount fs < 1 + volume.slotDemand fs dir ∧
          volume.mkdir fs path = (.error .ioError, marked)) ∨
        (1 + volume.slotDemand fs dir ≤ volume.freeCount fs ∧
          (volume.mkdir fs path).1 = .ok ())) := by
  simp only [mkdir, parent, if_neg named, missing]
  cases found : volume.firstFree fs with
  | none => exact .inl ⟨(firstFree_none_iff used).mp found, rfl⟩
  | some cluster =>
      have keeps (other : Nat) (taken : volume.fat other ≠ 0) : volume.Kept
          ((volume.setData cluster (dots fs cluster dir)).setFat cluster fat32Eoc) other := by
        refine marked_kept ?_ _
        rintro rfl
        exact taken (firstFree_some found).2
      have own := fun other member => keeps other (chain.not_free member)
      have count := freeCount_mark found (dots fs cluster dir)
      refine .inr ⟨cluster, rfl, count, ?_⟩
      rcases enter_cases geometry (chain.kept own) (used.kept keeps) present
        (VfsManager.newEntry (toUpper83 (fileName path)) 0x10 cluster 0) with
        ⟨short, outcome⟩ | ⟨enough, _, outcome⟩
      · rw [slotDemand_kept geometry chain own] at short
        exact .inl ⟨by omega, outcome⟩
      · rw [slotDemand_kept geometry chain own] at enough
        exact .inr ⟨by omega, congrArg Prod.fst outcome⟩

end Fresh

/-- There are clusters for the data, those of the old file among them, and one more for a full
directory. -/
def HasRoom (fs : Fat32Fs) (volume : Volume) (dir : Nat) (path : Path) (data : List UInt8) : Prop :=
  match volume.findIn fs dir path with
  | some position => demand fs data ≤ volume.freeCount fs +
      (volume.chainOf (volume.entry position).firstCluster).length
  | none => demand fs data + volume.slotDemand fs dir ≤ volume.freeCount fs

/-- The path leads through directories to one of them and names something in it. -/
structure Targets (fs : Fat32Fs) (volume : Volume) (path : Path) (dir : Nat) : Prop where
  proper : volume.ProperPath fs path
  parent : volume.parentOf fs path = .ok dir
  named : fileName path ≠ []

section Created

variable {path : Path} {dir : Nat} (targets : volume.Targets fs path dir)
include targets

theorem Targets.createFile_new (missing : volume.findIn fs dir path = none) (data : List UInt8) :
    volume.createFile fs path data =
      volume.placeNew fs dir (toUpper83 (fileName path)) data := by
  cases outcome : volume.place fs data with
  | mk answer volume' =>
      cases answer with
      | none => simp only [createFile, targets.parent, if_neg targets.named, missing, placeNew, outcome]
      | some cluster =>
          simp only [createFile, targets.parent, if_neg targets.named, missing, placeNew, outcome]

theorem Targets.createFile_over {position : Position}
    (found : volume.findIn fs dir path = some position)
    (regular : (volume.entry position).isDirectory = false) (data : List UInt8) :
    volume.createFile fs path data =
      match (volume.free (volume.entry position).firstCluster).place fs data with
      | (none, volume') => (.error .noSpace, volume')
      | (some cluster, volume') => (.ok (),
          volume'.setEntry position (relinked (volume.entry position) cluster data.length)) := by
  cases outcome : (volume.free (volume.entry position).firstCluster).place fs data with
  | mk answer volume' =>
      cases answer with
      | none =>
          simp only [createFile, targets.parent, if_neg targets.named, found, regular,
            Bool.false_eq_true, if_false, outcome]
      | some cluster =>
          simp only [createFile, targets.parent, if_neg targets.named, found, regular,
            Bool.false_eq_true, if_false, outcome]

variable (geometry : fs.Geometry) (sound : volume.Sound fs)
include geometry sound

theorem Targets.live : volume.LiveDir fs dir :=
  Mounted.parent_live geometry sound targets.proper targets.parent

theorem Targets.slot {position : Position} (found : volume.findIn fs dir path = some position)
    (regular : (volume.entry position).isDirectory = false) : volume.Live fs (.slot position) :=
  (targets.live geometry sound).found geometry sound found (not_dot_of_regular regular)

/-- `create_file` succeeds when there is room, unless the path names a directory. -/
theorem Targets.created_iff (regular : ∀ position, volume.findIn fs dir path = some position →
    (volume.entry position).isDirectory = false) (data : List UInt8) :
    (volume.createFile fs path data).1 = .ok () ↔ volume.HasRoom fs dir path data := by
  obtain ⟨present, clusters, chain⟩ := (targets.live geometry sound).chain sound
  have some := demand_pos fs data
  rw [HasRoom]
  cases found : volume.findIn fs dir path with
  | none =>
      rw [targets.createFile_new found]
      rcases placeNew_cases geometry chain sound.used present (toUpper83 (fileName path)) data with
        ⟨none, outcome⟩ | ⟨one, two, cluster, _, outcome⟩ |
        ⟨cluster, tail, _, ⟨short, outcome⟩ | ⟨enough, _, outcome⟩⟩
      · rw [outcome]
        exact iff_of_false nofun (by omega)
      · rw [outcome]
        exact iff_of_false nofun (by omega)
      · rw [outcome]
        exact iff_of_false nofun (by omega)
      · rw [outcome]
        exact iff_of_true rfl enough
  | some position =>
      have slot := targets.slot geometry sound found (regular position found)
      obtain ⟨freed, owned⟩ := sound.owns _ slot
      have chain : volume.Chain fs (volume.entry position).firstCluster freed := owned
      have count := freeCount_free geometry chain
      rw [targets.createFile_over found (regular position found)]
      simp only [geometry.chainOf_eq chain, ← count]
      rcases place_outcome (free_used geometry sound slot) data with ⟨none, outcome⟩ |
        ⟨one, two, cluster, _, outcome⟩ | ⟨enough, cluster, tail, stored⟩
      · rw [outcome]
        exact iff_of_false nofun (by omega)
      · rw [outcome]
        exact iff_of_false nofun (by omega)
      · rw [stored.placed]
        exact iff_of_true rfl enough

end Created

end Volume

end ArcadiaOs.Fs
