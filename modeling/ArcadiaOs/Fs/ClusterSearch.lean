import ArcadiaOs.Fs.WholeChain

/-!
The search of `alloc_cluster` for a free cluster, on any device that never fails.  It finds the
lowest one, but on a volume of a single cluster it does not look.
-/

namespace ArcadiaOs.Fs.Fat32Fs

open Lib

/-- The cluster was the lowest free one.  It holds zeros now, and no entry of the table, in no copy,
and no other cluster has changed. -/
structure LowestTaken (fs : Fat32Fs) (device device' : Device) (cluster : Nat) : Prop where
  valid : fs.Valid cluster
  free : fs.entryOf device cluster = fat32Free
  lowest : ∀ other, fs.Valid other → fs.entryOf device other = fat32Free → cluster ≤ other
  zeroed : fs.clusterBytes device' cluster = fs.clusterZeros
  entries : ∀ other, other / 128 < fs.bpb.fatSize32.toNat →
    fs.fatWord device' other = fs.fatWord device other
  copies : ∀ fatSector, fatSector < fs.bpb.fatSize32.toNat → ∀ copy, copy < fs.bpb.numFats.toNat →
    device'.sector (fs.fatCopyLba fatSector copy) = device.sector (fs.fatCopyLba fatSector copy)
  others : ∀ other, fs.Valid other → other ≠ cluster →
    fs.clusterBytes device' other = fs.clusterBytes device other

structure FindsFree (fs : Fat32Fs) (device : Device) : Prop where
  succeeds : (∃ cluster device', fs.allocCluster device = .ok cluster device') ↔
    ∃ cluster, fs.Valid cluster ∧ fs.entryOf device cluster = fat32Free
  takes : ∀ cluster device', fs.allocCluster device = .ok cluster device' →
    fs.LowestTaken device device' cluster

section Search

variable {fs : Fat32Fs} (consistent : fs.Consistent) {device device' : Device} {cluster : Nat}
include consistent

theorem readFatEntry_entry (healthy : device.Healthy) (valid : fs.Valid cluster) :
    fs.readFatEntry cluster device = .ok (fs.entryOf device cluster) device := by
  rw [readFatEntry_cases consistent (consistent.covered cluster valid), if_pos (healthy _).1, entryOf]

theorem allocFrom_find (healthy : device.Healthy) {clusters : List Nat}
    (valid : ∀ cluster ∈ clusters, fs.Valid cluster) :
    fs.allocFrom clusters device =
      match clusters.find? fun cluster => fs.entryOf device cluster = fat32Free with
      | some cluster => (do
          fs.writeCluster cluster fs.clusterZeros
          pure cluster : Disk String Nat) device
      | none => .error (.error "No free clusters") device := by
  induction clusters with
  | nil => rfl
  | cons cluster rest ih =>
      have read := readFatEntry_entry consistent healthy (valid cluster List.mem_cons_self)
      rw [allocFrom, Disk.bind_ok read]
      by_cases free : fs.entryOf device cluster = fat32Free
      · rw [if_pos free, List.find?_cons_of_pos (by exact decide_eq_true free)]
      · rw [if_neg free, List.find?_cons_of_neg (by simpa using free)]
        exact ih fun other member => valid other (List.mem_cons_of_mem _ member)

theorem clusterRange (some : 1 ≤ fs.bpb.totalClusters) :
    wrap32 (fs.bpb.totalClusters + 2) - 2 = fs.bpb.totalClusters := by
  have last := consistent.covered (fs.bpb.totalClusters + 1) ⟨by omega, by omega⟩
  have addressable := consistent.addressable
  have table : fs.bpb.fatSize32.toNat ≤ fs.bpb.numFats.toNat * fs.bpb.fatSize32.toNat :=
    Nat.le_mul_of_pos_left _ consistent.copies
  have sectors : fs.bpb.totalClusters ≤ fs.bpb.totalClusters * fs.bpb.sectorsPerCluster.toNat :=
    Nat.le_mul_of_pos_right _ consistent.clusterSectors
  rw [wrap32, Nat.mod_eq_of_lt (by omega)]
  omega

theorem allocCluster_few (few : fs.bpb.totalClusters < 2) (device : Device) :
    ∃ reason, fs.allocCluster device = .error (.error reason) device := by
  have sectors : fs.bpb.sectorsPerCluster ≠ 0 := by
    intro zero
    have positive := consistent.clusterSectors
    rw [zero] at positive
    exact absurd positive (by decide)
  rw [allocCluster, if_neg sectors]
  split
  · exact ⟨_, rfl⟩
  · simp only [if_pos few]
    exact ⟨_, rfl⟩

theorem allocCluster_search (many : 2 ≤ fs.bpb.totalClusters) (device : Device) :
    fs.allocCluster device = fs.allocFrom (List.range' 2 fs.bpb.totalClusters) device := by
  have sectors : fs.bpb.sectorsPerCluster ≠ 0 := by
    intro zero
    rw [Fat32Bpb.totalClusters, zero] at many
    simp at many
  have some : fs.bpb.dataSectors ≠ 0 := by
    intro none
    rw [Fat32Bpb.totalClusters, none, Nat.zero_div] at many
    omega
  simp only [allocCluster, if_neg some, if_neg sectors, if_neg (Nat.not_lt.mpr many)]
  rw [clusterRange consistent (by omega)]

theorem lowestTaken (found : (List.range' 2 fs.bpb.totalClusters).find?
      (fun cluster => fs.entryOf device cluster = fat32Free) = some cluster)
    (wrote : fs.writeCluster cluster fs.clusterZeros device = .ok () device') :
    fs.LowestTaken device device' cluster := by
  rw [List.find?_range'_eq_some] at found
  obtain ⟨free, member, before⟩ := found
  rw [List.mem_range'_1] at member
  have valid : fs.Valid cluster := ⟨member.1, by omega⟩
  obtain ⟨_, stored, _⟩ := writeCluster_effect consistent valid wrote
  refine ⟨valid, of_decide_eq_true free, ?_, ?_, ?_, ?_, ?_⟩
  · intro other validOther freeOther
    by_contra lower
    have taken := before other validOther.1 (by omega)
    simp [freeOther] at taken
  · rw [stored, clusterZeros, List.take_of_length_le (length_zeros _).le]
  · exact fun other inside => writeCluster_word consistent valid wrote inside
  · intro fatSector inside copy bound
    apply writeCluster_kept_before consistent valid wrote
    have last := copy_bound fs bound
    rw [fatCopyLba]
    omega
  · exact fun other validOther apart => writeCluster_bytes_other consistent valid wrote validOther apart

theorem findsFree_of_many (many : 2 ≤ fs.bpb.totalClusters) (healthy : device.Healthy) :
    fs.FindsFree device := by
  have inside (cluster : Nat) (member : cluster ∈ List.range' 2 fs.bpb.totalClusters) :
      fs.Valid cluster := by
    rw [List.mem_range'_1] at member
    exact ⟨member.1, by omega⟩
  have searched := allocFrom_find consistent healthy inside
  rw [← allocCluster_search consistent many] at searched
  cases found : (List.range' 2 fs.bpb.totalClusters).find?
      (fun cluster => fs.entryOf device cluster = fat32Free) with
  | none =>
      rw [found] at searched
      constructor
      · constructor
        · rintro ⟨cluster, device', ran⟩
          cases searched.symm.trans ran
        · rintro ⟨cluster, valid, free⟩
          rw [List.find?_range'_eq_none] at found
          have taken := found cluster valid.1 (by have := valid.2; omega)
          simp [free] at taken
      · intro cluster device' ran
        cases searched.symm.trans ran
  | some cluster =>
      rw [found] at searched
      have valid := inside cluster (List.mem_of_find?_eq_some found)
      have free := of_decide_eq_true (List.find?_range'_eq_some.mp found).1
      obtain ⟨device', wrote⟩ := writeCluster_writes consistent valid (fun _ _ => (healthy _).2)
        (show fs.bpb.clusterSizeBytes ≤ fs.clusterZeros.length from (length_zeros _).ge)
      have ran : fs.allocCluster device = .ok cluster device' := by
        rw [searched]
        exact Disk.bind_ok wrote _
      constructor
      · exact iff_of_true ⟨cluster, device', ran⟩ ⟨cluster, valid, free⟩
      · intro other device'' again
        obtain ⟨rfl, rfl⟩ := EStateM.Result.ok.inj (ran.symm.trans again)
        exact lowestTaken consistent found wrote

theorem allocCluster_fails (few : fs.bpb.totalClusters < 2) :
    fs.allocCluster device ≠ .ok cluster device' := by
  intro ran
  obtain ⟨reason, refused⟩ := allocCluster_few consistent few device
  cases refused.symm.trans ran

theorem not_findsFree_of_single (single : fs.bpb.totalClusters = 1)
    (free : fs.entryOf device 2 = fat32Free) : ¬fs.FindsFree device := by
  intro finds
  obtain ⟨cluster, device', ran⟩ := finds.succeeds.mpr ⟨2, ⟨Nat.le_refl 2, by omega⟩, free⟩
  exact allocCluster_fails consistent (by omega) ran

theorem findsFree_of_few (few : fs.bpb.totalClusters < 2)
    (taken : ¬(fs.bpb.totalClusters = 1 ∧ fs.entryOf device 2 = fat32Free)) : fs.FindsFree device := by
  constructor
  · constructor
    · rintro ⟨cluster, device', ran⟩
      exact absurd ran (allocCluster_fails consistent few)
    · rintro ⟨cluster, ⟨above, below⟩, free⟩
      obtain rfl : cluster = 2 := by omega
      exact absurd ⟨by omega, free⟩ taken
  · exact fun cluster device' ran => absurd ran (allocCluster_fails consistent few)

end Search

/-- The search finds a free cluster exactly when the volume is not a single cluster that is free. -/
theorem finds_free_iff (fs : Fat32Fs) (consistent : fs.Consistent) (device : Device)
    (healthy : device.Healthy) :
    fs.FindsFree device ↔ ¬(fs.bpb.totalClusters = 1 ∧ fs.entryOf device 2 = fat32Free) := by
  by_cases many : 2 ≤ fs.bpb.totalClusters
  · exact iff_of_true (findsFree_of_many consistent many healthy) fun single => by omega
  · constructor
    · rintro finds ⟨single, free⟩
      exact not_findsFree_of_single consistent single free finds
    · exact findsFree_of_few consistent (by omega)

theorem finds_free_blank : smallFs.FindsFree blankDevice ↔
    ¬(smallFs.bpb.totalClusters = 1 ∧ smallFs.entryOf blankDevice 2 = fat32Free) :=
  finds_free_iff smallFs smallFs_geometry.consistent blankDevice fun _ => ⟨rfl, rfl⟩

def singleFs : Fat32Fs where
  bpb := { smallFs.bpb with totalSectors32 := 3 }
  partitionLba := 0

def zeroDevice : Device where
  sector _ := ⟨zeros sectorSize, length_zeros _⟩
  readable _ := true
  writable _ := true

theorem singleFs_geometry : singleFs.Geometry := by
  constructor <;> decide

/-- The only cluster is free, and `alloc_cluster` answers that there are none. -/
theorem single_cluster_refused : singleFs.Consistent ∧ zeroDevice.Healthy ∧ singleFs.Valid 2 ∧
    singleFs.entryOf zeroDevice 2 = fat32Free ∧
    singleFs.allocCluster zeroDevice = .error (.error "No clusters available") zeroDevice ∧
    ¬singleFs.FindsFree zeroDevice := by
  have consistent := singleFs_geometry.consistent
  have healthy : zeroDevice.Healthy := fun _ => ⟨rfl, rfl⟩
  have single : singleFs.bpb.totalClusters = 1 := by decide
  have free : singleFs.entryOf zeroDevice 2 = fat32Free := by decide
  exact ⟨consistent, healthy, by decide, free, rfl, not_findsFree_of_single consistent single free⟩

end ArcadiaOs.Fs.Fat32Fs
