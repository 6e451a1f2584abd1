import ArcadiaOs.Fs.ClusterOwnership
import ArcadiaOs.Fs.MountCore

/-!
What the checks at mount time promise.  `from_bytes` looks at the FAT sizes and the type
string only, so the geometry of an accepted boot sector is usable exactly when its other
fields happen to be sane.
-/

namespace ArcadiaOs.Fs

open Lib

def Disk.Calm {ε α : Type} (action : Disk ε α) : Prop :=
  ∀ device device', action device ≠ .error .panic device'

namespace Disk.Calm

variable {ε ε' α β : Type}

theorem pure (value : α) : Disk.Calm (Pure.pure value : Disk ε α) := nofun

theorem fail (reason : ε) : Disk.Calm (Disk.fail reason : Disk ε α) := nofun

theorem bind {action : Disk ε α} {next : α → Disk ε β} (first : action.Calm)
    (second : ∀ value, (next value).Calm) : (action >>= next).Calm := by
  intro device device' panicked
  cases ran : action device with
  | ok value middle =>
      rw [Disk.bind_ok ran] at panicked
      exact second value middle device' panicked
  | error halt middle =>
      rw [Disk.bind_error ran] at panicked
      injection panicked with same _
      subst same
      exact first device middle ran

theorem mapErr {action : Disk ε α} (calm : action.Calm) (convert : ε → ε') :
    (action.mapErr convert).Calm := by
  intro device device' panicked
  rw [Disk.mapErr] at panicked
  cases ran : action device with
  | ok value middle =>
      rw [ran] at panicked
      cases panicked
  | error halt middle =>
      rw [ran] at panicked
      cases halt with
      | panic => exact calm device middle ran
      | error reason => cases panicked

end Disk.Calm

theorem readSector_calm (lba : Nat) (buf : List UInt8) : (readSector lba buf).Calm := by
  intro device device' panicked
  rw [readSector] at panicked
  split at panicked
  · cases panicked
  · split at panicked <;> cases panicked

theorem writeSector_calm (lba : Nat) (buf : List UInt8) : (writeSector lba buf).Calm := by
  intro device device' panicked
  rw [writeSector] at panicked
  split at panicked
  · cases panicked
  · split at panicked <;> cases panicked

namespace Fat32Fs

variable (fs : Fat32Fs)

theorem readSectorBuf_calm (lba : Nat) (buf : List UInt8) : (fs.readSectorBuf lba buf).Calm :=
  .mapErr (readSector_calm _ _) _

theorem writeSectorBuf_calm (lba : Nat) (buf : List UInt8) : (fs.writeSectorBuf lba buf).Calm :=
  .mapErr (writeSector_calm _ _) _

theorem writeCluster_calm (cluster : Nat) (buf : List UInt8) : (fs.writeCluster cluster buf).Calm := by
  have sectors (sector count index : Nat) : (fs.writeSectors sector buf count index).Calm := by
    induction count generalizing index with
    | zero => exact .pure _
    | succ count ih => exact .bind (fs.writeSectorBuf_calm _ _) fun _ => ih _
  rw [writeCluster]
  split
  · exact .fail _
  · exact sectors _ _ _

variable {fs}

theorem readFatEntry_calm (entries : fs.entriesPerSector ≠ 0) (cluster : Nat) :
    (fs.readFatEntry cluster).Calm := by
  rw [readFatEntry, if_neg entries]
  exact .bind (fs.readSectorBuf_calm _ _) fun _ => .pure _

theorem allocFrom_calm (entries : fs.entriesPerSector ≠ 0) (clusters : List Nat) :
    (fs.allocFrom clusters).Calm := by
  induction clusters with
  | nil => exact .fail _
  | cons cluster rest ih =>
      refine .bind (readFatEntry_calm entries cluster) fun val => ?_
      split
      · exact .bind (fs.writeCluster_calm _ _) fun _ => .pure _
      · exact ih

theorem allocCluster_calm (entries : fs.entriesPerSector ≠ 0)
    (sectors : fs.bpb.sectorsPerCluster ≠ 0) : fs.allocCluster.Calm := by
  rw [allocCluster, if_neg sectors]
  split
  · exact .fail _
  · dsimp only
    split
    · exact .fail _
    · exact allocFrom_calm entries _

end Fat32Fs

namespace Fat32Bpb

structure Accepted (sector : List UInt8) : Prop where
  long : 90 ≤ sector.length
  fatSize16 : u16At sector 22 = 0
  fatSize32 : (readFrom sector).fatSize32 ≠ 0
  fsType : fat32Type <+: (fromUtf8 (bytesAt sector 82 8)).getD []

theorem fromBytes_eq_some {sector : List UInt8} (accepted : Accepted sector) :
    fromBytes sector = some (readFrom sector) := by
  have long := accepted.long
  simp only [fromBytes, if_neg (show ¬sector.length < 90 by omega), accepted.fatSize16, ne_eq,
    not_true_eq_false, if_false, accepted.fatSize32, accepted.fsType, if_true]

/-! The geometry without machine arithmetic. -/

def exactDataStart (bpb : Fat32Bpb) : Nat :=
  bpb.reservedSectorCount.toNat + bpb.numFats.toNat * bpb.fatSize32.toNat

def exactClusters (bpb : Fat32Bpb) : Nat :=
  (bpb.totalSectors32.toNat - bpb.exactDataStart) / bpb.sectorsPerCluster.toNat

/-- Geometry that the driver can compute with: no division by zero, no wrap-around, and every
cluster has its entry in the first table. -/
structure Usable (bpb : Fat32Bpb) : Prop where
  sectorsPerCluster : bpb.sectorsPerCluster ≠ 0
  bytesPerSector : bpb.sectorBytes = sectorSize
  dataStart : bpb.dataStartSector = bpb.exactDataStart
  clusters : bpb.totalClusters = bpb.exactClusters
  lastCluster : wrap32 (bpb.totalClusters + 2) = bpb.totalClusters + 2
  clusterToSector : ∀ cluster, 2 ≤ cluster → cluster < bpb.totalClusters + 2 →
    bpb.clusterToSector cluster =
      bpb.exactDataStart + (cluster - 2) * bpb.sectorsPerCluster.toNat
  fatSector : ∀ cluster, 2 ≤ cluster → cluster < bpb.totalClusters + 2 →
    wrap32 (bpb.fatStartSector + cluster / (bpb.sectorBytes / 4)) =
        bpb.fatStartSector + cluster / (bpb.sectorBytes / 4) ∧
      cluster / (bpb.sectorBytes / 4) < bpb.fatSize32.toNat
  alloc : ∀ partitionLba, (Fat32Fs.allocCluster ⟨bpb, partitionLba⟩).Calm

structure Sane (bpb : Fat32Bpb) : Prop where
  sectorsPerCluster : bpb.sectorsPerCluster ≠ 0
  bytesPerSector : bpb.bytesPerSector = 512
  dataStart : bpb.exactDataStart < 2 ^ 32
  lastCluster : bpb.exactClusters + 2 < 2 ^ 32
  covered : bpb.exactClusters = 0 ∨ bpb.exactClusters + 2 ≤ 128 * bpb.fatSize32.toNat

variable {bpb : Fat32Bpb}

theorem dataStart_exact_iff : bpb.dataStartSector = bpb.exactDataStart ↔ bpb.exactDataStart < 2 ^ 32 := by
  rw [dataStartSector, exactDataStart, wrap32, wrap32, Nat.add_mod_mod]
  exact ⟨fun same => same ▸ Nat.mod_lt _ (by decide), Nat.mod_eq_of_lt⟩

theorem totalClusters_exact (exact : bpb.dataStartSector = bpb.exactDataStart) :
    bpb.totalClusters = bpb.exactClusters := by
  rw [totalClusters, dataSectors, exact, exactClusters]

theorem clusterToSector_exact (exact : bpb.dataStartSector = bpb.exactDataStart) {cluster : Nat}
    (bound : cluster < bpb.totalClusters + 2) :
    bpb.clusterToSector cluster =
      bpb.exactDataStart + (cluster - 2) * bpb.sectorsPerCluster.toNat := by
  have total := bpb.totalSectors32.toNat_lt
  have start := dataStart_exact_iff.mp exact
  have before : cluster - 2 ≤ bpb.totalClusters := by omega
  have inside : (cluster - 2) * bpb.sectorsPerCluster.toNat ≤ bpb.dataSectors :=
    Nat.le_trans (Nat.mul_le_mul_right _ before) (Nat.div_mul_le_self _ _)
  rw [dataSectors, exact] at inside
  rw [clusterToSector, exact, wrap32, wrap32]
  rw [Nat.mod_eq_of_lt (a := (cluster - 2) * _) (by omega), Nat.mod_eq_of_lt (by omega)]

theorem Sane.usable (sane : bpb.Sane) : bpb.Usable := by
  have exact := dataStart_exact_iff.mpr sane.dataStart
  have clusters := totalClusters_exact exact
  have bytes : bpb.sectorBytes = sectorSize := by
    rw [sectorBytes, sane.bytesPerSector]
    rfl
  have entries : bpb.sectorBytes / 4 = 128 := by
    rw [bytes]
    rfl
  refine ⟨sane.sectorsPerCluster, bytes, exact, clusters, ?_, ?_, ?_, ?_⟩
  · rw [clusters]
    exact Nat.mod_eq_of_lt sane.lastCluster
  · intro cluster _ bound
    exact clusterToSector_exact exact bound
  · intro cluster above bound
    have reserved := bpb.reservedSectorCount.toNat_lt
    have last := sane.lastCluster
    rw [clusters] at bound
    rw [entries, fatStartSector]
    refine ⟨Nat.mod_eq_of_lt (by omega), ?_⟩
    rcases sane.covered with none | covered
    · omega
    · omega
  · intro partitionLba
    refine Fat32Fs.allocCluster_calm ?_ sane.sectorsPerCluster
    rw [Fat32Fs.entriesPerSector, entries]
    decide

theorem Usable.sane (usable : bpb.Usable) : bpb.Sane := by
  have start := dataStart_exact_iff.mp usable.dataStart
  have last := usable.lastCluster
  have entries : bpb.sectorBytes / 4 = 128 := by
    rw [usable.bytesPerSector]
    rfl
  rw [usable.clusters] at last
  refine ⟨usable.sectorsPerCluster, ?_, start, ?_, ?_⟩
  · apply UInt16.toNat_inj.mp
    exact usable.bytesPerSector
  · rw [← last]
    exact Nat.mod_lt _ (by decide)
  · by_cases none : bpb.exactClusters = 0
    · exact .inl none
    · have covered := (usable.fatSector (bpb.exactClusters + 1) (by omega)
        (by rw [usable.clusters]; omega)).2
      rw [entries] at covered
      omega

end Fat32Bpb

theorem readSector_boot {device : Device} {lba : Nat} (readable : device.readable lba = true) :
    readSector lba (zeros 512) device = .ok (device.sector lba).val device := by
  have whole : splice (zeros 512) 0 (device.sector lba).val = (device.sector lba).val :=
    splice_whole (by rw [length_zeros, (device.sector lba).property]; rfl)
  rw [readSector, if_neg (by rw [length_zeros]; decide), if_pos readable, whole]

theorem mount_boot {device : Device} {lba : UInt32} {first : Nat} (start : lba.toNat = first)
    {bpb : Fat32Bpb} (readable : device.readable first = true)
    (accepted : Fat32Bpb.fromBytes (device.sector first).val = some bpb) :
    Fat32Fs.mount lba device = .ok ⟨bpb, lba⟩ device := by
  rw [Fat32Fs.mount, start, Disk.bind_ok (Disk.mapErr_ok (readSector_boot readable) _), accepted]
  rfl

theorem mount_unreadable {device : Device} {lba : UInt32} {first : Nat} (start : lba.toNat = first)
    (unreadable : device.readable first = false) :
    Fat32Fs.mount lba device = .error (.error "Failed to read boot sector") device := by
  have refused : readSector first (zeros 512) device = .error (.error ()) device := by
    rw [readSector, if_neg (by rw [length_zeros]; decide), unreadable]
    rfl
  rw [Fat32Fs.mount, start]
  exact Disk.bind_error (Disk.mapErr_error refused _) _

theorem storeVfs_ok (fs : Fat32Fs) (device : Device) :
    (∃ device', storeVfs (.ok fs device) = .error .panic device') ↔
      fs.bpb.sectorsPerCluster = 0 := by
  rw [storeVfs]
  split
  · rename_i none
    exact iff_of_true ⟨device, rfl⟩ none
  · rename_i some
    refine iff_of_false ?_ some
    rintro ⟨device', panicked⟩
    cases panicked

theorem storeVfs_error (reason : String) (device : Device) :
    ¬∃ device', storeVfs (.error (.error reason) device) = .error .panic device' := by
  rintro ⟨device', panicked⟩
  cases panicked

/-- `init_vfs` panics exactly when it mounts a volume with clusters of no sectors. -/
theorem initVfs_panics_iff {device : Device} {bpb : Fat32Bpb}
    (accepted : Fat32Bpb.fromBytes (device.sector 0).val = some bpb) :
    (∃ device', initVfs device = .error .panic device') ↔
      device.readable 0 = true ∧ bpb.sectorsPerCluster = 0 := by
  by_cases readable : device.readable 0 = true
  · rw [initVfs, mount_boot rfl readable accepted, storeVfs_ok, and_iff_right readable]
  · rw [initVfs, mount_unreadable rfl (by simpa using readable)]
    exact iff_of_false (storeVfs_error _ _) fun both => readable both.1

/-- A boot sector that is accepted has usable geometry, on which `init_vfs` does not panic, exactly
when its fields are sane. -/
theorem accepted_usable_iff {sector : List UInt8} {bpb : Fat32Bpb}
    (accepted : Fat32Bpb.fromBytes sector = some bpb) :
    (bpb.Usable ∧ ∀ device : Device, (device.sector 0).val = sector →
      ∀ device', initVfs device ≠ .error .panic device') ↔ bpb.Sane := by
  constructor
  · rintro ⟨usable, _⟩
    exact usable.sane
  · intro sane
    refine ⟨sane.usable, fun device holds device' panicked => ?_⟩
    subst holds
    exact sane.sectorsPerCluster ((initVfs_panics_iff accepted).mp ⟨device', panicked⟩).2

/-- A boot sector that is sane but for the number of sectors of a cluster. -/
def bootSector (sectorsPerCluster : UInt8) : List UInt8 :=
  zeros 11 ++ leBytes 2 512 ++ [sectorsPerCluster] ++ leBytes 2 1 ++ [1] ++ zeros 15 ++
    leBytes 4 10 ++ leBytes 4 1 ++ zeros 4 ++ leBytes 4 2 ++ zeros 34 ++ fat32Type ++
    List.replicate 3 0x20 ++ zeros 422

theorem bootSector_accepted : Fat32Bpb.Accepted (bootSector 1) ∧ Fat32Bpb.Accepted (bootSector 0) := by
  constructor
  · constructor <;> decide +kernel
  · constructor <;> decide +kernel

theorem accepted_usable_one_sector :
    Fat32Bpb.fromBytes (bootSector 1) = some (.readFrom (bootSector 1)) ∧
      ((Fat32Bpb.readFrom (bootSector 1)).Usable ∧
        ∀ device : Device, (device.sector 0).val = bootSector 1 →
          ∀ device', initVfs device ≠ .error .panic device') := by
  have accepted := Fat32Bpb.fromBytes_eq_some bootSector_accepted.1
  refine ⟨accepted, (accepted_usable_iff accepted).mpr ?_⟩
  constructor <;> decide

theorem length_bootSector (sectorsPerCluster : UInt8) :
    (bootSector sectorsPerCluster).length = 512 := by
  simp only [bootSector, List.length_append, length_zeros, length_leBytes, List.length_cons,
    List.length_nil, List.length_replicate, fat32Type]

/-- Every sector of the device is the boot sector without sectors per cluster. -/
def emptyClustersDevice : Device where
  sector _ := ⟨bootSector 0, length_bootSector 0⟩
  readable _ := true
  writable _ := true

/-- A boot sector without sectors per cluster is accepted, and `init_vfs` panics on it. -/
theorem accepted_without_sectors :
    (bootSector 0).length = 512 ∧
      Fat32Bpb.fromBytes (bootSector 0) = some (.readFrom (bootSector 0)) ∧
      ¬(Fat32Bpb.readFrom (bootSector 0)).Usable ∧
      ∃ device device' : Device, (device.sector 0).val = bootSector 0 ∧
        initVfs device = .error .panic device' := by
  have accepted := Fat32Bpb.fromBytes_eq_some bootSector_accepted.2
  have none : (Fat32Bpb.readFrom (bootSector 0)).sectorsPerCluster = 0 := by decide
  have holds : Fat32Bpb.fromBytes (emptyClustersDevice.sector 0).val = _ := accepted
  obtain ⟨device', panicked⟩ := (initVfs_panics_iff holds).mpr ⟨rfl, none⟩
  exact ⟨length_bootSector 0, accepted, fun usable => usable.sectorsPerCluster none,
    emptyClustersDevice, device', rfl, panicked⟩

end ArcadiaOs.Fs
