import ArcadiaOs.Fs.Cells

/-!
A volume as the driver sees it: the links of its allocation table and the bytes of
its clusters.  On a device that never fails, with a consistent geometry, the four
primitives of the driver read and write exactly one cell of this view.
-/

namespace ArcadiaOs.Fs

open Lib

structure Volume where
  fat : Nat → Nat
  data : Nat → List UInt8

namespace Volume

def setFat (volume : Volume) (cluster value : Nat) : Volume :=
  { volume with fat := Function.update volume.fat cluster value }

def setData (volume : Volume) (cluster : Nat) (bytes : List UInt8) : Volume :=
  { volume with data := Function.update volume.data cluster bytes }

@[simp] theorem setFat_data (volume : Volume) (cluster value : Nat) :
    (volume.setFat cluster value).data = volume.data := rfl

@[simp] theorem setData_fat (volume : Volume) (cluster : Nat) (bytes : List UInt8) :
    (volume.setData cluster bytes).fat = volume.fat := rfl

@[simp] theorem setFat_fat_same (volume : Volume) (cluster value : Nat) :
    (volume.setFat cluster value).fat cluster = value := Function.update_self ..

@[simp] theorem setData_data_same (volume : Volume) (cluster : Nat) (bytes : List UInt8) :
    (volume.setData cluster bytes).data cluster = bytes := Function.update_self ..

theorem setFat_fat_other (volume : Volume) {cluster other : Nat} (value : Nat)
    (apart : other ≠ cluster) : (volume.setFat cluster value).fat other = volume.fat other :=
  Function.update_of_ne apart ..

theorem setData_data_other (volume : Volume) {cluster other : Nat} (bytes : List UInt8)
    (apart : other ≠ cluster) : (volume.setData cluster bytes).data other = volume.data other :=
  Function.update_of_ne apart ..

end Volume

namespace Fat32Fs

/-- 512-byte sectors, regions in order inside `u32` sector numbers, a table that covers every
cluster, and cluster numbers below the reserved values of a table entry. -/
structure Geometry (fs : Fat32Fs) : Prop where
  sectorBytes : fs.bpb.sectorBytes = sectorSize
  clusterSectors : 1 ≤ fs.bpb.sectorsPerCluster.toNat
  copies : 1 ≤ fs.bpb.numFats.toNat
  regions : fs.bpb.reservedSectorCount.toNat + fs.bpb.numFats.toNat * fs.bpb.fatSize32.toNat
    ≤ fs.bpb.totalSectors32.toNat
  addressable : fs.partitionLba.toNat + fs.bpb.totalSectors32.toNat ≤ 2 ^ 32
  covered : fs.bpb.totalClusters + 2 ≤ fs.bpb.fatSize32.toNat * 128
  numbered : fs.bpb.totalClusters + 2 ≤ fat32Bad

def view (fs : Fat32Fs) (device : Device) : Volume where
  fat cluster := if fs.Valid cluster then fs.fatWord device cluster % 2 ^ 28 else 0
  data cluster := if fs.Valid cluster then fs.clusterBytes device cluster else fs.clusterZeros

section Arithmetic

variable {fs : Fat32Fs}

theorem Geometry.dataStart (geometry : fs.Geometry) : fs.bpb.dataStartSector =
    fs.bpb.reservedSectorCount.toNat + fs.bpb.numFats.toNat * fs.bpb.fatSize32.toNat := by
  have regions := geometry.regions
  have total := fs.bpb.totalSectors32.toNat_lt
  simp only [Fat32Bpb.dataStartSector, wrap32]
  rw [Nat.mod_eq_of_lt (by omega), Nat.mod_eq_of_lt (by omega)]

theorem Geometry.clusterSize (geometry : fs.Geometry) :
    fs.bpb.clusterSizeBytes = fs.bpb.sectorsPerCluster.toNat * 512 := by
  rw [Fat32Bpb.clusterSizeBytes, geometry.sectorBytes, sectorSize]

theorem Geometry.entries (geometry : fs.Geometry) : fs.entriesPerSector = 128 := by
  rw [entriesPerSector, geometry.sectorBytes, sectorSize]

theorem Geometry.consistent (geometry : fs.Geometry) : fs.Consistent := by
  refine ⟨geometry.sectorBytes, geometry.clusterSectors, geometry.copies, ?_, fun cluster valid => ?_⟩
  · have regions := geometry.regions
    have addressable := geometry.addressable
    have data : fs.bpb.totalClusters * fs.bpb.sectorsPerCluster.toNat ≤ fs.bpb.dataSectors :=
      Nat.div_mul_le_self _ _
    rw [Fat32Bpb.dataSectors, geometry.dataStart] at data
    omega
  · have covered := geometry.covered
    have bound := valid.2
    omega

end Arithmetic

section Sectors

variable {fs : Fat32Fs} {device : Device}

theorem readSectorBuf_ok (healthy : device.Healthy) {lba : Nat} {buf : List UInt8}
    (long : sectorSize ≤ buf.length) : fs.readSectorBuf lba buf device =
      .ok (splice buf 0 (device.sector (wrap32 (fs.partitionLba.toNat + lba))).val) device :=
  readSectorBuf_reads long (healthy _).1

theorem writeSectorBuf_ok (fs : Fat32Fs) (healthy : device.Healthy) (lba : Nat) {buf : List UInt8}
    (long : sectorSize ≤ buf.length) : ∃ device', fs.writeSectorBuf lba buf device = .ok () device' ∧
      device'.Healthy ∧
      (device'.sector (wrap32 (fs.partitionLba.toNat + lba))).val = buf.take sectorSize ∧
      ∀ other, other ≠ wrap32 (fs.partitionLba.toNat + lba) →
        device'.sector other = device.sector other := by
  obtain ⟨device', wrote⟩ := writeSectorBuf_writes fs lba long (healthy _).2
  obtain ⟨stored, rewritten⟩ := writeSectorBuf_effect wrote
  exact ⟨device', wrote, rewritten.healthy healthy, stored, rewritten.kept⟩

theorem readCluster_ok (geometry : fs.Geometry) (healthy : device.Healthy) {cluster : Nat}
    (valid : fs.Valid cluster) :
    fs.readCluster cluster fs.clusterZeros device = .ok ((fs.view device).data cluster) device := by
  have long : fs.clusterZeros.length = fs.bpb.clusterSizeBytes := length_zeros _
  rw [readCluster_reads geometry.consistent valid (fun _ _ => (healthy _).1) long.ge,
    List.drop_of_length_le long.le, List.append_nil]
  simp only [view, if_pos valid]

theorem writeCluster_ok (geometry : fs.Geometry) (healthy : device.Healthy) {cluster : Nat}
    (valid : fs.Valid cluster) {buf : List UInt8} (long : buf.length = fs.bpb.clusterSizeBytes) :
    ∃ device', fs.writeCluster cluster buf device = .ok () device' ∧ device'.Healthy ∧
      fs.view device' = (fs.view device).setData cluster buf := by
  have consistent := geometry.consistent
  obtain ⟨device', wrote⟩ := writeCluster_writes consistent valid (fun _ _ => (healthy _).2) long.ge
  obtain ⟨-, stored, rewritten⟩ := writeCluster_effect consistent valid wrote
  refine ⟨device', wrote, rewritten.healthy healthy, ?_⟩
  have table : (fs.view device').fat = (fs.view device).fat := by
    funext other
    by_cases validOther : fs.Valid other
    · simp only [view, if_pos validOther]
      rw [writeCluster_word consistent valid wrote (consistent.covered other validOther)]
    · simp only [view, if_neg validOther]
  have contents : (fs.view device').data = Function.update (fs.view device).data cluster buf := by
    funext other
    by_cases same : other = cluster
    · subst same
      simp only [view, if_pos valid, Function.update_self]
      rw [stored, List.take_of_length_le long.le]
    · rw [Function.update_of_ne same]
      by_cases validOther : fs.Valid other
      · simp only [view, if_pos validOther]
        exact writeCluster_bytes_other consistent valid wrote validOther same
      · simp only [view, if_neg validOther]
  simp only [Volume.setData, ← table, ← contents]

theorem readFatEntry_ok (geometry : fs.Geometry) (healthy : device.Healthy) {cluster : Nat}
    (valid : fs.Valid cluster) :
    fs.readFatEntry cluster device = .ok ((fs.view device).fat cluster) device := by
  rw [readFatEntry_cases geometry.consistent (geometry.consistent.covered cluster valid),
    if_pos (healthy _).1]
  simp only [view, if_pos valid]

theorem writeFatEntry_ok (geometry : fs.Geometry) (healthy : device.Healthy) {cluster : Nat}
    (valid : fs.Valid cluster) (value : Nat) :
    ∃ device', fs.writeFatEntry cluster value device = .ok () device' ∧ device'.Healthy ∧
      fs.view device' = (fs.view device).setFat cluster (value % 2 ^ 28) := by
  have consistent := geometry.consistent
  have inside := consistent.covered cluster valid
  obtain ⟨device', wrote⟩ := writeFatEntry_writes consistent inside value healthy
  obtain ⟨-, -, rewritten⟩ := writeFatEntry_effect consistent inside wrote
  refine ⟨device', wrote, rewritten.healthy healthy, ?_⟩
  have table : (fs.view device').fat =
      Function.update (fs.view device).fat cluster (value % 2 ^ 28) := by
    funext other
    by_cases same : other = cluster
    · subst same
      simp only [view, if_pos valid, Function.update_self]
      rw [writeFatEntry_word consistent inside wrote, mergedWord_mod]
    · rw [Function.update_of_ne same]
      by_cases validOther : fs.Valid other
      · simp only [view, if_pos validOther]
        rw [writeFatEntry_word_other consistent inside (consistent.covered other validOther) same wrote]
      · simp only [view, if_neg validOther]
  have contents : (fs.view device').data = (fs.view device).data := by
    funext other
    simp only [view, writeFatEntry_bytes consistent inside wrote]
  simp only [Volume.setFat, ← table, ← contents]

theorem length_view_data (geometry : fs.Geometry) (device : Device) (cluster : Nat) :
    ((fs.view device).data cluster).length = fs.bpb.clusterSizeBytes := by
  by_cases valid : fs.Valid cluster
  · simp only [view, if_pos valid, clusterBytes, List.length_flatMap]
    have sectors : (fun index => (device.sector (fs.dataLba cluster index)).val.length) =
        fun _ => sectorSize := by
      funext index
      exact (device.sector _).property
    rw [sectors, List.map_const', List.length_range, List.sum_replicate_nat,
      Fat32Bpb.clusterSizeBytes, geometry.sectorBytes]
  · simp only [view, if_neg valid, clusterZeros, length_zeros]

end Sectors

end Fat32Fs

end ArcadiaOs.Fs
