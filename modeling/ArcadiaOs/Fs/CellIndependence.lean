import ArcadiaOs.Fs.ClusterOwnership

/-!
Entries of the allocation table and clusters are independent cells: a write is read back from
its own cell, and from no other one.
-/

namespace ArcadiaOs.Fs

open Lib

namespace Fat32Fs

structure EntryWritten (fs : Fat32Fs) (cluster value : Nat) (device device' : Device) : Prop where
  reads : fs.readFatEntry cluster device' = .ok (value % 2 ^ 28) device'
  top : fs.fatWord device' cluster / 2 ^ 28 = fs.fatWord device cluster / 2 ^ 28
  copies : ∀ copy < fs.bpb.numFats.toNat, device'.sector (fs.fatCopyLba (cluster / 128) copy) =
    device'.sector (fs.fatCopyLba (cluster / 128) 0)
  entries : ∀ other, fs.Valid other → other ≠ cluster →
    (fs.readFatEntry other).answer device' = (fs.readFatEntry other).answer device
  clusters : ∀ other, fs.Valid other → ∀ into,
    (fs.readCluster other into).answer device' = (fs.readCluster other into).answer device

structure ClusterWritten (fs : Fat32Fs) (cluster : Nat) (buf : List UInt8) (device device' : Device) :
    Prop where
  long : fs.bpb.clusterSizeBytes ≤ buf.length
  reads : (∀ place < fs.bpb.sectorsPerCluster.toNat,
      device.readable (fs.dataLba cluster place) = true) →
    ∀ into, fs.bpb.clusterSizeBytes ≤ into.length → fs.readCluster cluster into device' =
      .ok (buf.take fs.bpb.clusterSizeBytes ++ into.drop fs.bpb.clusterSizeBytes) device'
  clusters : ∀ other, fs.Valid other → other ≠ cluster → ∀ into,
    (fs.readCluster other into).answer device' = (fs.readCluster other into).answer device
  copies : ∀ copy < fs.bpb.numFats.toNat, ∀ fatSector < fs.bpb.fatSize32.toNat,
    device'.sector (fs.fatCopyLba fatSector copy) = device.sector (fs.fatCopyLba fatSector copy)
  reserved : ∀ lba < fs.partitionLba.toNat + fs.bpb.reservedSectorCount.toNat,
    device'.sector lba = device.sector lba

section Effects

variable {fs : Fat32Fs} (consistent : fs.Consistent) {cluster : Nat} (valid : fs.Valid cluster)
  {device device' : Device}
include consistent valid

theorem entry_written {value : Nat} (ran : fs.writeFatEntry cluster value device = .ok () device') :
    fs.EntryWritten cluster value device device' := by
  have inside := consistent.covered cluster valid
  obtain ⟨readable, stored, rewritten⟩ := writeFatEntry_effect consistent inside ran
  have word := writeFatEntry_word consistent inside ran
  constructor
  case reads =>
    rw [readFatEntry_cases consistent inside, rewritten.readable, if_pos readable, word,
      mergedWord_mod]
  case top => rw [word, mergedWord_div]
  case copies =>
    intro copy bound
    apply Subtype.ext
    rw [stored copy bound, stored 0 consistent.copies]
  case entries =>
    intro other validOther apart
    have insideOther := consistent.covered other validOther
    rw [Disk.answer, Disk.answer, readFatEntry_cases consistent insideOther,
      readFatEntry_cases consistent insideOther, rewritten.readable,
      writeFatEntry_word_other consistent inside insideOther apart ran]
    by_cases readableOther : device.readable (fs.fatLba other) = true
    · rw [if_pos readableOther, if_pos readableOther]
    · rw [if_neg readableOther, if_neg readableOther]
  case clusters =>
    intro other validOther into
    apply readCluster_same consistent validOther
    intro place _
    exact ⟨writeFatEntry_sector_data consistent inside ran other place, by rw [rewritten.readable]⟩

theorem cluster_written {buf : List UInt8}
    (ran : fs.writeCluster cluster buf device = .ok () device') :
    fs.ClusterWritten cluster buf device device' := by
  obtain ⟨long, stored, rewritten⟩ := writeCluster_effect consistent valid ran
  constructor
  case long => exact long
  case reads =>
    intro readable into enough
    rw [readCluster_reads consistent valid (by rw [rewritten.readable]; exact readable) enough, stored]
  case clusters =>
    intro other validOther apart into
    apply readCluster_same consistent validOther
    intro place bound
    exact ⟨writeCluster_sector_other consistent valid ran validOther apart bound,
      by rw [rewritten.readable]⟩
  case copies =>
    intro copy bound fatSector inside
    apply writeCluster_kept_before consistent valid ran
    have last := copy_bound fs bound
    rw [fatCopyLba]
    omega
  case reserved =>
    intro lba before
    apply writeCluster_kept_before consistent valid ran
    omega

end Effects

/-- Writes that succeed change their own cell only, and on a device that never fails they succeed. -/
theorem cells_independent (fs : Fat32Fs) (consistent : fs.Consistent) (cluster : Nat)
    (valid : fs.Valid cluster) (device : Device) :
    (∀ value device', fs.writeFatEntry cluster value device = .ok () device' →
        fs.EntryWritten cluster value device device') ∧
      (∀ buf device', fs.writeCluster cluster buf device = .ok () device' →
        fs.ClusterWritten cluster buf device device') ∧
      (device.Healthy →
        (∀ value, ∃ device', fs.writeFatEntry cluster value device = .ok () device') ∧
        ∀ buf : List UInt8, fs.bpb.clusterSizeBytes ≤ buf.length →
          ∃ device', fs.writeCluster cluster buf device = .ok () device') := by
  refine ⟨fun value device' => entry_written consistent valid,
    fun buf device' => cluster_written consistent valid, fun healthy => ⟨fun value => ?_, ?_⟩⟩
  · exact writeFatEntry_writes consistent (consistent.covered cluster valid) value healthy
  · exact fun buf => writeCluster_writes consistent valid fun _ _ => (healthy _).2

end Fat32Fs

theorem cells_independent_root :
    (∃ device', smallFs.writeFatEntry 2 5 blankDevice = .ok () device' ∧
        smallFs.EntryWritten 2 5 blankDevice device') ∧
      ∃ device', smallFs.writeCluster 2 (zeros 600) blankDevice = .ok () device' ∧
        smallFs.ClusterWritten 2 (zeros 600) blankDevice device' := by
  have cells := Fat32Fs.cells_independent smallFs smallFs_geometry.consistent 2 (by decide) blankDevice
  have long : smallFs.bpb.clusterSizeBytes ≤ (zeros 600).length := by
    rw [length_zeros]
    decide
  obtain ⟨entry, cluster, runs⟩ := cells
  obtain ⟨entryRuns, clusterRuns⟩ := runs fun _ => ⟨rfl, rfl⟩
  obtain ⟨device, wrote⟩ := entryRuns 5
  obtain ⟨device', wroteCluster⟩ := clusterRuns (zeros 600) long
  exact ⟨⟨device, wrote, entry 5 device wrote⟩,
    device', wroteCluster, cluster _ device' wroteCluster⟩

end ArcadiaOs.Fs
