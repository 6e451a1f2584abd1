import ArcadiaOs.Fs.FileReading
import ArcadiaOs.Fs.Mount
import ArcadiaOs.Fs.NameLookup

/-!
Files whose chain is shorter than their size.  `read_file` says how many bytes it has copied, and
both of its callers drop the count, so the zeros behind the chain are handed out as data unless a
sector of the chain cannot be read.
-/

namespace ArcadiaOs.Fs

open Lib

namespace Fat32Fs

def ReadableCluster (fs : Fat32Fs) (device : Device) (cluster : Nat) : Prop :=
  ∀ index < fs.bpb.sectorsPerCluster.toNat,
    device.readable (wrap32 (fs.partitionLba.toNat +
      wrap32 (fs.bpb.clusterToSector cluster + index))) = true

variable {fs : Fat32Fs} {device : Device}

section Reading

variable (long : sectorSize ≤ fs.bpb.sectorBytes)
include long

theorem readSectors_ok_iff (sector count index : Nat) (buf : List UInt8)
    (room : (index + count) * fs.bpb.sectorBytes ≤ buf.length) :
    (∃ read, fs.readSectors sector count index buf device = .ok read device) ↔
      ∀ place, index ≤ place → place < index + count →
        device.readable (wrap32 (fs.partitionLba.toNat + wrap32 (sector + place))) = true := by
  induction count generalizing index buf with
  | zero => exact ⟨fun _ place above below => by omega, fun _ => ⟨buf, rfl⟩⟩
  | succ count ih =>
      have fits := window_fits room
      have window : (slice buf (index * fs.bpb.sectorBytes) fs.bpb.sectorBytes).length =
          fs.bpb.sectorBytes := length_slice fits
      simp only [readSectors]
      by_cases here : device.readable (wrap32 (fs.partitionLba.toNat + wrap32 (sector + index))) = true
      · have ran := @readSectorBuf_reads fs device (wrap32 (sector + index)) _
          (long.trans window.ge) here
        rw [Disk.bind_ok ran]
        have grown := @length_splice buf _ (index * fs.bpb.sectorBytes)
          (by rw [readSectorBuf_length ran, window]; exact fits)
        rw [ih (index + 1) _ (by rw [grown, Nat.add_right_comm, Nat.add_assoc]; exact room)]
        constructor
        · intro all place above below
          rcases Nat.eq_or_lt_of_le above with rfl | later
          · exact here
          · exact all place later (by omega)
        · exact fun all place above below => all place (by omega) (by omega)
      · refine iff_of_false ?_ fun all => here (all index (Nat.le_refl _) (by omega))
        rintro ⟨read, ran⟩
        rw [bind_apply, readSectorBuf_cases, if_neg fun both => here both.2] at ran
        cases ran

theorem readCluster_ok_iff (cluster : Nat) :
    (∃ read, fs.readCluster cluster fs.clusterZeros device = .ok read device) ↔
      fs.ReadableCluster device cluster := by
  have size : fs.clusterZeros.length = fs.bpb.clusterSizeBytes := length_zeros _
  rw [readCluster, if_neg (by omega), readSectors_ok_iff long _ _ _ _
    (by rw [Nat.zero_add, size, Fat32Bpb.clusterSizeBytes])]
  exact ⟨fun all index below => all index (Nat.zero_le _) (by omega),
    fun all index _ below => all index (by omega)⟩

theorem readFileFrom_short (clusters : List Nat) (offset remaining : Nat) (buf : List UInt8)
    (whole : buf.length = offset + remaining)
    (short : clusters.length * fs.bpb.clusterSizeBytes < remaining) :
    (∃ read, fs.readFileFrom clusters offset remaining buf device = .ok read device) ↔
      ∀ cluster ∈ clusters, fs.ReadableCluster device cluster := by
  induction clusters generalizing offset remaining buf with
  | nil => exact ⟨fun _ => nofun, fun _ => ⟨_, rfl⟩⟩
  | cons cluster rest ih =>
      rw [List.length_cons, Nat.succ_mul] at short
      have more : ¬(remaining = 0 ∨ offset ≥ buf.length) := by omega
      have copied : min (min remaining fs.bpb.clusterSizeBytes) (buf.length - offset) =
          fs.bpb.clusterSizeBytes := by omega
      rw [readFileFrom, if_neg more]
      by_cases here : ∃ read, fs.readCluster cluster fs.clusterZeros device = .ok read device
      · obtain ⟨read, ran⟩ := here
        have length := readCluster_length ran
        have grown : (splice buf offset (read.take fs.bpb.clusterSizeBytes)).length = buf.length :=
          length_splice (by rw [List.length_take]; omega)
        rw [Disk.bind_ok ran]
        simp only [copied]
        rw [ih _ _ _ (by rw [grown]; omega) (by omega), List.forall_mem_cons,
          ← readCluster_ok_iff long cluster]
        exact ⟨fun all => ⟨⟨read, ran⟩, all⟩, And.right⟩
      · refine iff_of_false ?_ fun all =>
          here ((readCluster_ok_iff long cluster).mpr (all cluster List.mem_cons_self))
        rintro ⟨result, ran⟩
        obtain ⟨read, middle, first, _⟩ := Lib.bind_ok.mp ran
        obtain rfl : middle = device := Disk.ReadOnly.ok (readCluster_readOnly fs cluster _) first
        exact here ⟨read, first⟩

end Reading

theorem readCluster_calm (cluster : Nat) (buf : List UInt8) : (fs.readCluster cluster buf).Calm := by
  have sectors (sector count index : Nat) (buf : List UInt8) :
      (fs.readSectors sector count index buf).Calm := by
    induction count generalizing index buf with
    | zero => exact .pure buf
    | succ count ih => exact .bind (readSectorBuf_calm fs _ _) fun part => ih _ _
  rw [readCluster]
  split
  · exact .fail _
  · exact sectors _ _ _ _

theorem readFileFrom_calm (clusters : List Nat) (offset remaining : Nat) (buf : List UInt8) :
    (fs.readFileFrom clusters offset remaining buf).Calm := by
  induction clusters generalizing offset remaining buf with
  | nil => exact .pure _
  | cons cluster rest ih =>
      rw [readFileFrom]
      split
      · exact .pure _
      · exact .bind (readCluster_calm cluster _) fun part => ih _ _ _

theorem readFile_short {start size : Nat} {chain : List Nat} {buf : List UInt8}
    (ran : fs.readChain start device = .ok chain device) (whole : buf.length = size)
    (short : chain.length * fs.bpb.clusterSizeBytes < size) :
    (∃ read, fs.readFile start size buf device = .ok read device) ↔
      ∀ cluster ∈ chain, fs.ReadableCluster device cluster := by
  rw [readFile, Disk.bind_ok ran]
  rcases readChain_long ran with rfl | long
  · exact ⟨fun _ => List.forall_mem_nil _, fun _ => ⟨_, rfl⟩⟩
  · exact readFileFrom_short long chain 0 size buf (by omega) short

end Fat32Fs

namespace VfsManager

/-- The path leads to a regular file whose chain holds less than its size. -/
structure Truncated (vfs : VfsManager) (fs : Fat32Fs) (device : Device) (path : Path)
    (entry : Fat32DirEntry) (chain : List Nat) : Prop where
  mounted : vfs.fatFs = some fs
  leads : ∃ parent name, vfs.resolveParent path device = .ok (parent, name) device ∧ name ≠ [] ∧
    fs.findEntry parent (toUpper83 name) device = .ok (some entry) device
  regular : entry.isDirectory = false
  read : fs.readChain entry.firstCluster device = .ok chain device
  short : chain.length * fs.bpb.clusterSizeBytes < entry.fileSize.toNat

structure OpenOn (vfs : VfsManager) (entry : Fat32DirEntry) (fd : Nat) (file : FileDescriptor) : Prop where
  listed : vfs.fileTable.find? (fun other => other.fd = fd) = some file
  size : file.size = entry.fileSize.toNat
  cluster : file.cluster = entry.firstCluster

/-- Reads of the whole file fail, and so do reads of a range that reaches beyond the chain; what is
read comes from the chain. -/
structure TruncationReported (vfs : VfsManager) (fs : Fat32Fs) (device : Device) (path : Path)
    (entry : Fat32DirEntry) (chain : List Nat) : Prop where
  content : ∃ reason device', vfs.readFileContent path device = .error (.error reason) device'
  beyond : ∀ fd file room, vfs.OpenOn entry fd file →
    0 < min room (file.size - file.pos) →
    chain.length * fs.bpb.clusterSizeBytes < file.pos + min room (file.size - file.pos) →
    ∃ reason device', vfs.read fd room device = .error (.error reason) device'
  fromChain : ∀ fd file room, vfs.OpenOn entry fd file → ∀ bytes device',
    vfs.read fd room device = .ok bytes device' →
      bytes = slice (chain.flatMap (fs.clusterImage device)) file.pos bytes.length

variable {vfs : VfsManager} {fs : Fat32Fs} {device : Device} {path : Path} {entry : Fat32DirEntry}
  {chain : List Nat}

theorem fs_mounted (mounted : vfs.fatFs = some fs) : vfs.fs = pure fs := by
  rw [VfsManager.fs, mounted]

theorem Truncated.readFileContent_eq (truncated : vfs.Truncated fs device path entry chain) :
    vfs.readFileContent path device =
      ((fs.readFile entry.firstCluster entry.fileSize.toNat (zeros entry.fileSize.toNat)).mapErr
        (fun _ => VfsError.ioError) >>= fun read => pure read.2) device := by
  obtain ⟨parent, name, resolved, named, found⟩ := truncated.leads
  have sized : entry.fileSize ≠ 0 := by
    intro zero
    have short := truncated.short
    simp [zero] at short
  rw [readFileContent, fs_mounted truncated.mounted, pure_bind, Disk.bind_ok resolved]
  simp only [if_neg named]
  rw [Disk.bind_ok resolved, Disk.bind_ok (Disk.mapErr_ok found _)]
  simp only [truncated.regular, Bool.false_eq_true, if_false, if_neg sized]

theorem Truncated.fails (truncated : vfs.Truncated fs device path entry chain) {cluster : Nat}
    (member : cluster ∈ chain) (unreadable : ¬fs.ReadableCluster device cluster)
    {buf : List UInt8} (whole : buf.length = entry.fileSize.toNat) {α : Type}
    (next : Nat × List UInt8 → Disk VfsError α) :
    ∃ reason device', ((fs.readFile entry.firstCluster entry.fileSize.toNat buf).mapErr
      (fun _ => VfsError.ioError) >>= next) device = .error (.error reason) device' := by
  have reads := (Fat32Fs.readFile_short truncated.read whole truncated.short).mp
  have calm := @Fat32Fs.readFileFrom_calm fs chain 0 entry.fileSize.toNat buf device
  cases ran : fs.readFile entry.firstCluster entry.fileSize.toNat buf device with
  | ok read middle =>
      obtain rfl : middle = device := Disk.ReadOnly.ok (Fat32Fs.readFile_readOnly fs _ _ _) ran
      exact absurd (reads ⟨read, ran⟩ cluster member) unreadable
  | error halt middle =>
      cases halt with
      | panic =>
          rw [Fat32Fs.readFile, Disk.bind_ok truncated.read] at ran
          exact absurd ran (calm middle)
      | error reason => exact ⟨.ioError, middle, by simp only [bind_apply, Disk.mapErr, ran]⟩

/-- A truncated file is reported exactly when a sector of its chain cannot be read. -/
theorem truncation_reported_iff (truncated : vfs.Truncated fs device path entry chain) :
    vfs.TruncationReported fs device path entry chain ↔
      ∃ cluster ∈ chain, ¬fs.ReadableCluster device cluster := by
  constructor
  · intro reported
    by_contra readable
    push Not at readable
    obtain ⟨read, ran⟩ := (Fat32Fs.readFile_short truncated.read
      (length_zeros entry.fileSize.toNat) truncated.short).mpr readable
    obtain ⟨reason, device', failed⟩ := reported.content
    rw [truncated.readFileContent_eq, Disk.bind_ok (Disk.mapErr_ok ran _)] at failed
    cases failed
  · rintro ⟨cluster, member, unreadable⟩
    have fails {file : FileDescriptor} {fd room : Nat} (opened : vfs.OpenOn entry fd file)
        (left : file.size - file.pos ≠ 0) :
        ∃ reason device', vfs.read fd room device = .error (.error reason) device' := by
      simp only [read, opened.listed]
      rw [fs_mounted truncated.mounted, pure_bind]
      simp only [if_neg left]
      rw [opened.cluster, opened.size]
      exact truncated.fails member unreadable (length_zeros _) _
    refine ⟨?_, ?_, ?_⟩
    · rw [truncated.readFileContent_eq]
      exact truncated.fails member unreadable (length_zeros _) _
    · intro fd file room opened some _
      exact fails opened (by omega)
    · intro fd file room opened bytes device' ran
      by_cases left : file.size - file.pos = 0
      · -- Nothing is left to read, and nothing is read.
        simp only [read, opened.listed] at ran
        rw [fs_mounted truncated.mounted, pure_bind] at ran
        simp only [if_pos left] at ran
        injection ran with empty _
        rw [← empty]
        simp [slice]
      · obtain ⟨reason, stopped, failed⟩ := fails opened left
        rw [failed] at ran
        cases ran

end VfsManager

/-! The file `/A` of 600 bytes in the one cluster 3, whose table entry is free. -/

def shortEntry : Fat32DirEntry := VfsManager.newEntry [0x41] 0x20 3 600

def shortDevice : Device where
  sector lba :=
    if lba = 2 then filledSector 0 shortEntry.toBytes (by decide)
    else if lba = 3 then filledSector 0 (List.replicate 512 0x61) (by decide +kernel)
    else blankDevice.sector lba
  readable _ := true
  writable _ := true

def shortVfs : VfsManager :=
  { blankSession.vfs with fileTable := [⟨1, [0x2F, 0x41], .read, 512, 600, 3⟩] }

theorem short_truncated : shortVfs.Truncated smallFs shortDevice [0x2F, 0x41] shortEntry [3] := by
  refine ⟨rfl, ⟨2, [0x41], ?_, by simp, ?_⟩, by decide, ?_, by decide⟩
  · exact (shortVfs.resolveParent_readOnly [0x2F, 0x41]).answer_ok_iff.mp (by decide)
  · exact (smallFs.findEntry_readOnly 2 _).answer_ok_iff.mp (by decide +kernel)
  · exact (smallFs.readChain_readOnly _).answer_ok_iff.mp (by decide +kernel)

theorem truncation_reported_short :
    shortVfs.TruncationReported smallFs shortDevice [0x2F, 0x41] shortEntry [3] ↔
      ∃ cluster ∈ [3], ¬smallFs.ReadableCluster shortDevice cluster :=
  VfsManager.truncation_reported_iff short_truncated

/-- The bytes behind the chain are handed out as zeros. -/
theorem truncated_file_zeros :
    shortVfs.Truncated smallFs shortDevice [0x2F, 0x41] shortEntry [3] ∧
      shortVfs.readFileContent [0x2F, 0x41] shortDevice =
        .ok (List.replicate 512 0x61 ++ zeros 88) shortDevice ∧
      shortVfs.read 1 10 shortDevice = .ok (zeros 10) shortDevice :=
  ⟨short_truncated,
    (shortVfs.readFileContent_readOnly [0x2F, 0x41]).answer_ok_iff.mp (by decide +kernel),
    (shortVfs.read_readOnly 1 10).answer_ok_iff.mp (by decide +kernel)⟩

end ArcadiaOs.Fs
