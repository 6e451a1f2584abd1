import ArcadiaOs.Fs.Directory
import ArcadiaOs.Fs.ReadOnly

/-!
The driver at any cluster number.  On a device that never fails it goes on with
whatever the sectors hold, be it a directory, the data of a file or nothing at all.
-/

namespace ArcadiaOs.Fs

open Lib

namespace Disk

variable {ε ε' α β : Type}

/-- On a device that never fails the action succeeds, and the device stays one. -/
def Succeeds (holds : α → Prop) (action : Disk ε α) : Prop :=
  ∀ device, device.Healthy →
    ∃ value device', action device = .ok value device' ∧ holds value ∧ device'.Healthy

namespace Succeeds

variable {holds : α → Prop} {holds' : β → Prop}

theorem pure {value : α} (held : holds value) :
    Succeeds holds (Pure.pure value : Disk ε α) :=
  fun device healthy => ⟨value, device, rfl, held, healthy⟩

theorem bind {action : Disk ε α} {next : α → Disk ε β} (first : Succeeds holds action)
    (second : ∀ value, holds value → Succeeds holds' (next value)) :
    Succeeds holds' (action >>= next) := by
  intro device healthy
  obtain ⟨value, middle, ran, held, middleHealthy⟩ := first device healthy
  obtain ⟨result, device', ranNext, held', healthy'⟩ := second value held middle middleHealthy
  exact ⟨result, device', by rw [Disk.bind_ok ran, ranNext], held', healthy'⟩

theorem mapErr {action : Disk ε α} (succeeds : Succeeds holds action) (convert : ε → ε') :
    Succeeds holds (action.mapErr convert) := by
  intro device healthy
  obtain ⟨value, device', ran, held, healthy'⟩ := succeeds device healthy
  exact ⟨value, device', Disk.mapErr_ok ran convert, held, healthy'⟩

theorem answer {action : Disk ε α} (succeeds : Succeeds holds action) (reads : action.ReadOnly)
    {device : Device} (healthy : device.Healthy) :
    ∃ value, action device = .ok value device ∧ holds value := by
  obtain ⟨value, device', ran, held, _⟩ := succeeds device healthy
  have same := reads device
  rw [ran] at same
  obtain rfl : device' = device := same
  exact ⟨value, ran, held⟩

end Succeeds

end Disk

namespace Fat32Fs

variable {fs : Fat32Fs} (geometry : fs.Geometry)

/-- No entry of a directory for itself or for its parent. -/
def Plain (listed : List DirEntryInfo) : Prop :=
  ∀ info ∈ listed, info.name ≠ [0x2E] ∧ info.name ≠ [0x2E, 0x2E]

theorem listSlots_plain (buf : List UInt8) (indices : List Nat) :
    Plain (listSlots buf indices).1 := by
  induction indices with
  | nil => nofun
  | cons index rest ih =>
      intro info member
      simp only [listSlots] at member
      split at member
      · cases member
      split at member
      · exact ih info member
      split at member
      · exact ih info member
      · rename_i named
        rcases List.mem_cons.mp member with rfl | later
        · exact not_or.mp named
        · exact ih info later

theorem searchSlots_mem {judge : Fat32DirEntry → Verdict} {buf : List UInt8} {indices : List Nat}
    {index : Nat} (found : searchSlots judge buf indices = .taken index) : index ∈ indices := by
  induction indices with
  | nil => cases found
  | cons first rest ih =>
      simp only [searchSlots] at found
      split at found
      · cases found
      · injection found with same
        exact same ▸ List.mem_cons_self
      · exact List.mem_cons_of_mem _ (ih found)

theorem readSectorBuf_succeeds (fs : Fat32Fs) (lba : Nat) {buf : List UInt8}
    (long : sectorSize ≤ buf.length) :
    Disk.Succeeds (fun read => read.length = buf.length) (fs.readSectorBuf lba buf) := by
  intro device healthy
  refine ⟨_, device, readSectorBuf_ok healthy long, ?_, healthy⟩
  apply length_splice
  rw [Nat.zero_add, (device.sector _).property]
  exact long

theorem writeSectorBuf_succeeds (fs : Fat32Fs) (lba : Nat) {buf : List UInt8}
    (long : sectorSize ≤ buf.length) :
    Disk.Succeeds (fun _ => True) (fs.writeSectorBuf lba buf) := by
  intro device healthy
  obtain ⟨device', ran, healthy', _⟩ := writeSectorBuf_ok fs healthy lba long
  exact ⟨(), device', ran, trivial, healthy'⟩

include geometry

theorem sectorPart {buf : List UInt8} (long : buf.length = fs.bpb.clusterSizeBytes) {count index : Nat}
    (bound : index + (count + 1) ≤ fs.bpb.sectorsPerCluster.toNat) :
    (slice buf (index * fs.bpb.sectorBytes) fs.bpb.sectorBytes).length = sectorSize ∧
      index * fs.bpb.sectorBytes + sectorSize ≤ buf.length := by
  have stride : (index + 1) * sectorSize ≤ fs.bpb.sectorsPerCluster.toNat * sectorSize :=
    Nat.mul_le_mul_right _ (by omega)
  rw [Nat.add_mul, Nat.one_mul] at stride
  have size := geometry.clusterSize
  rw [geometry.sectorBytes]
  have inside : index * sectorSize + sectorSize ≤ buf.length := by
    rw [long, size]
    exact stride
  exact ⟨length_slice inside, inside⟩

theorem readSectors_succeeds (sector count index : Nat) {buf : List UInt8}
    (long : buf.length = fs.bpb.clusterSizeBytes)
    (bound : index + count ≤ fs.bpb.sectorsPerCluster.toNat) :
    Disk.Succeeds (fun read => read.length = fs.bpb.clusterSizeBytes)
      (fs.readSectors sector count index buf) := by
  induction count generalizing index buf with
  | zero => exact .pure long
  | succ count ih =>
      obtain ⟨part, inside⟩ := sectorPart geometry long bound
      refine .bind (fs.readSectorBuf_succeeds _ part.ge) fun read same => ih _ ?_ (by omega)
      rw [length_splice, long]
      rw [same, part]
      exact inside

theorem readCluster_succeeds (cluster : Nat) :
    Disk.Succeeds (fun read => read.length = fs.bpb.clusterSizeBytes)
      (fs.readCluster cluster fs.clusterZeros) := by
  have long : fs.clusterZeros.length = fs.bpb.clusterSizeBytes := length_zeros _
  rw [readCluster, if_neg (by omega)]
  exact readSectors_succeeds geometry _ _ _ long (by omega)

theorem writeSectors_succeeds (sector count index : Nat) {buf : List UInt8}
    (long : buf.length = fs.bpb.clusterSizeBytes)
    (bound : index + count ≤ fs.bpb.sectorsPerCluster.toNat) :
    Disk.Succeeds (fun _ => True) (fs.writeSectors sector buf count index) := by
  induction count generalizing index with
  | zero => exact .pure trivial
  | succ count ih =>
      obtain ⟨part, _⟩ := sectorPart geometry long bound
      exact .bind (fs.writeSectorBuf_succeeds _ part.ge) fun _ _ => ih _ (by omega)

theorem writeCluster_succeeds (cluster : Nat) {buf : List UInt8}
    (long : buf.length = fs.bpb.clusterSizeBytes) :
    Disk.Succeeds (fun _ => True) (fs.writeCluster cluster buf) := by
  rw [writeCluster, if_neg (by omega)]
  exact writeSectors_succeeds geometry _ _ _ long (by omega)

theorem entriesPerSector_ne_zero : fs.entriesPerSector ≠ 0 := by
  rw [geometry.entries]
  decide

theorem readFatEntry_succeeds (cluster : Nat) :
    Disk.Succeeds (fun _ => True) (fs.readFatEntry cluster) := by
  rw [readFatEntry, if_neg (entriesPerSector_ne_zero geometry)]
  refine .bind (fs.readSectorBuf_succeeds _ ?_) fun _ _ => .pure trivial
  rw [length_zeros, geometry.sectorBytes]

theorem readChainFrom_succeeds (turns : Nat) (chain : List Nat) (current : Nat) :
    Disk.Succeeds (fun _ => True) (fs.readChainFrom turns chain current) := by
  induction turns generalizing chain current with
  | zero => exact .pure trivial
  | succ turns ih =>
      rw [readChainFrom]
      split
      · exact .pure trivial
      refine .bind (readFatEntry_succeeds geometry _) fun next _ => ?_
      split
      · exact .pure trivial
      split
      · exact .pure trivial
      split
      · exact .pure trivial
      · exact ih _ _

theorem readChain_succeeds (start : Nat) : Disk.Succeeds (fun _ => True) (fs.readChain start) :=
  readChainFrom_succeeds geometry _ _ _

theorem listChain_succeeds (clusters : List Nat) :
    Disk.Succeeds Plain (fs.listChain clusters) := by
  induction clusters with
  | nil => exact .pure nofun
  | cons cluster rest ih =>
      refine .bind (readCluster_succeeds geometry _) fun buf _ => ?_
      have front := listSlots_plain buf fs.slotIndices
      simp only
      split
      · exact .pure front
      · refine .bind ih fun later plain => .pure ?_
        intro info member
        rcases List.mem_append.mp member with here | there
        · exact front info here
        · exact plain info there

theorem readDirEntries_succeeds (dir : Nat) : Disk.Succeeds Plain (fs.readDirEntries dir) :=
  .bind (readChain_succeeds geometry _) fun _ _ => listChain_succeeds geometry _

theorem searchChain_succeeds (judge : Fat32DirEntry → Verdict) (clusters : List Nat) :
    Disk.Succeeds (fun found => ∀ cluster buf index, found = .taken cluster buf index →
        buf.length = fs.bpb.clusterSizeBytes ∧ fs.InCluster index)
      (fs.searchChain judge clusters) := by
  induction clusters with
  | nil => exact .pure nofun
  | cons cluster rest ih =>
      refine .bind (readCluster_succeeds geometry _) fun buf long => ?_
      split
      · exact .pure nofun
      · rename_i index found
        refine .pure ?_
        rintro _ _ _ ⟨⟩
        exact ⟨long, List.mem_range.mp (searchSlots_mem found)⟩
      · exact ih

theorem findEntry_succeeds (dir : Nat) (nameUpper : List UInt8) :
    Disk.Succeeds (fun _ => True) (fs.findEntry dir nameUpper) := by
  refine .bind (readChain_succeeds geometry _) fun chain _ => ?_
  refine .bind (searchChain_succeeds geometry _ _) fun found _ => ?_
  split
  · exact .pure trivial
  · exact .pure trivial

omit geometry in
theorem writeFatCopies_succeeds (fs : Fat32Fs) (fatSector count index : Nat) {buf : List UInt8}
    (long : sectorSize ≤ buf.length) :
    Disk.Succeeds (fun _ => True) (fs.writeFatCopies fatSector buf count index) := by
  induction count generalizing index with
  | zero => exact .pure trivial
  | succ count ih => exact .bind (fs.writeSectorBuf_succeeds _ long) fun _ _ => ih _

theorem writeFatEntry_succeeds (cluster value : Nat) :
    Disk.Succeeds (fun _ => True) (fs.writeFatEntry cluster value) := by
  have sector : (zeros fs.bpb.sectorBytes).length = sectorSize := by
    rw [length_zeros, geometry.sectorBytes]
  rw [writeFatEntry, if_neg (entriesPerSector_ne_zero geometry)]
  refine .bind (fs.readSectorBuf_succeeds _ sector.ge) fun buf long => ?_
  apply writeFatCopies_succeeds
  rw [length_splice]
  · rw [long, sector]
  · rw [length_leBytes, long, sector, geometry.entries, sectorSize]
    omega

theorem writeFatEntries_succeeds (value : Nat) (clusters : List Nat) :
    Disk.Succeeds (fun _ => True) (fs.writeFatEntries value clusters) := by
  induction clusters with
  | nil => exact .pure trivial
  | cons cluster rest ih => exact .bind (writeFatEntry_succeeds geometry _ _) fun _ _ => ih

theorem freeChain_succeeds (start : Nat) : Disk.Succeeds (fun _ => True) (fs.freeChain start) :=
  .bind (readChain_succeeds geometry _) fun _ _ => writeFatEntries_succeeds geometry _ _

theorem writeSlot_succeeds (cluster : Nat) {buf : List UInt8} {index : Nat}
    (long : buf.length = fs.bpb.clusterSizeBytes) (inside : fs.InCluster index) {bytes : List UInt8}
    (short : bytes.length ≤ entrySize) :
    Disk.Succeeds (fun _ => True) (fs.writeSlot cluster buf index bytes) := by
  have fits := inside.fits
  refine writeCluster_succeeds geometry _ ?_
  rw [length_splice, long]
  omega

end Fat32Fs

end ArcadiaOs.Fs
