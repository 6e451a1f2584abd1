import ArcadiaOs.Fs.DirCore
import ArcadiaOs.Lib.Locality

/-!
The entries of the allocation table and the clusters as cells of the device.  A write that
succeeds changes the sectors of its cell and no others, whatever else the device fails at.
-/

namespace ArcadiaOs.Fs

open Lib

def Disk.answer {ε α : Type} (action : Disk ε α) (device : Device) : Except (Halt ε) α :=
  match action device with
  | .ok value _ => .ok value
  | .error halt _ => .error halt

namespace Disk

variable {ε ε' α β : Type} {device device' : Device}

theorem bind_ok {action : Disk ε α} {value : α} (ran : action device = .ok value device')
    (next : α → Disk ε β) : (action >>= next) device = next value device' := by
  simp only [bind, EStateM.bind, ran]

theorem bind_error {action : Disk ε α} {halt : Halt ε} (ran : action device = .error halt device')
    (next : α → Disk ε β) : (action >>= next) device = .error halt device' := by
  simp only [bind, EStateM.bind, ran]

theorem mapErr_ok {action : Disk ε α} {value : α} (ran : action device = .ok value device')
    (convert : ε → ε') : action.mapErr convert device = .ok value device' := by
  simp only [mapErr, ran]

theorem mapErr_error {action : Disk ε α} {reason : ε}
    (ran : action device = .error (.error reason) device') (convert : ε → ε') :
    action.mapErr convert device = .error (.error (convert reason)) device' := by
  simp only [mapErr, ran]

end Disk

namespace Device

def Healthy (device : Device) : Prop :=
  ∀ lba, device.readable lba = true ∧ device.writable lba = true

/-- The second device is the first one with some sectors written. -/
structure Rewritten (touched : Nat → Prop) (device device' : Device) : Prop where
  readable : device'.readable = device.readable
  writable : device'.writable = device.writable
  kept : ∀ lba, ¬touched lba → device'.sector lba = device.sector lba

variable {touched touched' : Nat → Prop} {device middle device' : Device}

theorem Rewritten.refl (touched : Nat → Prop) (device : Device) : Rewritten touched device device :=
  ⟨rfl, rfl, fun _ _ => rfl⟩

theorem Rewritten.mono (rewritten : Rewritten touched device device')
    (wider : ∀ lba, touched lba → touched' lba) : Rewritten touched' device device' where
  readable := rewritten.readable
  writable := rewritten.writable
  kept := fun lba outside => rewritten.kept lba fun within => outside (wider lba within)

theorem Rewritten.trans (first : Rewritten touched device middle)
    (next : Rewritten touched middle device') : Rewritten touched device device' where
  readable := next.readable.trans first.readable
  writable := next.writable.trans first.writable
  kept := fun lba outside => (next.kept lba outside).trans (first.kept lba outside)

theorem Rewritten.healthy (rewritten : Rewritten touched device device') (healthy : device.Healthy) :
    device'.Healthy := by
  intro lba
  rw [rewritten.readable, rewritten.writable]
  exact healthy lba

end Device

namespace Fat32Fs

def Valid (fs : Fat32Fs) (cluster : Nat) : Prop := 2 ≤ cluster ∧ cluster < fs.bpb.totalClusters + 2

instance (fs : Fat32Fs) (cluster : Nat) : Decidable (fs.Valid cluster) :=
  inferInstanceAs (Decidable (_ ∧ _))

/-- 512-byte sectors, areas in order inside `u32` sector numbers, and a table with an entry for every
cluster. -/
structure Consistent (fs : Fat32Fs) : Prop where
  sectorBytes : fs.bpb.sectorBytes = sectorSize
  clusterSectors : 1 ≤ fs.bpb.sectorsPerCluster.toNat
  copies : 1 ≤ fs.bpb.numFats.toNat
  addressable : fs.partitionLba.toNat + (fs.bpb.reservedSectorCount.toNat +
    fs.bpb.numFats.toNat * fs.bpb.fatSize32.toNat) +
      fs.bpb.totalClusters * fs.bpb.sectorsPerCluster.toNat ≤ 2 ^ 32
  covered : ∀ cluster, fs.Valid cluster → cluster / 128 < fs.bpb.fatSize32.toNat

/-- The sector of the first table copy that holds the entry of a cluster. -/
def fatLba (fs : Fat32Fs) (cluster : Nat) : Nat :=
  fs.partitionLba.toNat + (fs.bpb.reservedSectorCount.toNat + cluster / 128)

def dataLba (fs : Fat32Fs) (cluster index : Nat) : Nat :=
  fs.partitionLba.toNat + (fs.bpb.reservedSectorCount.toNat +
    fs.bpb.numFats.toNat * fs.bpb.fatSize32.toNat +
    (cluster - 2) * fs.bpb.sectorsPerCluster.toNat + index)

def fatCopyLba (fs : Fat32Fs) (fatSector copy : Nat) : Nat :=
  fs.partitionLba.toNat +
    (fs.bpb.reservedSectorCount.toNat + fatSector + copy * fs.bpb.fatSize32.toNat)

def fatWord (fs : Fat32Fs) (device : Device) (cluster : Nat) : Nat :=
  ofLeBytes (bytesAt (device.sector (fs.fatLba cluster)).val (cluster % 128 * 4) 4)

def clusterBytes (fs : Fat32Fs) (device : Device) (cluster : Nat) : List UInt8 :=
  (List.range fs.bpb.sectorsPerCluster.toNat).flatMap fun index =>
    (device.sector (fs.dataLba cluster index)).val

section Arithmetic

variable {fs : Fat32Fs} {cluster other index place fatSector copy : Nat}

theorem Valid.dataFits (valid : fs.Valid cluster) :
    (cluster - 2) * fs.bpb.sectorsPerCluster.toNat + fs.bpb.sectorsPerCluster.toNat ≤
      fs.bpb.totalClusters * fs.bpb.sectorsPerCluster.toNat := by
  obtain ⟨above, below⟩ := valid
  have stride := Nat.mul_le_mul_right fs.bpb.sectorsPerCluster.toNat
    (show cluster - 2 + 1 ≤ fs.bpb.totalClusters by omega)
  rw [Nat.add_mul, Nat.one_mul] at stride
  exact stride

theorem copy_bound (fs : Fat32Fs) (bound : copy < fs.bpb.numFats.toNat) :
    copy * fs.bpb.fatSize32.toNat + fs.bpb.fatSize32.toNat ≤
      fs.bpb.numFats.toNat * fs.bpb.fatSize32.toNat := by
  have := Nat.mul_le_mul_right fs.bpb.fatSize32.toNat bound
  rw [Nat.succ_mul] at this
  exact this

theorem fatLba_eq (fs : Fat32Fs) (cluster : Nat) : fs.fatLba cluster = fs.fatCopyLba (cluster / 128) 0 := by
  rw [fatLba, fatCopyLba, Nat.zero_mul, Nat.add_zero]

theorem dataLba_apart (valid : fs.Valid cluster) (validOther : fs.Valid other)
    (apart : other ≠ cluster) (bound : index < fs.bpb.sectorsPerCluster.toNat)
    (boundOther : place < fs.bpb.sectorsPerCluster.toNat) :
    fs.dataLba other place ≠ fs.dataLba cluster index := by
  have first := valid.1
  have firstOther := validOther.1
  simp only [dataLba]
  rcases Nat.lt_or_gt_of_ne apart with before | behind
  · have stride : (other - 2 + 1) * fs.bpb.sectorsPerCluster.toNat ≤
        (cluster - 2) * fs.bpb.sectorsPerCluster.toNat := Nat.mul_le_mul_right _ (by omega)
    rw [Nat.add_mul, Nat.one_mul] at stride
    omega
  · have stride : (cluster - 2 + 1) * fs.bpb.sectorsPerCluster.toNat ≤
        (other - 2) * fs.bpb.sectorsPerCluster.toNat := Nat.mul_le_mul_right _ (by omega)
    rw [Nat.add_mul, Nat.one_mul] at stride
    omega

theorem fatCopyLba_injective (inside : fatSector < fs.bpb.fatSize32.toNat) (apart : copy ≠ other) :
    fs.fatCopyLba fatSector copy ≠ fs.fatCopyLba fatSector other := by
  simp only [fatCopyLba]
  rcases Nat.lt_or_gt_of_ne apart with before | behind
  · have stride := Nat.mul_le_mul_right fs.bpb.fatSize32.toNat before
    rw [Nat.succ_mul] at stride
    omega
  · have stride := Nat.mul_le_mul_right fs.bpb.fatSize32.toNat behind
    rw [Nat.succ_mul] at stride
    omega

theorem fatCopyLba_apart (inside : other < fs.bpb.fatSize32.toNat) (apart : other ≠ fatSector)
    (copy : Nat) : fs.fatCopyLba other 0 ≠ fs.fatCopyLba fatSector copy := by
  simp only [fatCopyLba]
  rcases Nat.eq_zero_or_pos copy with rfl | later
  · omega
  · have := Nat.mul_le_mul_right fs.bpb.fatSize32.toNat later
    omega

theorem fatCopyLba_lt_dataLba (inside : fatSector < fs.bpb.fatSize32.toNat)
    (bound : copy < fs.bpb.numFats.toNat) (cluster index : Nat) :
    fs.fatCopyLba fatSector copy < fs.dataLba cluster index := by
  have last := copy_bound fs bound
  simp only [fatCopyLba, dataLba]
  omega

variable (consistent : fs.Consistent)
include consistent

theorem Consistent.entries : fs.entriesPerSector = 128 := by
  rw [entriesPerSector, consistent.sectorBytes, sectorSize]

theorem Consistent.clusterSize : fs.bpb.clusterSizeBytes = fs.bpb.sectorsPerCluster.toNat * 512 := by
  rw [Fat32Bpb.clusterSizeBytes, consistent.sectorBytes, sectorSize]

theorem Consistent.clusterSector (valid : fs.Valid cluster)
    (bound : index < fs.bpb.sectorsPerCluster.toNat) :
    wrap32 (fs.partitionLba.toNat + wrap32 (fs.bpb.clusterToSector cluster + index)) =
      fs.dataLba cluster index := by
  have fits := valid.dataFits
  have addressable := consistent.addressable
  simp only [Fat32Bpb.clusterToSector, Fat32Bpb.dataStartSector, wrap32, dataLba]
  rw [Nat.mod_eq_of_lt (a := fs.bpb.numFats.toNat * _) (by omega),
    Nat.mod_eq_of_lt (a := fs.bpb.reservedSectorCount.toNat + _) (by omega),
    Nat.mod_eq_of_lt (a := (cluster - 2) * _) (by omega),
    Nat.mod_eq_of_lt (a := fs.bpb.reservedSectorCount.toNat + _ + _) (by omega),
    Nat.mod_eq_of_lt (a := _ + index) (by omega), Nat.mod_eq_of_lt (by omega)]

theorem Consistent.copySector (inside : fatSector < fs.bpb.fatSize32.toNat)
    (bound : copy < fs.bpb.numFats.toNat) :
    wrap32 (fs.partitionLba.toNat +
      wrap32 (fs.bpb.fatStartSector + fatSector + copy * fs.bpb.fatSize32.toNat)) =
      fs.fatCopyLba fatSector copy := by
  have last := copy_bound fs bound
  have addressable := consistent.addressable
  simp only [Fat32Bpb.fatStartSector, wrap32, fatCopyLba]
  rw [Nat.mod_eq_of_lt (a := fs.bpb.reservedSectorCount.toNat + _ + _) (by omega),
    Nat.mod_eq_of_lt (by omega)]

theorem Consistent.firstCopySector (inside : fatSector < fs.bpb.fatSize32.toNat) :
    wrap32 (fs.partitionLba.toNat + wrap32 (fs.bpb.fatStartSector + fatSector)) =
      fs.fatCopyLba fatSector 0 := by
  have first := consistent.copySector inside consistent.copies
  rwa [Nat.zero_mul, Nat.add_zero] at first

end Arithmetic

section Sectors

variable {fs : Fat32Fs} {device device' : Device} {lba : Nat} {buf : List UInt8}

theorem readSectorBuf_cases (fs : Fat32Fs) (lba : Nat) (buf : List UInt8) (device : Device) :
    fs.readSectorBuf lba buf device =
      if sectorSize ≤ buf.length ∧ device.readable (wrap32 (fs.partitionLba.toNat + lba)) = true then
        .ok (splice buf 0 (device.sector (wrap32 (fs.partitionLba.toNat + lba))).val) device
      else .error (.error "Sector read failed") device := by
  simp only [readSectorBuf, Disk.mapErr, readSector]
  by_cases short : buf.length < sectorSize
  · rw [if_pos short, if_neg (by omega)]
  · rw [if_neg short]
    by_cases readable : device.readable (wrap32 (fs.partitionLba.toNat + lba)) = true
    · rw [if_pos readable, if_pos ⟨by omega, readable⟩]
    · rw [if_neg readable, if_neg fun both => readable both.2]

theorem readSectorBuf_reads (long : sectorSize ≤ buf.length)
    (readable : device.readable (wrap32 (fs.partitionLba.toNat + lba)) = true) :
    fs.readSectorBuf lba buf device =
      .ok (splice buf 0 (device.sector (wrap32 (fs.partitionLba.toNat + lba))).val) device := by
  rw [readSectorBuf_cases, if_pos ⟨long, readable⟩]

theorem writeSectorBuf_writes (fs : Fat32Fs) (lba : Nat) (long : sectorSize ≤ buf.length)
    (writable : device.writable (wrap32 (fs.partitionLba.toNat + lba)) = true) :
    ∃ device', fs.writeSectorBuf lba buf device = .ok () device' := by
  have enough : ¬buf.length < sectorSize := by omega
  simp only [writeSectorBuf, Disk.mapErr, writeSector, writable, if_true, dif_neg enough]
  exact ⟨_, rfl⟩

theorem writeSectorBuf_effect (ran : fs.writeSectorBuf lba buf device = .ok () device') :
    (device'.sector (wrap32 (fs.partitionLba.toNat + lba))).val = buf.take sectorSize ∧
      device.Rewritten (· = wrap32 (fs.partitionLba.toNat + lba)) device' := by
  simp only [writeSectorBuf, Disk.mapErr, writeSector] at ran
  by_cases short : buf.length < sectorSize
  · rw [dif_pos short] at ran
    cases ran
  · rw [dif_neg short] at ran
    by_cases writable : device.writable (wrap32 (fs.partitionLba.toNat + lba)) = true
    · rw [if_pos writable] at ran
      cases ran
      refine ⟨?_, rfl, rfl, fun other apart => ?_⟩
      · simp only [Function.update_self]
      · simp only [Function.update_of_ne apart]
    · rw [if_neg writable] at ran
      cases ran

end Sectors

section Clusters

theorem sector_inside {index count : Nat} {buf : List UInt8} (bound : index < count)
    (long : count * 512 ≤ buf.length) : index * 512 + 512 ≤ buf.length := by
  rw [← Nat.succ_mul]
  exact Nat.le_trans (Nat.mul_le_mul_right 512 bound) long

variable {fs : Fat32Fs} (consistent : fs.Consistent) {cluster : Nat} (valid : fs.Valid cluster)
  {device device' : Device} {buf : List UInt8}
include consistent valid

theorem readSectors_reads (readable : ∀ place, place < fs.bpb.sectorsPerCluster.toNat →
      device.readable (fs.dataLba cluster place) = true) (count index : Nat) (buf : List UInt8)
    (bound : index + count ≤ fs.bpb.sectorsPerCluster.toNat)
    (long : fs.bpb.sectorsPerCluster.toNat * 512 ≤ buf.length) :
    fs.readSectors (fs.bpb.clusterToSector cluster) count index buf device =
      .ok (buf.take (index * 512) ++
        (List.range' index count).flatMap (fun place =>
          (device.sector (fs.dataLba cluster place)).val) ++
        buf.drop ((index + count) * 512)) device := by
  induction count generalizing index buf with
  | zero =>
      simp only [readSectors, List.range'_zero, List.flatMap_nil, List.append_nil, Nat.add_zero,
        List.take_append_drop]
      rfl
  | succ count ih =>
      have inside := sector_inside (show index < _ by omega) long
      have part : (slice buf (index * 512) 512).length = 512 := length_slice inside
      have stored : (device.sector (fs.dataLba cluster index)).val.length = 512 :=
        (device.sector (fs.dataLba cluster index)).property
      have place := consistent.clusterSector valid (show index < _ by omega)
      have here := readable index (by omega)
      rw [← place] at here
      have turn : index + (count + 1) = index + 1 + count := by omega
      simp only [readSectors, consistent.sectorBytes, sectorSize]
      rw [Disk.bind_ok (readSectorBuf_reads (show sectorSize ≤ _ from part.ge) here)]
      simp only [place]
      rw [splice_whole (by rw [part, stored])]
      rw [ih (index + 1) _ (by omega)
        (by rw [length_splice (by rw [stored]; exact inside)]; exact long)]
      rw [turn, List.range'_succ, List.flatMap_cons]
      have next : index * 512 + (device.sector (fs.dataLba cluster index)).val.length =
          (index + 1) * 512 := by
        rw [stored, Nat.add_mul, Nat.one_mul]
      have reach : (index + 1) * 512 ≤ buf.length := by
        rw [Nat.add_mul, Nat.one_mul]
        exact inside
      have order : (index + 1) * 512 ≤ (index + 1 + count) * 512 :=
        Nat.mul_le_mul_right 512 (Nat.le_add_right _ _)
      have assembled := splice_front_back next reach order
        ((List.range' (index + 1) count).flatMap fun place =>
          (device.sector (fs.dataLba cluster place)).val)
      exact congrArg (fun bytes => EStateM.Result.ok bytes device) assembled

theorem readCluster_reads (readable : ∀ place, place < fs.bpb.sectorsPerCluster.toNat →
      device.readable (fs.dataLba cluster place) = true)
    (long : fs.bpb.clusterSizeBytes ≤ buf.length) : fs.readCluster cluster buf device =
      .ok (fs.clusterBytes device cluster ++ buf.drop fs.bpb.clusterSizeBytes) device := by
  have size := consistent.clusterSize
  rw [readCluster, if_neg (by omega)]
  rw [readSectors_reads consistent valid readable _ _ _ (by omega) (by rw [← size]; exact long)]
  rw [Nat.zero_mul, List.take_zero, List.nil_append, Nat.zero_add, clusterBytes,
    List.range_eq_range', size]

theorem readSectors_same (same : ∀ place, place < fs.bpb.sectorsPerCluster.toNat →
      device'.sector (fs.dataLba cluster place) = device.sector (fs.dataLba cluster place) ∧
        device'.readable (fs.dataLba cluster place) = device.readable (fs.dataLba cluster place))
    (count index : Nat) (buf : List UInt8) (bound : index + count ≤ fs.bpb.sectorsPerCluster.toNat) :
    (fs.readSectors (fs.bpb.clusterToSector cluster) count index buf).answer device' =
      (fs.readSectors (fs.bpb.clusterToSector cluster) count index buf).answer device := by
  induction count generalizing index buf with
  | zero => rfl
  | succ count ih =>
      obtain ⟨sector, readable⟩ := same index (by omega)
      rw [← consistent.clusterSector valid (show index < _ by omega)] at sector readable
      simp only [readSectors, Disk.answer]
      rw [bind_apply, bind_apply, readSectorBuf_cases, readSectorBuf_cases, sector, readable]
      by_cases reads : sectorSize ≤ (slice buf (index * fs.bpb.sectorBytes) fs.bpb.sectorBytes).length ∧
          device.readable (wrap32 (fs.partitionLba.toNat +
            wrap32 (fs.bpb.clusterToSector cluster + index))) = true
      · rw [if_pos reads, if_pos reads]
        exact ih (index + 1) _ (by omega)
      · rw [if_neg reads, if_neg reads]

theorem readCluster_same (same : ∀ place, place < fs.bpb.sectorsPerCluster.toNat →
      device'.sector (fs.dataLba cluster place) = device.sector (fs.dataLba cluster place) ∧
        device'.readable (fs.dataLba cluster place) = device.readable (fs.dataLba cluster place))
    (buf : List UInt8) :
    (fs.readCluster cluster buf).answer device' = (fs.readCluster cluster buf).answer device := by
  rw [readCluster]
  split
  · rfl
  · exact readSectors_same consistent valid same _ _ _ (by omega)

theorem writeSectors_effect (count index : Nat)
    (bound : index + count ≤ fs.bpb.sectorsPerCluster.toNat)
    (ran : fs.writeSectors (fs.bpb.clusterToSector cluster) buf count index device =
      .ok () device') :
    (∀ place, index ≤ place → place < index + count →
        (device'.sector (fs.dataLba cluster place)).val = slice buf (place * 512) 512) ∧
      device.Rewritten (fun lba => ∃ place, index ≤ place ∧ place < index + count ∧
        lba = fs.dataLba cluster place) device' := by
  induction count generalizing index device with
  | zero =>
      cases ran
      refine ⟨fun place above below => ?_, Device.Rewritten.refl _ _⟩
      omega
  | succ count ih =>
      simp only [writeSectors, consistent.sectorBytes, sectorSize] at ran
      obtain ⟨_, middle, wrote, rest⟩ := bind_ok.mp ran
      obtain ⟨stored, here⟩ := writeSectorBuf_effect wrote
      rw [consistent.clusterSector valid (show index < _ by omega)] at stored here
      obtain ⟨storedRest, later⟩ := ih (index + 1) (by omega) rest
      refine ⟨fun place above below => ?_, Device.Rewritten.trans (here.mono ?_) (later.mono ?_)⟩
      · by_cases first : place = index
        · subst first
          rw [later.kept _ ?_, stored]
          · exact List.take_of_length_le (List.length_take_le _ _)
          · rintro ⟨other, behind, -, same⟩
            simp only [dataLba] at same
            omega
        · exact storedRest place (by omega) (by omega)
      · rintro lba rfl
        exact ⟨index, Nat.le_refl _, by omega, rfl⟩
      · rintro lba ⟨place, above, below, same⟩
        exact ⟨place, by omega, by omega, same⟩

theorem writeSectors_writes (writable : ∀ place, place < fs.bpb.sectorsPerCluster.toNat →
      device.writable (fs.dataLba cluster place) = true) (count index : Nat)
    (bound : index + count ≤ fs.bpb.sectorsPerCluster.toNat)
    (long : fs.bpb.sectorsPerCluster.toNat * 512 ≤ buf.length) :
    ∃ device', fs.writeSectors (fs.bpb.clusterToSector cluster) buf count index device =
      .ok () device' := by
  induction count generalizing index device with
  | zero => exact ⟨device, rfl⟩
  | succ count ih =>
      have inside := sector_inside (show index < _ by omega) long
      have here := writable index (by omega)
      rw [← consistent.clusterSector valid (show index < _ by omega)] at here
      obtain ⟨middle, wrote⟩ := writeSectorBuf_writes fs
        (wrap32 (fs.bpb.clusterToSector cluster + index))
        (show sectorSize ≤ (slice buf (index * 512) 512).length from (length_slice inside).ge) here
      obtain ⟨-, rewritten⟩ := writeSectorBuf_effect wrote
      obtain ⟨device', rest⟩ := @ih middle
        (by rw [rewritten.writable]; exact writable) (index + 1) (by omega)
      refine ⟨device', ?_⟩
      simp only [writeSectors, consistent.sectorBytes, sectorSize]
      rw [Disk.bind_ok wrote, rest]

theorem writeCluster_writes (writable : ∀ place, place < fs.bpb.sectorsPerCluster.toNat →
      device.writable (fs.dataLba cluster place) = true)
    (long : fs.bpb.clusterSizeBytes ≤ buf.length) :
    ∃ device', fs.writeCluster cluster buf device = .ok () device' := by
  rw [writeCluster, if_neg (Nat.not_lt.mpr long)]
  apply writeSectors_writes consistent valid writable _ _ (by omega)
  rw [← consistent.clusterSize]
  exact long

theorem writeCluster_effect (ran : fs.writeCluster cluster buf device = .ok () device') :
    fs.bpb.clusterSizeBytes ≤ buf.length ∧
      fs.clusterBytes device' cluster = buf.take fs.bpb.clusterSizeBytes ∧
      device.Rewritten (fun lba => ∃ place, place < fs.bpb.sectorsPerCluster.toNat ∧
        lba = fs.dataLba cluster place) device' := by
  rw [writeCluster] at ran
  by_cases short : buf.length < fs.bpb.clusterSizeBytes
  · rw [if_pos short] at ran
    cases ran
  · rw [if_neg short] at ran
    obtain ⟨stored, rewritten⟩ := writeSectors_effect consistent valid _ _ (by omega) ran
    refine ⟨by omega, ?_, rewritten.mono ?_⟩
    · have parts : (List.range fs.bpb.sectorsPerCluster.toNat).map
            (fun place => (device'.sector (fs.dataLba cluster place)).val) =
          (List.range fs.bpb.sectorsPerCluster.toNat).map (fun place => slice buf (place * 512) 512) := by
        apply List.map_congr_left
        intro place member
        exact stored place (Nat.zero_le _) (by rw [Nat.zero_add]; exact List.mem_range.mp member)
      rw [clusterBytes, List.flatMap, parts, ← List.flatMap, flatMap_slice, consistent.clusterSize]
    · rintro lba ⟨place, -, below, same⟩
      exact ⟨place, by omega, same⟩

theorem writeCluster_sector_other {other place : Nat}
    (ran : fs.writeCluster cluster buf device = .ok () device') (validOther : fs.Valid other)
    (apart : other ≠ cluster) (bound : place < fs.bpb.sectorsPerCluster.toNat) :
    device'.sector (fs.dataLba other place) = device.sector (fs.dataLba other place) := by
  obtain ⟨-, -, rewritten⟩ := writeCluster_effect consistent valid ran
  apply rewritten.kept
  rintro ⟨index, below, same⟩
  exact dataLba_apart valid validOther apart below bound same

theorem writeCluster_bytes_other {other : Nat}
    (ran : fs.writeCluster cluster buf device = .ok () device') (validOther : fs.Valid other)
    (apart : other ≠ cluster) : fs.clusterBytes device' other = fs.clusterBytes device other := by
  rw [clusterBytes, clusterBytes, List.flatMap, List.flatMap]
  congr 1
  apply List.map_congr_left
  intro place member
  rw [writeCluster_sector_other consistent valid ran validOther apart (List.mem_range.mp member)]

theorem writeCluster_kept_before {lba : Nat}
    (ran : fs.writeCluster cluster buf device = .ok () device')
    (before : lba < fs.partitionLba.toNat + (fs.bpb.reservedSectorCount.toNat +
      fs.bpb.numFats.toNat * fs.bpb.fatSize32.toNat)) : device'.sector lba = device.sector lba := by
  obtain ⟨-, -, rewritten⟩ := writeCluster_effect consistent valid ran
  apply rewritten.kept
  rintro ⟨place, -, same⟩
  rw [dataLba] at same
  omega

theorem writeCluster_word {other : Nat} (ran : fs.writeCluster cluster buf device = .ok () device')
    (inside : other / 128 < fs.bpb.fatSize32.toNat) :
    fs.fatWord device' other = fs.fatWord device other := by
  have first := copy_bound fs (Nat.lt_of_lt_of_le Nat.zero_lt_one consistent.copies)
  rw [fatWord, fatWord, writeCluster_kept_before consistent valid ran]
  rw [fatLba]
  omega

end Clusters

section Table

/-- The word of an entry with a new value; the top four bits are kept. -/
def mergedWord (word value : Nat) : Nat := word / 2 ^ 28 * 2 ^ 28 + value % 2 ^ 28

def patchedSector (fs : Fat32Fs) (device : Device) (cluster value : Nat) : List UInt8 :=
  splice (device.sector (fs.fatLba cluster)).val (cluster % 128 * 4)
    (leBytes 4 (mergedWord (fs.fatWord device cluster) value))

variable {fs : Fat32Fs} {cluster other value : Nat} {device device' : Device}

theorem mergedWord_mod (word value : Nat) : mergedWord word value % 2 ^ 28 = value % 2 ^ 28 := by
  rw [mergedWord]
  omega

theorem mergedWord_div (word value : Nat) : mergedWord word value / 2 ^ 28 = word / 2 ^ 28 := by
  rw [mergedWord]
  omega

theorem entry_inside (device : Device) (lba cluster word : Nat) :
    cluster % 128 * 4 + (leBytes 4 word).length ≤ (device.sector lba).val.length := by
  have entry := Nat.mod_lt cluster (show 128 > 0 by decide)
  rw [length_leBytes, (device.sector lba).property, sectorSize]
  omega

theorem length_patchedSector : (fs.patchedSector device cluster value).length = sectorSize := by
  rw [patchedSector, length_splice (entry_inside ..), (device.sector _).property]

theorem fatWord_lt (fs : Fat32Fs) (device : Device) (cluster : Nat) :
    fs.fatWord device cluster < 2 ^ 32 := by
  have bound := ofLeBytes_lt (bytesAt (device.sector (fs.fatLba cluster)).val (cluster % 128 * 4) 4)
  rw [length_bytesAt] at bound
  exact bound

variable (consistent : fs.Consistent)
include consistent

theorem readFatEntry_cases (inside : cluster / 128 < fs.bpb.fatSize32.toNat) (device : Device) :
    fs.readFatEntry cluster device =
      if device.readable (fs.fatLba cluster) = true then
        .ok (fs.fatWord device cluster % 2 ^ 28) device
      else .error (.error "Sector read failed") device := by
  have long : sectorSize ≤ (zeros fs.bpb.sectorBytes).length := by
    rw [length_zeros, consistent.sectorBytes]
  have whole : (zeros fs.bpb.sectorBytes).length ≤ (device.sector (fs.fatLba cluster)).val.length := by
    rw [length_zeros, consistent.sectorBytes, (device.sector _).property]
  simp only [readFatEntry, consistent.entries]
  rw [if_neg (by decide), bind_apply, readSectorBuf_cases, consistent.firstCopySector inside,
    ← fatLba_eq]
  by_cases readable : device.readable (fs.fatLba cluster) = true
  · rw [if_pos ⟨long, readable⟩, if_pos readable, splice_whole whole]
    rfl
  · rw [if_neg fun both => readable both.2, if_neg readable]

theorem writeFatCopies_effect {fatSector : Nat} (inside : fatSector < fs.bpb.fatSize32.toNat)
    {buf : List UInt8} (long : buf.length = sectorSize) (count index : Nat)
    (bound : index + count ≤ fs.bpb.numFats.toNat)
    (ran : fs.writeFatCopies fatSector buf count index device = .ok () device') :
    (∀ copy, index ≤ copy → copy < index + count →
        (device'.sector (fs.fatCopyLba fatSector copy)).val = buf) ∧
      device.Rewritten (fun lba => ∃ copy, index ≤ copy ∧ copy < index + count ∧
        lba = fs.fatCopyLba fatSector copy) device' := by
  induction count generalizing index device with
  | zero =>
      cases ran
      refine ⟨fun copy above below => ?_, Device.Rewritten.refl _ _⟩
      omega
  | succ count ih =>
      simp only [writeFatCopies] at ran
      obtain ⟨_, middle, wrote, rest⟩ := bind_ok.mp ran
      obtain ⟨stored, here⟩ := writeSectorBuf_effect wrote
      rw [consistent.copySector inside (show index < _ by omega)] at stored here
      obtain ⟨storedRest, later⟩ := ih (index + 1) (by omega) rest
      refine ⟨fun copy above below => ?_, Device.Rewritten.trans (here.mono ?_) (later.mono ?_)⟩
      · by_cases first : copy = index
        · subst first
          rw [later.kept _ ?_, stored]
          · exact List.take_of_length_le long.le
          · rintro ⟨other, behind, -, same⟩
            exact fatCopyLba_injective inside (by omega) same
        · exact storedRest copy (by omega) (by omega)
      · rintro lba rfl
        exact ⟨index, Nat.le_refl _, by omega, rfl⟩
      · rintro lba ⟨copy, above, below, same⟩
        exact ⟨copy, by omega, by omega, same⟩

theorem writeFatCopies_writes {fatSector : Nat} (inside : fatSector < fs.bpb.fatSize32.toNat)
    {buf : List UInt8} (long : buf.length = sectorSize)
    (writable : ∀ copy, copy < fs.bpb.numFats.toNat →
      device.writable (fs.fatCopyLba fatSector copy) = true) (count index : Nat)
    (bound : index + count ≤ fs.bpb.numFats.toNat) :
    ∃ device', fs.writeFatCopies fatSector buf count index device = .ok () device' := by
  induction count generalizing index device with
  | zero => exact ⟨device, rfl⟩
  | succ count ih =>
      have here := writable index (by omega)
      rw [← consistent.copySector inside (show index < _ by omega)] at here
      obtain ⟨middle, wrote⟩ := writeSectorBuf_writes fs _ long.ge here
      obtain ⟨-, rewritten⟩ := writeSectorBuf_effect wrote
      obtain ⟨device', rest⟩ := @ih middle
        (by rw [rewritten.writable]; exact writable) (index + 1) (by omega)
      refine ⟨device', ?_⟩
      rw [writeFatCopies, Disk.bind_ok wrote, rest]

theorem writeFatEntry_cases (inside : cluster / 128 < fs.bpb.fatSize32.toNat) (value : Nat)
    (device : Device) : fs.writeFatEntry cluster value device =
      if device.readable (fs.fatLba cluster) = true then
        fs.writeFatCopies (cluster / 128) (fs.patchedSector device cluster value)
          fs.bpb.numFats.toNat 0 device
      else .error (.error "Sector read failed") device := by
  have long : sectorSize ≤ (zeros fs.bpb.sectorBytes).length := by
    rw [length_zeros, consistent.sectorBytes]
  have whole : (zeros fs.bpb.sectorBytes).length ≤ (device.sector (fs.fatLba cluster)).val.length := by
    rw [length_zeros, consistent.sectorBytes, (device.sector _).property]
  simp only [writeFatEntry, consistent.entries]
  rw [if_neg (by decide), bind_apply, readSectorBuf_cases, consistent.firstCopySector inside,
    ← fatLba_eq]
  by_cases readable : device.readable (fs.fatLba cluster) = true
  · rw [if_pos ⟨long, readable⟩, if_pos readable, splice_whole whole]
    rfl
  · rw [if_neg fun both => readable both.2, if_neg readable]

theorem writeFatEntry_writes (inside : cluster / 128 < fs.bpb.fatSize32.toNat) (value : Nat)
    (healthy : device.Healthy) : ∃ device', fs.writeFatEntry cluster value device = .ok () device' := by
  rw [writeFatEntry_cases consistent inside, if_pos (healthy _).1]
  exact writeFatCopies_writes consistent inside length_patchedSector (fun _ _ => (healthy _).2) _ _
    (by omega)

theorem writeFatEntry_effect (inside : cluster / 128 < fs.bpb.fatSize32.toNat)
    (ran : fs.writeFatEntry cluster value device = .ok () device') :
    device.readable (fs.fatLba cluster) = true ∧
      (∀ copy, copy < fs.bpb.numFats.toNat →
        (device'.sector (fs.fatCopyLba (cluster / 128) copy)).val =
          fs.patchedSector device cluster value) ∧
      device.Rewritten (fun lba => ∃ copy, copy < fs.bpb.numFats.toNat ∧
        lba = fs.fatCopyLba (cluster / 128) copy) device' := by
  rw [writeFatEntry_cases consistent inside] at ran
  by_cases readable : device.readable (fs.fatLba cluster) = true
  · rw [if_pos readable] at ran
    obtain ⟨stored, rewritten⟩ := writeFatCopies_effect consistent inside length_patchedSector _ _
      (by omega) ran
    refine ⟨readable, fun copy bound => stored copy (Nat.zero_le _) (by omega), rewritten.mono ?_⟩
    rintro lba ⟨copy, -, below, same⟩
    exact ⟨copy, by omega, same⟩
  · rw [if_neg readable] at ran
    cases ran

theorem writeFatEntry_word (inside : cluster / 128 < fs.bpb.fatSize32.toNat)
    (ran : fs.writeFatEntry cluster value device = .ok () device') :
    fs.fatWord device' cluster = mergedWord (fs.fatWord device cluster) value := by
  obtain ⟨-, stored, -⟩ := writeFatEntry_effect consistent inside ran
  have bound := fatWord_lt fs device cluster
  have written := bytesAt_splice_same (entry_inside device (fs.fatLba cluster) cluster
    (mergedWord (fs.fatWord device cluster) value))
  rw [length_leBytes] at written
  rw [fatWord, fatLba_eq, stored 0 consistent.copies, patchedSector, written, ofLeBytes_leBytes]
  apply Nat.mod_eq_of_lt
  rw [mergedWord]
  omega

theorem writeFatEntry_word_other (inside : cluster / 128 < fs.bpb.fatSize32.toNat)
    (insideOther : other / 128 < fs.bpb.fatSize32.toNat) (apart : other ≠ cluster)
    (ran : fs.writeFatEntry cluster value device = .ok () device') :
    fs.fatWord device' other = fs.fatWord device other := by
  obtain ⟨-, stored, rewritten⟩ := writeFatEntry_effect consistent inside ran
  by_cases sameSector : other / 128 = cluster / 128
  · have untouched := @bytesAt_splice_apart _ _ _ (other % 128 * 4) 4
      (entry_inside device (fs.fatLba cluster) cluster (mergedWord (fs.fatWord device cluster) value))
      (by rw [length_leBytes]; omega)
    have place : fs.fatLba other = fs.fatLba cluster := by rw [fatLba, sameSector, fatLba]
    rw [fatWord, place, fatLba_eq, stored 0 consistent.copies, patchedSector, untouched, fatWord, place]
  · rw [fatWord, fatWord, rewritten.kept]
    rintro ⟨copy, -, same⟩
    rw [fatLba_eq] at same
    exact fatCopyLba_apart insideOther sameSector copy same

theorem writeFatEntry_sector_data (inside : cluster / 128 < fs.bpb.fatSize32.toNat)
    (ran : fs.writeFatEntry cluster value device = .ok () device') (other place : Nat) :
    device'.sector (fs.dataLba other place) = device.sector (fs.dataLba other place) := by
  obtain ⟨-, -, rewritten⟩ := writeFatEntry_effect consistent inside ran
  apply rewritten.kept
  rintro ⟨copy, bound, same⟩
  have before := fatCopyLba_lt_dataLba inside bound other place
  omega

theorem writeFatEntry_bytes (inside : cluster / 128 < fs.bpb.fatSize32.toNat)
    (ran : fs.writeFatEntry cluster value device = .ok () device') (other : Nat) :
    fs.clusterBytes device' other = fs.clusterBytes device other := by
  rw [clusterBytes, clusterBytes]
  simp only [writeFatEntry_sector_data consistent inside ran]

end Table

end Fat32Fs

end ArcadiaOs.Fs
