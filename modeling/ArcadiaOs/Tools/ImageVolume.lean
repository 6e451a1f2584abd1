import ArcadiaOs.Fs.FileData
import ArcadiaOs.Tools.AddToFat32

/-!
The volume that the kernel sees in an image.  The tool computes the places of table entries and
clusters in bytes, the driver in sectors; they agree, so what the tool writes at one of these places
changes that cell of the volume and nothing else.
-/

namespace ArcadiaOs.Tools

open Lib Fs

theorem sliceIndex_nat (length place : Nat) : sliceIndex length (place : Int) = min place length := by
  rw [sliceIndex, if_neg (by omega), Int.toNat_natCast]

theorem sliceIndex_inside {length place : Nat} (inside : place ≤ length) :
    sliceIndex length (place : Int) = place := by
  rw [sliceIndex_nat, Nat.min_eq_left inside]

theorem getSlice_nat (data : List UInt8) (start stop : Nat) :
    getSlice data start stop = slice data start (stop - start) := by
  apply List.ext_getElem?
  intro place
  rw [getSlice, sliceIndex_nat, sliceIndex_nat, getElem?_slice, List.getElem?_drop, List.getElem?_take]
  by_cases behind : data.length ≤ start
  · rw [List.getElem?_eq_none (by omega : data.length ≤ start + place)]
    split
    · rw [List.getElem?_eq_none (by omega)]
      split <;> rfl
    · split <;> rfl
  · rw [Nat.min_eq_left (by omega : start ≤ data.length)]
    by_cases inside : start + place < data.length
    · by_cases within : place < stop - start
      · rw [if_pos within, if_pos (by omega)]
      · rw [if_neg within, if_neg (by omega)]
    · rw [List.getElem?_eq_none (by omega : data.length ≤ start + place)]
      split <;> split <;> rfl

theorem setSlice_nat {data part : List UInt8} {start stop : Nat} (size : stop = start + part.length) :
    setSlice data start stop part = splice data start part := by
  have front : data.take (min start data.length) = data.take start := by
    rw [← List.take_take, List.take_length]
  have back : data.drop (max (min start data.length) (min stop data.length)) =
      data.drop (start + part.length) := by
    by_cases inside : stop ≤ data.length
    · congr 1
      omega
    · rw [List.drop_of_length_le (by omega), List.drop_of_length_le (by omega)]
  rw [setSlice, sliceIndex_nat, sliceIndex_nat, front, back, splice]

/-- The image as a disk that never fails; no sector of the file system lies behind its end. -/
def imageDevice (img : List UInt8) : Device where
  sector lba := ⟨bytesAt img (lba * sectorSize) sectorSize, length_bytesAt _ _ _⟩
  readable _ := true
  writable _ := true

theorem imageDevice_healthy (img : List UInt8) : (imageDevice img).Healthy := fun _ => ⟨rfl, rfl⟩

def toolBpb (fs : Fat32Fs) : Bpb where
  bytesPerSector := fs.bpb.bytesPerSector.toNat
  sectorsPerCluster := fs.bpb.sectorsPerCluster.toNat
  reservedSectors := fs.bpb.reservedSectorCount.toNat
  numFats := fs.bpb.numFats.toNat
  fatSizeSectors := fs.bpb.fatSize32.toNat
  totalSectors32 := fs.bpb.totalSectors32.toNat
  rootCluster := fs.bpb.rootCluster.toNat

/-- An image of the whole file system, with two tables behind its boot sector. -/
structure Whole (fs : Fat32Fs) (img : List UInt8) : Prop where
  geometry : fs.Geometry
  partition : fs.partitionLba = 0
  boot : 1 ≤ fs.bpb.reservedSectorCount.toNat
  twoTables : fs.bpb.numFats.toNat = 2
  sectors : fs.bpb.totalSectors32.toNat * sectorSize ≤ img.length

theorem toolBpb_clusterSize (fs : Fat32Fs) :
    (toolBpb fs).clusterSize = fs.bpb.clusterSizeBytes := Nat.mul_comm _ _

namespace Whole

variable {fs : Fat32Fs} {img : List UInt8} (whole : Whole fs img)
include whole

theorem of_length {img' : List UInt8} (long : img'.length = img.length) : Whole fs img' :=
  { whole with sectors := long ▸ whole.sectors }

theorem size_eq : (toolBpb fs).clusterSize = fs.bpb.sectorsPerCluster.toNat * 512 :=
  (toolBpb_clusterSize fs).trans whole.geometry.clusterSize

theorem areas :
    (toolBpb fs).fatOffset = fs.bpb.reservedSectorCount.toNat * 512 ∧
    (toolBpb fs).fatSizeBytes = fs.bpb.fatSize32.toNat * 512 ∧
    (toolBpb fs).fat2Offset = (toolBpb fs).fatOffset + (toolBpb fs).fatSizeBytes ∧
    (toolBpb fs).dataStart = fs.bpb.reservedSectorCount.toNat + 2 * fs.bpb.fatSize32.toNat ∧
    (toolBpb fs).dataStart * 512 = (toolBpb fs).fat2Offset + (toolBpb fs).fatSizeBytes ∧
    512 ≤ (toolBpb fs).fatOffset := by
  have bytes : fs.bpb.bytesPerSector.toNat = 512 := whole.geometry.sectorBytes
  have boot := whole.boot
  have two := whole.twoTables
  simp only [Bpb.fatOffset, Bpb.fatSizeBytes, Bpb.fat2Offset, Bpb.dataStart, Bpb.fatStart, toolBpb,
    bytes, two]
  refine ⟨trivial, trivial, ?_, trivial, ?_, ?_⟩
  · omega
  · omega
  · omega

theorem imgOffset_eq (cluster : Nat) : (toolBpb fs).imgOffset cluster =
    (toolBpb fs).dataStart * 512 + (cluster - 2) * (toolBpb fs).clusterSize := by
  have bytes : fs.bpb.bytesPerSector.toNat = 512 := whole.geometry.sectorBytes
  rw [whole.size_eq, Bpb.imgOffset, ← Nat.mul_assoc]
  simp only [toolBpb, bytes]
  omega

theorem entry_inside {cluster : Nat} (valid : fs.Valid cluster) :
    cluster * 4 + 4 ≤ (toolBpb fs).fatSizeBytes := by
  obtain ⟨_, size, _⟩ := whole.areas
  have covered := whole.geometry.covered
  have bound := valid.2
  omega

theorem cluster_inside {cluster : Nat} (valid : fs.Valid cluster) :
    (toolBpb fs).imgOffset cluster + (toolBpb fs).clusterSize ≤ img.length := by
  obtain ⟨_, _, _, start, _⟩ := whole.areas
  have fits := valid.dataFits
  have within : fs.bpb.totalClusters * fs.bpb.sectorsPerCluster.toNat ≤ fs.bpb.dataSectors :=
    Nat.div_mul_le_self _ _
  have regions := whole.geometry.regions
  have sectors := whole.sectors
  have two := whole.twoTables
  rw [sectorSize] at sectors
  rw [Fat32Bpb.dataSectors, whole.geometry.dataStart, two] at within
  rw [two] at regions
  have stop : fs.bpb.reservedSectorCount.toNat + 2 * fs.bpb.fatSize32.toNat +
      ((cluster - 2) * fs.bpb.sectorsPerCluster.toNat + fs.bpb.sectorsPerCluster.toNat) ≤
      fs.bpb.totalSectors32.toNat := by omega
  rw [whole.imgOffset_eq, whole.size_eq, start, ← Nat.mul_assoc, ← Nat.add_mul, ← Nat.add_mul,
    Nat.add_assoc]
  exact (Nat.mul_le_mul_right 512 stop).trans sectors

theorem clusters_apart {cluster other : Nat} (valid : fs.Valid cluster) (validOther : fs.Valid other)
    (apart : other ≠ cluster) :
    (toolBpb fs).imgOffset other + (toolBpb fs).clusterSize ≤ (toolBpb fs).imgOffset cluster ∨
      (toolBpb fs).imgOffset cluster + (toolBpb fs).clusterSize ≤ (toolBpb fs).imgOffset other := by
  have first := valid.1
  have firstOther := validOther.1
  rw [whole.imgOffset_eq, whole.imgOffset_eq]
  rcases Nat.lt_or_gt_of_ne apart with before | behind
  · have stride := Nat.mul_le_mul_right (toolBpb fs).clusterSize (show other - 2 + 1 ≤ cluster - 2 by omega)
    rw [Nat.add_mul, Nat.one_mul] at stride
    omega
  · have stride := Nat.mul_le_mul_right (toolBpb fs).clusterSize (show cluster - 2 + 1 ≤ other - 2 by omega)
    rw [Nat.add_mul, Nat.one_mul] at stride
    omega

theorem before_data (cluster : Nat) :
    (toolBpb fs).fat2Offset + (toolBpb fs).fatSizeBytes ≤ (toolBpb fs).imgOffset cluster := by
  obtain ⟨_, _, _, _, start, _⟩ := whole.areas
  rw [whole.imgOffset_eq]
  omega

theorem tables_inside : (toolBpb fs).fat2Offset + (toolBpb fs).fatSizeBytes ≤ img.length := by
  obtain ⟨_, _, _, start, tables, _⟩ := whole.areas
  have regions := whole.geometry.regions
  have sectors := whole.sectors
  rw [whole.twoTables] at regions
  rw [sectorSize] at sectors
  omega

theorem view_fat {cluster : Nat} (valid : fs.Valid cluster) :
    (fs.view (imageDevice img)).fat cluster =
      ofLeBytes (bytesAt img ((toolBpb fs).fatOffset + cluster * 4) 4) % 2 ^ 28 := by
  obtain ⟨table, _⟩ := whole.areas
  have partition : fs.partitionLba.toNat = 0 := by
    rw [whole.partition]
    rfl
  have place : fs.fatLba cluster * sectorSize + cluster % 128 * 4 =
      (toolBpb fs).fatOffset + cluster * 4 := by
    rw [Fat32Fs.fatLba, partition, table, sectorSize]
    omega
  have inside : cluster % 128 * 4 + 4 ≤ sectorSize := by
    rw [sectorSize]
    omega
  simp only [Fat32Fs.view, if_pos valid, Fat32Fs.fatWord, imageDevice]
  rw [bytesAt_bytesAt inside, place]

theorem view_data {cluster : Nat} (valid : fs.Valid cluster) :
    (fs.view (imageDevice img)).data cluster =
      bytesAt img ((toolBpb fs).imgOffset cluster) (toolBpb fs).clusterSize := by
  obtain ⟨_, _, _, start, _⟩ := whole.areas
  have partition : fs.partitionLba.toNat = 0 := by
    rw [whole.partition]
    rfl
  have place (index : Nat) : fs.dataLba cluster index * sectorSize =
      (toolBpb fs).imgOffset cluster + index * sectorSize := by
    rw [Fat32Fs.dataLba, partition, whole.twoTables, whole.imgOffset_eq, whole.size_eq, start,
      sectorSize, ← Nat.mul_assoc]
    omega
  simp only [Fat32Fs.view, if_pos valid, Fat32Fs.clusterBytes, imageDevice, place]
  rw [flatMap_bytesAt, whole.size_eq, sectorSize]

end Whole

/-- An image made from another one by writing inside it, with the boot sector as it was, and the
volume it holds. -/
structure Shows (fs : Fat32Fs) (img img' : List UInt8) (volume : Volume) : Prop where
  length : img'.length = img.length
  boot : bytesAt img' 0 sectorSize = bytesAt img 0 sectorSize
  view : fs.view (imageDevice img') = volume

namespace Shows

variable {fs : Fat32Fs} {img img' : List UInt8} {volume : Volume}

theorem refl (fs : Fat32Fs) (img : List UInt8) : Shows fs img img (fs.view (imageDevice img)) :=
  ⟨rfl, rfl, rfl⟩

variable (shows : Shows fs img img' volume) (whole : Whole fs img) {part : List UInt8}
  {cluster offset : Nat}
include shows whole

/-- A part written behind the boot sector, and what it changes of the volume. -/
theorem splice {volume' : Volume} (inside : offset + part.length ≤ img.length)
    (behind : 512 ≤ offset)
    (fat : ∀ other, fs.Valid other →
      ofLeBytes (bytesAt (Lib.splice img' offset part) ((toolBpb fs).fatOffset + other * 4) 4) % 2 ^ 28 =
        volume'.fat other)
    (data : ∀ other, fs.Valid other → bytesAt (Lib.splice img' offset part)
      ((toolBpb fs).imgOffset other) (toolBpb fs).clusterSize = volume'.data other)
    (outside : ∀ other, ¬fs.Valid other →
      volume'.fat other = volume.fat other ∧ volume'.data other = volume.data other) :
    Shows fs img (Lib.splice img' offset part) volume' := by
  have within : offset + part.length ≤ img'.length := by
    rw [shows.length]
    exact inside
  have long := (length_splice within).trans shows.length
  have whole' := whole.of_length long
  refine ⟨long, ?_, ?_⟩
  · rw [bytesAt_splice_apart within (.inl behind), shows.boot]
  · have fats : (fs.view (imageDevice (Lib.splice img' offset part))).fat = volume'.fat := by
      funext other
      by_cases valid : fs.Valid other
      · rw [whole'.view_fat valid, fat other valid]
      · rw [(outside other valid).1, ← shows.view]
        simp only [Fat32Fs.view, if_neg valid]
    have datas : (fs.view (imageDevice (Lib.splice img' offset part))).data = volume'.data := by
      funext other
      by_cases valid : fs.Valid other
      · rw [whole'.view_data valid, data other valid]
      · rw [(outside other valid).2, ← shows.view]
        simp only [Fat32Fs.view, if_neg valid]
    rw [← show (⟨volume'.fat, volume'.data⟩ : Volume) = volume' from rfl, ← fats, ← datas]

theorem fat_eq {other : Nat} (valid : fs.Valid other) : volume.fat other =
    ofLeBytes (bytesAt img' ((toolBpb fs).fatOffset + other * 4) 4) % 2 ^ 28 := by
  rw [← shows.view, (whole.of_length shows.length).view_fat valid]

theorem data_eq {other : Nat} (valid : fs.Valid other) : volume.data other =
    bytesAt img' ((toolBpb fs).imgOffset other) (toolBpb fs).clusterSize := by
  rw [← shows.view, (whole.of_length shows.length).view_data valid]

theorem spliceData (valid : fs.Valid cluster)
    (fits : offset + part.length ≤ (toolBpb fs).clusterSize) :
    Shows fs img (Lib.splice img' ((toolBpb fs).imgOffset cluster + offset) part)
      (volume.setData cluster (Lib.splice (volume.data cluster) offset part)) := by
  have inside := whole.cluster_inside valid
  have within := (whole.of_length shows.length).cluster_inside valid
  have before := whole.before_data cluster
  obtain ⟨_, _, second, _, _, boot⟩ := whole.areas
  refine shows.splice whole (by omega) (by omega) (fun other validOther => ?_)
    (fun other validOther => ?_) fun other invalid => ⟨rfl, Volume.setData_data_other _ _ ?_⟩
  · have entry := whole.entry_inside validOther
    rw [bytesAt_splice_apart (by omega) (.inl (by omega)), Volume.setData_fat,
      shows.fat_eq whole validOther]
  · by_cases same : other = cluster
    · subst same
      rw [bytesAt_splice_within fits within, Volume.setData_data_same, shows.data_eq whole valid]
    · have apart := whole.clusters_apart valid validOther same
      rw [bytesAt_splice_apart (by omega) (by omega), Volume.setData_data_other _ _ same,
        shows.data_eq whole validOther]
  · rintro rfl
    exact invalid valid

theorem spliceFat (valid : fs.Valid cluster) (value : Nat) :
    Shows fs img (Lib.splice img' ((toolBpb fs).fatOffset + cluster * 4) (leBytes 4 value))
      (volume.setFat cluster (value % 2 ^ 28)) := by
  have entry := whole.entry_inside valid
  have tables := whole.tables_inside
  have long := length_leBytes 4 value
  obtain ⟨_, _, second, _, _, boot⟩ := whole.areas
  have within : (toolBpb fs).fatOffset + cluster * 4 + (leBytes 4 value).length ≤ img'.length := by
    rw [shows.length]
    omega
  refine shows.splice whole (by omega) (by omega) (fun other validOther => ?_)
    (fun other validOther => ?_) fun other invalid => ⟨Volume.setFat_fat_other _ _ ?_, rfl⟩
  · by_cases same : other = cluster
    · subst same
      have stored := bytesAt_splice_same within
      rw [long] at stored
      rw [stored, ofLeBytes_leBytes, Volume.setFat_fat_same]
      exact Nat.mod_mod_of_dvd value (by decide)
    · rw [bytesAt_splice_apart within (by omega), Volume.setFat_fat_other _ _ same,
        shows.fat_eq whole validOther]
  · have before := whole.before_data other
    rw [bytesAt_splice_apart within (.inr (by omega)), Volume.setFat_data,
      shows.data_eq whole validOther]
  · rintro rfl
    exact invalid valid

/-- The second table written; the driver does not read it. -/
theorem spliceFat2 (long : part.length = (toolBpb fs).fatSizeBytes) :
    Shows fs img (Lib.splice img' (toolBpb fs).fat2Offset part) volume := by
  have tables := whole.tables_inside
  obtain ⟨_, _, second, _, _, boot⟩ := whole.areas
  have within : (toolBpb fs).fat2Offset + part.length ≤ img'.length := by
    rw [shows.length, long]
    exact tables
  refine shows.splice whole (by omega) (by omega) (fun other validOther => ?_)
    (fun other validOther => ?_) fun _ _ => ⟨rfl, rfl⟩
  · have entry := whole.entry_inside validOther
    rw [bytesAt_splice_apart within (.inl (by omega)), shows.fat_eq whole validOther]
  · have before := whole.before_data other
    rw [bytesAt_splice_apart within (.inr (by omega)), shows.data_eq whole validOther]

end Shows

/-! The steps of the tool. -/

theorem chunkAt_eq (fs : Fat32Fs) (fileData : List UInt8) (i : Nat) :
    chunkAt (toolBpb fs) fileData i = fs.clusterPart fileData i := by
  have cut : getSlice fileData (i * (toolBpb fs).clusterSize : Nat)
      (min (i * (toolBpb fs).clusterSize + (toolBpb fs).clusterSize) fileData.length : Nat) =
      slice fileData (i * fs.bpb.clusterSizeBytes) fs.bpb.clusterSizeBytes := by
    rw [getSlice_nat, toolBpb_clusterSize]
    apply List.ext_getElem?
    intro place
    rw [getElem?_slice, getElem?_slice]
    by_cases inside : i * fs.bpb.clusterSizeBytes + place < fileData.length
    · by_cases within : place < fs.bpb.clusterSizeBytes
      · rw [if_pos within, if_pos (by omega)]
      · rw [if_neg within, if_neg (by omega)]
    · rw [List.getElem?_eq_none (by omega)]
      split <;> split <;> rfl
  have short : (slice fileData (i * fs.bpb.clusterSizeBytes) fs.bpb.clusterSizeBytes).length ≤
      fs.bpb.clusterSizeBytes := List.length_take_le _ _
  rw [chunkAt, cut, toolBpb_clusterSize, Fat32Fs.clusterPart, Fat32Fs.clusterZeros,
    fit_eq_splice short, fit, List.take_append, List.take_of_length_le short, zeros, zeros,
    List.take_replicate, Nat.min_eq_left (Nat.sub_le _ _)]

theorem writeLe_ok {width off val : Nat} {data data' : List UInt8}
    (ran : writeLe width data off val = .ok data') :
    val < 256 ^ width ∧ off + width ≤ data.length ∧ data' = splice data off (leBytes width val) := by
  rw [writeLe] at ran
  split at ran
  · rename_i fits
    cases ran
    exact ⟨fits.1, fits.2, rfl⟩
  · cases ran

section Steps

variable {fs : Fat32Fs} {img img' : List UInt8} {volume : Volume} (whole : Whole fs img)
  (shows : Shows fs img img' volume) {clusters : List Nat}
  (valid : ∀ cluster ∈ clusters, fs.Valid cluster)
include whole shows

include valid in
theorem writeClusters_shows (fileData : List UInt8) (i : Nat) :
    Shows fs img (writeClusters (toolBpb fs) fileData clusters i img')
      { volume with data := fs.fillData fileData clusters i volume.data } := by
  induction clusters generalizing i img' volume with
  | nil => exact shows
  | cons cluster rest ih =>
      have validHere := valid cluster List.mem_cons_self
      have size : (chunkAt (toolBpb fs) fileData i).length = (toolBpb fs).clusterSize := by
        rw [chunkAt_eq, Fat32Fs.length_clusterPart, toolBpb_clusterSize]
      have held : (volume.data cluster).length = (toolBpb fs).clusterSize := by
        rw [shows.data_eq whole validHere, length_bytesAt]
      have fits : 0 + (chunkAt (toolBpb fs) fileData i).length ≤ (toolBpb fs).clusterSize := by omega
      have written := shows.spliceData whole validHere fits
      rw [splice_whole (by omega), Nat.add_zero] at written
      rw [writeClusters, ← Int.natCast_add, setSlice_nat (by rw [size])]
      rw [chunkAt_eq] at written ⊢
      exact ih written (fun other member => valid other (List.mem_cons_of_mem _ member)) (i + 1)

include valid in
theorem writeChain_shows {img'' : List UInt8}
    (ran : writeChain (toolBpb fs) clusters img' = .ok img'') :
    Shows fs img img'' { volume with fat := thread id fat32Eoc clusters volume.fat } := by
  induction clusters generalizing img' volume with
  | nil =>
      cases ran
      exact shows
  | cons cluster rest ih =>
      have validHere := valid cluster List.mem_cons_self
      have validRest := fun other member => valid other (List.mem_cons_of_mem _ member)
      simp only [writeChain] at ran
      have points : linkTo rest % 2 ^ 28 = (rest.head?.map id).getD fat32Eoc := by
        cases rest with
        | nil => decide
        | cons next _ =>
            have bound := whole.geometry.numbered
            have below := (validRest next List.mem_cons_self).2
            rw [linkTo, Nat.mod_mod, Nat.mod_eq_of_lt (by rw [fat32Bad] at bound; omega)]
            rfl
      cases wrote : writeLe32 img' ((toolBpb fs).fatOffset + cluster * 4) (linkTo rest) with
      | error reason =>
          rw [wrote] at ran
          cases ran
      | ok middle =>
          rw [wrote] at ran
          obtain ⟨_, _, rfl⟩ := writeLe_ok wrote
          have stored := shows.spliceFat whole validHere (linkTo rest)
          rw [points] at stored
          exact ih stored validRest ran

theorem mirrorFat_shows : Shows fs img (mirrorFat (toolBpb fs) img') volume := by
  have tables := whole.tables_inside
  obtain ⟨_, _, second, _⟩ := whole.areas
  have long : (getSlice img' (toolBpb fs).fatOffset
      ((toolBpb fs).fatOffset + (toolBpb fs).fatSizeBytes : Nat)).length =
      (toolBpb fs).fatSizeBytes := by
    rw [getSlice_nat, Nat.add_sub_cancel_left, length_slice]
    rw [shows.length]
    omega
  rw [mirrorFat, ← Int.natCast_add, ← Int.natCast_add, setSlice_nat (by rw [long])]
  exact shows.spliceFat2 whole long

end Steps

end ArcadiaOs.Tools
