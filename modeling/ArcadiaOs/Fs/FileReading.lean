import ArcadiaOs.Fs.ClusterOwnership

/-!
`read_file` on any volume that the mount accepts.  What a cluster holds is read sector by sector,
and each slice of the way is checked once more in a copy of the loop that panics on a range that
does not fit.
-/

namespace ArcadiaOs.Fs

open Lib

namespace Fat32Fs

/-- A sector as the volume sees it: the device fills its first 512 bytes. -/
def sectorImage (fs : Fat32Fs) (device : Device) (sector : Nat) : List UInt8 :=
  (device.sector (wrap32 (fs.partitionLba.toNat + wrap32 sector))).val ++
    zeros (fs.bpb.sectorBytes - sectorSize)

def clusterImage (fs : Fat32Fs) (device : Device) (cluster : Nat) : List UInt8 :=
  (List.range fs.bpb.sectorsPerCluster.toNat).flatMap fun index =>
    fs.sectorImage device (fs.bpb.clusterToSector cluster + index)

variable {fs : Fat32Fs} {device : Device}

section Images

variable (long : sectorSize ≤ fs.bpb.sectorBytes)
include long

theorem length_sectorImage (sector : Nat) :
    (fs.sectorImage device sector).length = fs.bpb.sectorBytes := by
  rw [sectorImage, List.length_append, (device.sector _).property, length_zeros]
  omega

theorem length_images (sector : Nat) (places : List Nat) :
    (places.flatMap fun index => fs.sectorImage device (sector + index)).length =
      places.length * fs.bpb.sectorBytes := by
  induction places with
  | nil => simp
  | cons place rest ih =>
      rw [List.flatMap_cons, List.length_append, length_sectorImage long, ih, List.length_cons,
        Nat.succ_mul, Nat.add_comm]

theorem length_clusterImage (cluster : Nat) :
    (fs.clusterImage device cluster).length = fs.bpb.clusterSizeBytes := by
  rw [clusterImage, length_images long, List.length_range, Fat32Bpb.clusterSizeBytes]

theorem length_contents (clusters : List Nat) :
    (clusters.flatMap (fs.clusterImage device)).length =
      clusters.length * fs.bpb.clusterSizeBytes := by
  induction clusters with
  | nil => simp
  | cons cluster rest ih =>
      rw [List.flatMap_cons, List.length_append, length_clusterImage long, ih, List.length_cons,
        Nat.succ_mul, Nat.add_comm]

theorem readSectorBuf_image (healthy : device.Healthy) (sector : Nat) :
    fs.readSectorBuf (wrap32 sector) (zeros fs.bpb.sectorBytes) device =
      .ok (fs.sectorImage device sector) device := by
  rw [readSectorBuf_reads (by rwa [length_zeros]) (healthy _).1, sectorImage, splice,
    (device.sector _).property]
  simp [zeros]

theorem readSectors_image (healthy : device.Healthy) (sector count index : Nat) {front : List UInt8}
    (read : front.length = index * fs.bpb.sectorBytes) :
    fs.readSectors sector count index (front ++ zeros (count * fs.bpb.sectorBytes)) device =
      .ok (front ++ (List.range' index count).flatMap fun place =>
        fs.sectorImage device (sector + place)) device := by
  induction count generalizing index front with
  | zero => simp [readSectors, zeros]; rfl
  | succ count ih =>
      have blank : zeros ((count + 1) * fs.bpb.sectorBytes) =
          zeros fs.bpb.sectorBytes ++ zeros (count * fs.bpb.sectorBytes) := by
        simp [zeros, Nat.succ_mul, Nat.add_comm]
      have part : slice (front ++ zeros ((count + 1) * fs.bpb.sectorBytes))
          (index * fs.bpb.sectorBytes) fs.bpb.sectorBytes = zeros fs.bpb.sectorBytes := by
        rw [slice, List.drop_left' read, blank, List.take_left' (length_zeros _)]
      have filled : splice (front ++ zeros ((count + 1) * fs.bpb.sectorBytes))
          (index * fs.bpb.sectorBytes) (fs.sectorImage device (sector + index)) =
            front ++ fs.sectorImage device (sector + index) ++
              zeros (count * fs.bpb.sectorBytes) := by
        rw [splice, List.take_left' read, length_sectorImage long, ← List.drop_drop,
          List.drop_left' read, blank, List.drop_left' (length_zeros _)]
      simp only [readSectors, part]
      rw [Disk.bind_ok (readSectorBuf_image long healthy _), filled, ih (index + 1)]
      · rw [List.range'_succ, List.flatMap_cons, List.append_assoc]
      · rw [List.length_append, length_sectorImage long, read, Nat.succ_mul]

theorem readCluster_image (healthy : device.Healthy) (cluster : Nat) :
    fs.readCluster cluster fs.clusterZeros device = .ok (fs.clusterImage device cluster) device := by
  have fits : ¬fs.clusterZeros.length < fs.bpb.clusterSizeBytes := by
    rw [clusterZeros, length_zeros]
    exact Nat.lt_irrefl _
  rw [readCluster, if_neg fits, clusterZeros, Fat32Bpb.clusterSizeBytes]
  have run := @readSectors_image fs device long healthy (fs.bpb.clusterToSector cluster)
    fs.bpb.sectorsPerCluster.toNat 0 [] (by simp)
  rw [List.nil_append, List.nil_append] at run
  rw [run, clusterImage, List.range_eq_range']

theorem readFileFrom_image (healthy : device.Healthy) (clusters : List Nat) (offset remaining : Nat)
    (buf : List UInt8) (inside : offset ≤ buf.length) :
    fs.readFileFrom clusters offset remaining buf device =
      .ok (offset + min (min remaining (buf.length - offset))
          (clusters.length * fs.bpb.clusterSizeBytes),
        splice buf offset ((clusters.flatMap (fs.clusterImage device)).take
          (min remaining (buf.length - offset)))) device := by
  induction clusters generalizing offset remaining buf with
  | nil => simp [readFileFrom, splice_nil]; rfl
  | cons cluster rest ih =>
      have size : (fs.clusterImage device cluster).length = fs.bpb.clusterSizeBytes :=
        length_clusterImage long cluster
      by_cases done : remaining = 0 ∨ offset ≥ buf.length
      · have nothing : min remaining (buf.length - offset) = 0 := by omega
        rw [nothing, List.take_zero, splice_nil, Nat.zero_min, Nat.add_zero, readFileFrom, if_pos done]
        rfl
      · generalize room : min remaining (buf.length - offset) = space
        have copied : min (min remaining fs.bpb.clusterSizeBytes) (buf.length - offset) =
            min space (fs.clusterImage device cluster).length := by omega
        have part : (fs.clusterImage device cluster).take
            (min space (fs.clusterImage device cluster).length) =
              (fs.clusterImage device cluster).take space := List.take_eq_take_min.symm
        have grown : (splice buf offset ((fs.clusterImage device cluster).take space)).length =
            buf.length := length_splice (by rw [List.length_take]; omega)
        rw [readFileFrom, if_neg done, Disk.bind_ok (readCluster_image long healthy cluster)]
        simp only [copied, part]
        rw [ih _ _ _ (by rw [grown]; omega)]
        have left : min (remaining - min space (fs.clusterImage device cluster).length)
            (buf.length - (offset + min space (fs.clusterImage device cluster).length)) =
              space - (fs.clusterImage device cluster).length := by omega
        have counted : offset + min space (fs.clusterImage device cluster).length +
            min (space - (fs.clusterImage device cluster).length)
              (rest.length * fs.bpb.clusterSizeBytes) =
            offset + min space ((cluster :: rest).length * fs.bpb.clusterSizeBytes) := by
          rw [List.length_cons, Nat.add_mul, Nat.one_mul]
          omega
        rw [grown, left, splice_parts (by omega), counted, List.flatMap_cons]

end Images

theorem readChain_long {start : Nat} {chain : List Nat} {device' : Device}
    (ran : fs.readChain start device = .ok chain device') :
    chain = [] ∨ sectorSize ≤ fs.bpb.sectorBytes := by
  rw [readChain, readChainFrom] at ran
  split at ran
  · injection ran with empty
    exact .inl empty.symm
  · right
    by_contra short
    rw [readFatEntry] at ran
    split at ran
    · cases ran
    · rw [bind_apply] at ran
      simp only [bind_apply, readSectorBuf_cases] at ran
      rw [if_neg (fun both => short (by simpa using both.1))] at ran
      cases ran

/-! The loop with every range checked. -/

/-- `bytes[offset..offset + count]`, which panics where it does not fit. -/
def checkedSlice (bytes : List UInt8) (offset count : Nat) : Disk String (List UInt8) :=
  if offset + count ≤ bytes.length then pure (slice bytes offset count) else Disk.panics

/-- `buf[offset..offset + count].copy_from_slice(&source[..count])`. -/
def checkedCopy (buf : List UInt8) (offset count : Nat) (source : List UInt8) :
    Disk String (List UInt8) := do
  let target ← checkedSlice buf offset count
  let part ← checkedSlice source 0 count
  if target.length = part.length then pure (splice buf offset part) else Disk.panics

def checkedReadSectors (fs : Fat32Fs) (sector : Nat) : Nat → Nat → List UInt8 → Disk String (List UInt8)
  | 0, _, buf => pure buf
  | count + 1, index, buf => do
      let offset := index * fs.bpb.sectorBytes
      let window ← checkedSlice buf offset fs.bpb.sectorBytes
      let part ← fs.readSectorBuf (wrap32 (sector + index)) window
      fs.checkedReadSectors sector count (index + 1) (splice buf offset part)

def checkedReadCluster (fs : Fat32Fs) (cluster : Nat) (buf : List UInt8) : Disk String (List UInt8) :=
  if buf.length < fs.bpb.clusterSizeBytes then Disk.fail "Buffer too small for cluster"
  else
    fs.checkedReadSectors (fs.bpb.clusterToSector cluster) fs.bpb.sectorsPerCluster.toNat 0 buf

def checkedReadFatEntry (fs : Fat32Fs) (cluster : Nat) : Disk String Nat :=
  if fs.entriesPerSector = 0 then Disk.panics
  else do
    let fatSector := cluster / fs.entriesPerSector
    let fatOffset := cluster % fs.entriesPerSector * 4
    let buf ← fs.readSectorBuf (wrap32 (fs.bpb.fatStartSector + fatSector))
      (zeros fs.bpb.sectorBytes)
    let entry ← checkedSlice buf fatOffset 4
    pure (ofLeBytes entry % 2 ^ 28)

def checkedReadChainFrom (fs : Fat32Fs) : Nat → List Nat → Nat → Disk String (List Nat)
  | 0, chain, _ => pure chain
  | turns + 1, chain, current =>
      if current < 2 then pure chain
      else do
        let next ← fs.checkedReadFatEntry current
        if next ≥ fat32Eoc ∨ next = fat32Bad ∨ next = 0 then pure (chain ++ [current])
        else if next < 2 ∨ next = current then pure (chain ++ [current])
        else if next ∈ chain ++ [current] then pure (chain ++ [current])
        else fs.checkedReadChainFrom turns (chain ++ [current]) next

def checkedReadFileFrom (fs : Fat32Fs) :
    List Nat → Nat → Nat → List UInt8 → Disk String (Nat × List UInt8)
  | [], offset, _, buf => pure (offset, buf)
  | cluster :: rest, offset, remaining, buf =>
      if remaining = 0 ∨ offset ≥ buf.length then pure (offset, buf)
      else do
        let clusterBuf ← fs.checkedReadCluster cluster fs.clusterZeros
        let toCopy := min (min remaining fs.bpb.clusterSizeBytes) (buf.length - offset)
        let copied ← checkedCopy buf offset toCopy clusterBuf
        fs.checkedReadFileFrom rest (offset + toCopy) (remaining - toCopy) copied

/-- `read_file` with every range checked. -/
def checkedReadFile (fs : Fat32Fs) (startCluster size : Nat) (buf : List UInt8) :
    Disk String (Nat × List UInt8) := do
  let chain ← fs.checkedReadChainFrom (maxChain + 1) [] startCluster
  fs.checkedReadFileFrom chain 0 size buf

section Checked

theorem bind_agree {α β : Type} {action : Disk String α} {next next' : α → Disk String β}
    (same : ∀ value device', action device = .ok value device' → next value device' = next' value device') :
    (action >>= next) device = (action >>= next') device := by
  rw [bind_apply, bind_apply]
  cases ran : action device with
  | ok value device' => exact same value device' ran
  | error halt device' => rfl

theorem checkedSlice_fits {bytes : List UInt8} {offset count : Nat}
    (fits : offset + count ≤ bytes.length) :
    checkedSlice bytes offset count = pure (slice bytes offset count) := if_pos fits

theorem readSectorBuf_length {lba : Nat} {buf part : List UInt8} {device' : Device}
    (ran : fs.readSectorBuf lba buf device = .ok part device') : part.length = buf.length := by
  rw [readSectorBuf_cases] at ran
  split at ran
  next reads =>
    injection ran with same _
    rw [← same]
    exact length_splice (by rw [(device.sector _).property]; omega)
  next => cases ran

theorem window_fits {sectorBytes index count : Nat} {buf : List UInt8}
    (long : (index + (count + 1)) * sectorBytes ≤ buf.length) :
    index * sectorBytes + sectorBytes ≤ buf.length := by
  rw [← Nat.succ_mul]
  exact Nat.le_trans (Nat.mul_le_mul_right _ (by omega)) long

theorem readSectors_length {sector count index : Nat} {buf read : List UInt8} {device' : Device}
    (long : (index + count) * fs.bpb.sectorBytes ≤ buf.length)
    (ran : fs.readSectors sector count index buf device = .ok read device') :
    read.length = buf.length := by
  induction count generalizing index buf device with
  | zero =>
      injection ran with same _
      rw [← same]
  | succ count ih =>
      have fits := window_fits long
      obtain ⟨part, middle, here, later⟩ := Lib.bind_ok.mp ran
      have grown : (splice buf (index * fs.bpb.sectorBytes) part).length = buf.length :=
        length_splice (by rw [readSectorBuf_length here, length_slice fits]; exact fits)
      rw [← grown]
      exact ih (by rw [grown, Nat.add_right_comm, Nat.add_assoc]; exact long) later

theorem checkedReadSectors_eq (sector count index : Nat) (buf : List UInt8) (device : Device)
    (long : (index + count) * fs.bpb.sectorBytes ≤ buf.length) :
    fs.checkedReadSectors sector count index buf device =
      fs.readSectors sector count index buf device := by
  induction count generalizing index buf device with
  | zero => rfl
  | succ count ih =>
      have fits := window_fits long
      simp only [checkedReadSectors, readSectors, checkedSlice_fits fits, pure_bind]
      refine bind_agree fun part middle ran => ih _ _ _ ?_
      rw [length_splice (by rw [readSectorBuf_length ran, length_slice fits]; exact fits),
        Nat.add_right_comm, Nat.add_assoc]
      exact long

theorem checkedReadCluster_eq (cluster : Nat) (device : Device) :
    fs.checkedReadCluster cluster fs.clusterZeros device =
      fs.readCluster cluster fs.clusterZeros device := by
  rw [checkedReadCluster, readCluster]
  split
  next => rfl
  next => exact checkedReadSectors_eq _ _ _ _ _ (by
    rw [Nat.zero_add, clusterZeros, length_zeros, Fat32Bpb.clusterSizeBytes])

theorem readCluster_length {cluster : Nat} {read : List UInt8} {device' : Device}
    (ran : fs.readCluster cluster fs.clusterZeros device = .ok read device') :
    read.length = fs.bpb.clusterSizeBytes := by
  have size : fs.clusterZeros.length = fs.bpb.clusterSizeBytes := length_zeros _
  rw [readCluster, if_neg (by omega)] at ran
  rw [readSectors_length (by rw [Nat.zero_add, size, Fat32Bpb.clusterSizeBytes]) ran, size]

theorem checkedReadFatEntry_eq (cluster : Nat) (device : Device) :
    fs.checkedReadFatEntry cluster device = fs.readFatEntry cluster device := by
  rw [checkedReadFatEntry, readFatEntry]
  split
  next => rfl
  next entries =>
    refine bind_agree fun buf middle ran => ?_
    have length := readSectorBuf_length ran
    rw [length_zeros] at length
    have place := Nat.mod_lt cluster (Nat.pos_of_ne_zero entries)
    have room : fs.entriesPerSector * 4 ≤ fs.bpb.sectorBytes := Nat.div_mul_le_self _ _
    have fits : cluster % fs.entriesPerSector * 4 + 4 ≤ buf.length := by omega
    rw [checkedSlice_fits fits, pure_bind, bytesAt_eq_slice fits]

theorem checkedReadChainFrom_eq (turns : Nat) (chain : List Nat) (current : Nat) (device : Device) :
    fs.checkedReadChainFrom turns chain current device =
      fs.readChainFrom turns chain current device := by
  induction turns generalizing chain current device with
  | zero => rfl
  | succ turns ih =>
      rw [checkedReadChainFrom, readChainFrom]
      split
      next => rfl
      next =>
        rw [bind_apply, bind_apply, checkedReadFatEntry_eq]
        cases fs.readFatEntry current device with
        | error halt middle => rfl
        | ok next middle =>
            simp only
            split
            next => rfl
            next =>
              split
              next => rfl
              next =>
                split
                next => rfl
                next => exact ih _ _ _

theorem checkedCopy_fits {buf source : List UInt8} {offset count : Nat}
    (room : offset + count ≤ buf.length) (enough : count ≤ source.length) :
    checkedCopy buf offset count source = pure (splice buf offset (source.take count)) := by
  have whole : 0 + count ≤ source.length := by omega
  rw [checkedCopy, checkedSlice_fits room, checkedSlice_fits whole, pure_bind, pure_bind, if_pos]
  · rw [slice, List.drop_zero]
  · rw [length_slice room, length_slice whole]

theorem checkedReadFileFrom_eq (clusters : List Nat) (offset remaining : Nat) (buf : List UInt8)
    (device : Device) :
    fs.checkedReadFileFrom clusters offset remaining buf device =
      fs.readFileFrom clusters offset remaining buf device := by
  induction clusters generalizing offset remaining buf device with
  | nil => rfl
  | cons cluster rest ih =>
      rw [checkedReadFileFrom, readFileFrom]
      split
      next => rfl
      next more =>
        rw [bind_apply, checkedReadCluster_eq, ← bind_apply]
        refine bind_agree fun clusterBuf middle ran => ?_
        have length := readCluster_length ran
        rw [checkedCopy_fits (by omega) (by omega), pure_bind]
        exact ih _ _ _ _

/-- No slice of `read_file` is out of range, whatever the volume, the device and the arguments. -/
theorem checkedReadFile_eq (start size : Nat) (buf : List UInt8) :
    fs.checkedReadFile start size buf device = fs.readFile start size buf device := by
  rw [checkedReadFile, readFile, readChain, bind_apply, bind_apply, checkedReadChainFrom_eq]
  cases fs.readChainFrom (maxChain + 1) [] start device with
  | error halt middle => rfl
  | ok chain middle => exact checkedReadFileFrom_eq _ _ _ _ _

end Checked

/-- `read_file` copies the front of the clusters' contents, as much as the size, the buffer and the
chain allow, and touches nothing behind it. -/
theorem readFile_prefix (fs : Fat32Fs) (device : Device) (healthy : device.Healthy)
    (start size : Nat) (buf : List UInt8) (chain : List Nat) (device' : Device)
    (ran : fs.readChain start device = .ok chain device') :
    ∃ count result, fs.readFile start size buf device = .ok (count, result) device ∧
      count = min (min size buf.length) (chain.length * fs.bpb.clusterSizeBytes) ∧
      result.length = buf.length ∧
      result.take count = (chain.flatMap (fs.clusterImage device)).take count ∧
      result.drop count = buf.drop count ∧
      fs.checkedReadFile start size buf device = fs.readFile start size buf device := by
  obtain rfl : device' = device := Disk.ReadOnly.ok (readChain_readOnly fs start) ran
  have whole : fs.readFile start size buf device' =
      fs.readFileFrom chain 0 size buf device' := by rw [readFile, Disk.bind_ok ran]
  rcases readChain_long ran with rfl | long
  · refine ⟨0, buf, whole, by simp, rfl, rfl, rfl, checkedReadFile_eq start size buf⟩
  · have read := readFileFrom_image long healthy chain 0 size buf (Nat.zero_le _)
    rw [Nat.zero_add, Nat.sub_zero] at read
    have contents : (chain.flatMap (fs.clusterImage device')).length =
        chain.length * fs.bpb.clusterSizeBytes := length_contents long chain
    generalize chain.flatMap (fs.clusterImage device') = bytes at read contents ⊢
    have copied : (bytes.take (min size buf.length)).length =
        min (min size buf.length) (chain.length * fs.bpb.clusterSizeBytes) := by
      rw [List.length_take, contents]
    refine ⟨_, _, whole.trans read, rfl, ?_, ?_, ?_, checkedReadFile_eq start size buf⟩
    · exact length_splice (by omega)
    · rw [splice, List.take_zero, List.nil_append, List.take_left' copied, ← contents,
        ← List.take_eq_take_min]
    · rw [splice, List.take_zero, List.nil_append, List.drop_left' copied, copied, Nat.zero_add]

theorem clusterImage_eq (consistent : fs.Consistent) {cluster : Nat} (valid : fs.Valid cluster) :
    fs.clusterImage device cluster = fs.clusterBytes device cluster := by
  rw [clusterImage, clusterBytes]
  refine List.flatMap_congr fun index inside => ?_
  rw [sectorImage, consistent.clusterSector valid (List.mem_range.mp inside), consistent.sectorBytes]
  exact List.append_nil _

theorem readFile_prefix_blank :
    ∃ count result, smallFs.readFile 2 3 [1, 2, 3, 4, 5] blankDevice =
        .ok (count, result) blankDevice ∧
      count = min (min 3 [1, 2, 3, 4, (5 : UInt8)].length) ([2].length * smallFs.bpb.clusterSizeBytes) ∧
      result.length = [1, 2, 3, 4, (5 : UInt8)].length ∧
      result.take count = ([2].flatMap (smallFs.clusterImage blankDevice)).take count ∧
      result.drop count = [1, 2, 3, 4, (5 : UInt8)].drop count ∧
      smallFs.checkedReadFile 2 3 [1, 2, 3, 4, 5] blankDevice =
        smallFs.readFile 2 3 [1, 2, 3, 4, 5] blankDevice :=
  readFile_prefix smallFs blankDevice (fun _ => ⟨rfl, rfl⟩) 2 3 [1, 2, 3, 4, 5] [2] blankDevice
    ((smallFs.readChain_readOnly 2).answer_ok_iff.mp (by decide +kernel))

end Fat32Fs

end ArcadiaOs.Fs
