import ArcadiaOs.Fs.DirEntryCore

/-!
The FAT32 driver of `fs/fat32`: allocation table, file data and directories on a
sector device.  An action keeps the device it has reached when it fails; a slice or
division that panics in the source halts the action.
-/

namespace ArcadiaOs.Fs

open Lib

def sectorSize : Nat := 512

abbrev Sector := { bytes : List UInt8 // bytes.length = sectorSize }

structure Device where
  sector : Nat → Sector
  readable : Nat → Bool
  writable : Nat → Bool

inductive Halt (ε : Type) where
  | panic
  | error (reason : ε)
  deriving DecidableEq

abbrev Disk (ε α : Type) := EStateM (Halt ε) Device α

namespace Disk

def fail {ε α : Type} (reason : ε) : Disk ε α := throw (.error reason)

def panics {ε α : Type} : Disk ε α := throw .panic

/-- `map_err`. -/
def mapErr {ε ε' α : Type} (convert : ε → ε') (action : Disk ε α) : Disk ε' α := fun device =>
  match action device with
  | .ok value device' => .ok value device'
  | .error .panic device' => .error .panic device'
  | .error (.error reason) device' => .error (.error (convert reason)) device'

end Disk

/-- `BlockDevice::read_sector`: the first 512 bytes of the buffer are filled. -/
def readSector (lba : Nat) (buf : List UInt8) : Disk Unit (List UInt8) := fun device =>
  if buf.length < sectorSize then .error (.error ()) device
  else if device.readable lba then .ok (splice buf 0 (device.sector lba).val) device
  else .error (.error ()) device

/-- `BlockDevice::write_sector`: the first 512 bytes of the buffer are stored. -/
def writeSector (lba : Nat) (buf : List UInt8) : Disk Unit Unit := fun device =>
  if enough : buf.length < sectorSize then .error (.error ()) device
  else if device.writable lba then
    .ok () { device with
      sector := Function.update device.sector lba
        ⟨buf.take sectorSize, by rw [List.length_take]; omega⟩ }
  else .error (.error ()) device

structure Fat32Fs where
  bpb : Fat32Bpb
  partitionLba : UInt32

namespace Fat32Fs

def readSectorBuf (fs : Fat32Fs) (lba : Nat) (buf : List UInt8) : Disk String (List UInt8) :=
  (readSector (wrap32 (fs.partitionLba.toNat + lba)) buf).mapErr fun _ => "Sector read failed"

def writeSectorBuf (fs : Fat32Fs) (lba : Nat) (buf : List UInt8) : Disk String Unit :=
  (writeSector (wrap32 (fs.partitionLba.toNat + lba)) buf).mapErr fun _ => "Sector write failed"

def readSectors (fs : Fat32Fs) (sector : Nat) : Nat → Nat → List UInt8 → Disk String (List UInt8)
  | 0, _, buf => pure buf
  | count + 1, index, buf => do
      let offset := index * fs.bpb.sectorBytes
      let part ← fs.readSectorBuf (wrap32 (sector + index)) (slice buf offset fs.bpb.sectorBytes)
      fs.readSectors sector count (index + 1) (splice buf offset part)

def writeSectors (fs : Fat32Fs) (sector : Nat) (buf : List UInt8) : Nat → Nat → Disk String Unit
  | 0, _ => pure ()
  | count + 1, index => do
      let offset := index * fs.bpb.sectorBytes
      fs.writeSectorBuf (wrap32 (sector + index)) (slice buf offset fs.bpb.sectorBytes)
      fs.writeSectors sector buf count (index + 1)

def readCluster (fs : Fat32Fs) (cluster : Nat) (buf : List UInt8) : Disk String (List UInt8) :=
  if buf.length < fs.bpb.clusterSizeBytes then Disk.fail "Buffer too small for cluster"
  else
    fs.readSectors (fs.bpb.clusterToSector cluster) fs.bpb.sectorsPerCluster.toNat 0 buf

def writeCluster (fs : Fat32Fs) (cluster : Nat) (buf : List UInt8) : Disk String Unit :=
  if buf.length < fs.bpb.clusterSizeBytes then Disk.fail "Buffer too small for cluster"
  else
    fs.writeSectors (fs.bpb.clusterToSector cluster) buf fs.bpb.sectorsPerCluster.toNat 0

/-! The allocation table (`fat.rs`). -/

def entriesPerSector (fs : Fat32Fs) : Nat := fs.bpb.sectorBytes / 4

def readFatEntry (fs : Fat32Fs) (cluster : Nat) : Disk String Nat :=
  if fs.entriesPerSector = 0 then Disk.panics
  else do
    let fatSector := cluster / fs.entriesPerSector
    let fatOffset := cluster % fs.entriesPerSector * 4
    let buf ← fs.readSectorBuf (wrap32 (fs.bpb.fatStartSector + fatSector))
      (zeros fs.bpb.sectorBytes)
    pure (ofLeBytes (bytesAt buf fatOffset 4) % 2 ^ 28)

def writeFatCopies (fs : Fat32Fs) (fatSector : Nat) (buf : List UInt8) : Nat → Nat → Disk String Unit
  | 0, _ => pure ()
  | count + 1, index => do
      fs.writeSectorBuf
        (wrap32 (fs.bpb.fatStartSector + fatSector + index * fs.bpb.fatSize32.toNat)) buf
      fs.writeFatCopies fatSector buf count (index + 1)

def writeFatEntry (fs : Fat32Fs) (cluster value : Nat) : Disk String Unit :=
  if fs.entriesPerSector = 0 then Disk.panics
  else do
    let fatSector := cluster / fs.entriesPerSector
    let fatOffset := cluster % fs.entriesPerSector * 4
    let buf ← fs.readSectorBuf (wrap32 (fs.bpb.fatStartSector + fatSector))
      (zeros fs.bpb.sectorBytes)
    let existing := ofLeBytes (bytesAt buf fatOffset 4)
    -- the top four bits of an entry are reserved and kept
    let newVal := existing / 2 ^ 28 * 2 ^ 28 + value % 2 ^ 28
    fs.writeFatCopies fatSector (splice buf fatOffset (leBytes 4 newVal)) fs.bpb.numFats.toNat 0

/-- `read_chain` gives up on a chain once it holds more clusters than this. -/
def maxChain : Nat := 100000

/-- The loop of `read_chain`, with the turns it has left. -/
def readChainFrom (fs : Fat32Fs) : Nat → List Nat → Nat → Disk String (List Nat)
  | 0, chain, _ => pure chain
  | turns + 1, chain, current =>
      if current < 2 then pure chain
      else do
        let next ← fs.readFatEntry current
        if next ≥ fat32Eoc ∨ next = fat32Bad ∨ next = 0 then pure (chain ++ [current])
        else if next < 2 ∨ next = current then pure (chain ++ [current])
        else if next ∈ chain ++ [current] then pure (chain ++ [current])
        else fs.readChainFrom turns (chain ++ [current]) next

def readChain (fs : Fat32Fs) (startCluster : Nat) : Disk String (List Nat) :=
  fs.readChainFrom (maxChain + 1) [] startCluster

def writeFatEntries (fs : Fat32Fs) (value : Nat) : List Nat → Disk String Unit
  | [] => pure ()
  | cluster :: rest => do
      fs.writeFatEntry cluster value
      fs.writeFatEntries value rest

def freeChain (fs : Fat32Fs) (startCluster : Nat) : Disk String Unit := do
  let chain ← fs.readChain startCluster
  fs.writeFatEntries fat32Free chain

def clusterZeros (fs : Fat32Fs) : List UInt8 := zeros fs.bpb.clusterSizeBytes

def allocFrom (fs : Fat32Fs) : List Nat → Disk String Nat
  | [] => Disk.fail "No free clusters"
  | cluster :: rest => do
      let val ← fs.readFatEntry cluster
      if val = fat32Free then do
        fs.writeCluster cluster fs.clusterZeros
        pure cluster
      else fs.allocFrom rest

/-- The cluster is zeroed but not marked in the table. -/
def allocCluster (fs : Fat32Fs) : Disk String Nat :=
  if fs.bpb.dataSectors = 0 then Disk.fail "No data sectors"
  else if fs.bpb.sectorsPerCluster = 0 then Disk.panics
  else
    let maxCluster := fs.bpb.totalClusters
    if maxCluster < 2 then Disk.fail "No clusters available"
    else fs.allocFrom (List.range' 2 (wrap32 (maxCluster + 2) - 2))

/-! Files (`mod.rs`). -/

/-- The loop of `read_file`; it returns the bytes copied and the buffer. -/
def readFileFrom (fs : Fat32Fs) :
    List Nat → Nat → Nat → List UInt8 → Disk String (Nat × List UInt8)
  | [], offset, _, buf => pure (offset, buf)
  | cluster :: rest, offset, remaining, buf =>
      if remaining = 0 ∨ offset ≥ buf.length then pure (offset, buf)
      else do
        let clusterBuf ← fs.readCluster cluster fs.clusterZeros
        let toCopy := min (min remaining fs.bpb.clusterSizeBytes) (buf.length - offset)
        fs.readFileFrom rest (offset + toCopy) (remaining - toCopy)
          (splice buf offset (clusterBuf.take toCopy))

def readFile (fs : Fat32Fs) (startCluster size : Nat) (buf : List UInt8) :
    Disk String (Nat × List UInt8) := do
  let chain ← fs.readChain startCluster
  fs.readFileFrom chain 0 size buf

def extendClusters (fs : Fat32Fs) : Nat → List Nat → Disk String (List Nat)
  | 0, clusters => pure clusters
  | count + 1, clusters => do
      let newCluster ← fs.allocCluster
      fs.extendClusters count (clusters ++ [newCluster])

/-- The bytes of `data` that belong to the cluster at place `index`, padded with zeros. -/
def clusterPart (fs : Fat32Fs) (data : List UInt8) (index : Nat) : List UInt8 :=
  splice fs.clusterZeros 0 (slice data (index * fs.bpb.clusterSizeBytes) fs.bpb.clusterSizeBytes)

def writeParts (fs : Fat32Fs) (data : List UInt8) : List Nat → Nat → Disk String Unit
  | [], _ => pure ()
  | cluster :: rest, index => do
      fs.writeCluster cluster (fs.clusterPart data index)
      fs.writeParts data rest (index + 1)

def linkClusters (fs : Fat32Fs) : List Nat → Disk String Unit
  | [] => pure ()
  | cluster :: rest => do
      fs.writeFatEntry cluster (rest.headD fat32Eoc)
      fs.linkClusters rest

def clustersNeeded (fs : Fat32Fs) (data : List UInt8) : Nat :=
  if data = [] then 0
  else (data.length + fs.bpb.clusterSizeBytes - 1) / fs.bpb.clusterSizeBytes

def writeFileData (fs : Fat32Fs) (startCluster : Nat) (data : List UInt8) : Disk String Unit :=
  if data ≠ [] ∧ fs.bpb.clusterSizeBytes = 0 then Disk.panics
  else do
    let existing ← fs.readChain startCluster
    let clusters ← fs.extendClusters (fs.clustersNeeded data - existing.length) existing
    fs.writeParts data clusters 0
    fs.linkClusters clusters
    if clusters.length < existing.length then
      fs.writeFatEntries fat32Free (existing.drop clusters.length)

def allocateAndWrite (fs : Fat32Fs) (data : List UInt8) : Disk String Nat := do
  let first ← fs.allocCluster
  fs.writeFatEntry first fat32Eoc
  if data ≠ [] then fs.writeFileData first data
  pure first

end Fat32Fs

end ArcadiaOs.Fs
