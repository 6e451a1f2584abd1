import ArcadiaOs.Fs.DirEntryCore

/-!
The image tool `tools/add_to_fat32.py`.  Byte arrays are lists of bytes and the name is an ASCII
string, as its bytes.  The image file is written at the very end, so a failure leaves it as it was.
-/

namespace ArcadiaOs.Tools

open Lib Fs

inductive ToolError
  | structError | indexError | unicodeError | zeroDivision
  | notEnoughFreeClusters (found needed : Nat)
  | noFreeDirEntry
  deriving DecidableEq

abbrev Tool (α : Type) := Except ToolError α

/-! Python's byte arrays. -/

/-- The bound of a slice: counted from the end when negative, and moved inside. -/
def sliceIndex (length : Nat) (index : Int) : Nat :=
  if index < 0 then (length + index).toNat else min index.toNat length

/-- `data[start:stop]`. -/
def getSlice (data : List UInt8) (start stop : Int) : List UInt8 :=
  (data.take (sliceIndex data.length stop)).drop (sliceIndex data.length start)

/-- `data[start:stop] = part`, which changes the length when the part has another one. -/
def setSlice (data : List UInt8) (start stop : Int) (part : List UInt8) : List UInt8 :=
  data.take (sliceIndex data.length start) ++ part ++
    data.drop (max (sliceIndex data.length start) (sliceIndex data.length stop))

def getByte (data : List UInt8) (index : Nat) : Tool Nat :=
  match data[index]? with
  | some byte => pure byte.toNat
  | none => throw .indexError

def setByte (data : List UInt8) (index : Nat) (byte : UInt8) : Tool (List UInt8) :=
  if index < data.length then pure (data.set index byte) else throw .indexError

/-- `struct.unpack_from` for a little-endian number. -/
def readLe (width : Nat) (data : List UInt8) (off : Nat) : Tool Nat :=
  if off + width ≤ data.length then pure (ofLeBytes (bytesAt data off width)) else throw .structError

/-- `struct.pack_into` for a little-endian number. -/
def writeLe (width : Nat) (data : List UInt8) (off val : Nat) : Tool (List UInt8) :=
  if val < 256 ^ width ∧ off + width ≤ data.length then pure (splice data off (leBytes width val))
  else throw .structError

def readLe16 : List UInt8 → Nat → Tool Nat := readLe 2

def readLe32 : List UInt8 → Nat → Tool Nat := readLe 4

def writeLe16 : List UInt8 → Nat → Nat → Tool (List UInt8) := writeLe 2

def writeLe32 : List UInt8 → Nat → Nat → Tool (List UInt8) := writeLe 4

structure Bpb where
  bytesPerSector : Nat
  sectorsPerCluster : Nat
  reservedSectors : Nat
  numFats : Nat
  fatSizeSectors : Nat
  totalSectors32 : Nat
  rootCluster : Nat

def readBpb (img : List UInt8) : Tool Bpb := do
  let bytesPerSector ← readLe16 img 11
  let sectorsPerCluster ← getByte img 13
  let reservedSectors ← readLe16 img 14
  let numFats ← getByte img 16
  let _rootEntryCount ← readLe16 img 17
  let _totalSectors16 ← readLe16 img 19
  let fatSizeSectors ← readLe32 img 36
  let totalSectors32 ← readLe32 img 32
  let rootCluster ← readLe32 img 44
  pure { bytesPerSector, sectorsPerCluster, reservedSectors, numFats, fatSizeSectors, totalSectors32,
         rootCluster }

namespace Bpb

variable (bpb : Bpb)

def clusterSize : Nat := bpb.bytesPerSector * bpb.sectorsPerCluster

def fatStart : Nat := bpb.reservedSectors

def dataStart : Nat := bpb.reservedSectors + bpb.numFats * bpb.fatSizeSectors

def fatOffset : Nat := bpb.fatStart * bpb.bytesPerSector

def fatSizeBytes : Nat := bpb.fatSizeSectors * bpb.bytesPerSector

def fat2Offset : Nat := (bpb.fatStart + bpb.fatSizeSectors) * bpb.bytesPerSector

/-- Where a cluster is in the image; the clusters of the tool are at least 2. -/
def imgOffset (cluster : Nat) : Nat :=
  (bpb.dataStart + (cluster - 2) * bpb.sectorsPerCluster) * bpb.bytesPerSector

def rootOffset : Int :=
  (bpb.dataStart + ((bpb.rootCluster : Int) - 2) * bpb.sectorsPerCluster) * bpb.bytesPerSector

def clustersNeeded (fileData : List UInt8) : Tool Nat :=
  if bpb.clusterSize = 0 then throw .zeroDivision
  else
    let clustersNeeded := (fileData.length + bpb.clusterSize - 1) / bpb.clusterSize
    pure (if clustersNeeded = 0 then 1 else clustersNeeded)

def clusterRange : List Nat :=
  List.range' 2 ((bpb.totalSectors32 - bpb.dataStart) / bpb.sectorsPerCluster)

end Bpb

def findFree (fatData : List UInt8) (fatSizeBytes clustersNeeded : Nat) :
    List Nat → List Nat → Tool (List Nat)
  | [], freeClusters => pure freeClusters
  | cluster :: rest, freeClusters =>
      if cluster * 4 + 4 > fatSizeBytes then pure freeClusters
      else do
        let entry ← readLe32 fatData (cluster * 4)
        let freeClusters := if entry % 2 ^ 28 = 0 then freeClusters ++ [cluster] else freeClusters
        if freeClusters.length ≥ clustersNeeded then pure freeClusters
        else findFree fatData fatSizeBytes clustersNeeded rest freeClusters

/-- The part of the file that goes to the cluster at place `i`, padded with zeros. -/
def chunkAt (bpb : Bpb) (fileData : List UInt8) (i : Nat) : List UInt8 :=
  let dataOffset := i * bpb.clusterSize
  let chunk := getSlice fileData dataOffset (min (dataOffset + bpb.clusterSize) fileData.length : Nat)
  chunk ++ zeros (bpb.clusterSize - chunk.length)

def writeClusters (bpb : Bpb) (fileData : List UInt8) : List Nat → Nat → List UInt8 → List UInt8
  | [], _, img => img
  | cluster :: rest, i, img =>
      writeClusters bpb fileData rest (i + 1)
        (setSlice img (bpb.imgOffset cluster) (bpb.imgOffset cluster + bpb.clusterSize)
          (chunkAt bpb fileData i))

def linkTo : List Nat → Nat
  | nextCluster :: _ => nextCluster % 2 ^ 28
  | [] => 0x0FFFFFF8

def writeChain (bpb : Bpb) : List Nat → List UInt8 → Tool (List UInt8)
  | [], img => pure img
  | cluster :: rest, img => do
      let img ← writeLe32 img (bpb.fatOffset + cluster * 4) (linkTo rest)
      writeChain bpb rest img

def mirrorFat (bpb : Bpb) (img : List UInt8) : List UInt8 :=
  setSlice img bpb.fat2Offset (bpb.fat2Offset + bpb.fatSizeBytes)
    (getSlice img bpb.fatOffset (bpb.fatOffset + bpb.fatSizeBytes))

def findSlot (img : List UInt8) (rootOffset : Int) : List Nat → Tool Int
  | [] => throw .noFreeDirEntry
  | i :: rest => do
      let dirOffset := rootOffset + (i * 32 : Nat)
      let first ← getByte (getSlice img dirOffset (dirOffset + 32)) 0
      if first = 0x00 ∨ first = 0xE5 then pure dirOffset else findSlot img rootOffset rest

/-- `part.ljust(width).encode('ascii')[:width]`. -/
def nameField (width : Nat) (part : List UInt8) : Tool (List UInt8) :=
  if part.all (· < 0x80) then
    pure ((part ++ List.replicate (width - part.length) 0x20).take width)
  else throw .unicodeError

/-- The extension of a name without one is four bytes long, as it is in the source. -/
def shortNames (fatName : List UInt8) : Tool (List UInt8 × List UInt8) :=
  match fatName.splitOn 0x2E with
  | name :: ext :: _ => do
      let shortName ← nameField 8 name
      let shortExt ← nameField 3 ext
      pure (shortName, shortExt)
  | nameParts => do
      let shortName ← nameField 8 (nameParts.headD [])
      pure (shortName, [0x20, 0x20, 0x20, 0x20])

def buildEntry (shortName shortExt : List UInt8) (firstCluster fileSize : Nat) :
    Tool (List UInt8) := do
  let dirEntry := zeros 32
  let dirEntry := setSlice dirEntry 0 8 shortName
  let dirEntry := setSlice dirEntry 8 11 shortExt
  let dirEntry ← setByte dirEntry 11 0x20
  let dirEntry ← setByte dirEntry 12 0x00
  let dirEntry ← setByte dirEntry 13 0x00
  let dirEntry := setSlice dirEntry 14 16 [0, 0]
  let dirEntry := setSlice dirEntry 16 18 [0, 0]
  let dirEntry := setSlice dirEntry 18 20 [0, 0]
  let dirEntry := setSlice dirEntry 20 22 [0, 0]
  let dirEntry := setSlice dirEntry 22 24 [0, 0]
  let dirEntry := setSlice dirEntry 24 26 [0, 0]
  let dirEntry ← writeLe16 dirEntry 26 firstCluster
  writeLe32 dirEntry 28 fileSize

/-- The image after the tool has added the file, when it reports success. -/
def addToFat32 (img fatName fileData : List UInt8) : Tool (List UInt8) := do
  let fatName := fatName.map asciiUpper
  let bpb ← readBpb img
  let clustersNeeded ← bpb.clustersNeeded fileData
  let fatData := getSlice img bpb.fatOffset (bpb.fatOffset + bpb.fatSizeBytes)
  let freeClusters ← findFree fatData bpb.fatSizeBytes clustersNeeded bpb.clusterRange []
  if freeClusters.length < clustersNeeded then
    throw (.notEnoughFreeClusters freeClusters.length clustersNeeded)
  else
    let allocClusters := freeClusters.take clustersNeeded
    let img := writeClusters bpb fileData allocClusters 0 img
    let img ← writeChain bpb allocClusters img
    let img := mirrorFat bpb img
    let dirOffset ← findSlot img bpb.rootOffset (List.range (bpb.clusterSize / 32))
    let (shortName, shortExt) ← shortNames fatName
    let dirEntry ← buildEntry shortName shortExt (allocClusters.headD 0) fileData.length
    pure (setSlice img dirOffset (dirOffset + 32) dirEntry)

end ArcadiaOs.Tools
