import ArcadiaOs.Lib.Bytes

/-!
The on-disk structures of `fs/fat32/bpb.rs`: the BIOS parameter block and the
32-byte directory entry.  Products and sums of `u32` values are reduced with `wrap32`.
-/

namespace ArcadiaOs.Fs

open Lib

def fat32Eoc : Nat := 0x0FFFFFF8
def fat32Bad : Nat := 0x0FFFFFF7
def fat32Free : Nat := 0

def wrap32 (value : Nat) : Nat := value % 2 ^ 32

structure Fat32Bpb where
  bytesPerSector : UInt16
  sectorsPerCluster : UInt8
  reservedSectorCount : UInt16
  numFats : UInt8
  totalSectors32 : UInt32
  fatSize32 : UInt32
  rootCluster : UInt32

namespace Fat32Bpb

def sectorBytes (bpb : Fat32Bpb) : Nat := bpb.bytesPerSector.toNat

def clusterSizeBytes (bpb : Fat32Bpb) : Nat := bpb.sectorsPerCluster.toNat * bpb.sectorBytes

def fatStartSector (bpb : Fat32Bpb) : Nat := bpb.reservedSectorCount.toNat

def dataStartSector (bpb : Fat32Bpb) : Nat :=
  wrap32 (bpb.reservedSectorCount.toNat + wrap32 (bpb.numFats.toNat * bpb.fatSize32.toNat))

/-- Clusters are at least 2 wherever the source calls this. -/
def clusterToSector (bpb : Fat32Bpb) (cluster : Nat) : Nat :=
  wrap32 (bpb.dataStartSector + wrap32 ((cluster - 2) * bpb.sectorsPerCluster.toNat))

def dataSectors (bpb : Fat32Bpb) : Nat := bpb.totalSectors32.toNat - bpb.dataStartSector

/-- The source panics when `sectors_per_cluster` is zero. -/
def totalClusters (bpb : Fat32Bpb) : Nat := bpb.dataSectors / bpb.sectorsPerCluster.toNat

end Fat32Bpb

structure Fat32DirEntry where
  name : List UInt8
  ext : List UInt8
  attributes : UInt8
  reservedNt : UInt8
  createTimeTenth : UInt8
  createTime : UInt16
  createDate : UInt16
  accessDate : UInt16
  firstClusterHi : UInt16
  modifyTime : UInt16
  modifyDate : UInt16
  firstClusterLo : UInt16
  fileSize : UInt32
  nameLength : name.length = 8
  extLength : ext.length = 3
  deriving DecidableEq

def u16At (buf : List UInt8) (offset : Nat) : UInt16 := UInt16.ofNat (ofLeBytes (bytesAt buf offset 2))

def u32At (buf : List UInt8) (offset : Nat) : UInt32 := UInt32.ofNat (ofLeBytes (bytesAt buf offset 4))

/-- `part` cut or padded with spaces to `width` bytes. -/
def padded (width : Nat) (part : List UInt8) : List UInt8 :=
  part.take width ++ List.replicate (width - part.length) 0x20

theorem length_padded (width : Nat) (part : List UInt8) : (padded width part).length = width := by
  simp only [padded, List.length_append, List.length_take, List.length_replicate]
  omega

def asciiLower (byte : UInt8) : UInt8 := if 0x41 ≤ byte ∧ byte ≤ 0x5A then byte + 32 else byte

def asciiUpper (byte : UInt8) : UInt8 := if 0x61 ≤ byte ∧ byte ≤ 0x7A then byte - 32 else byte

/-- The bytes of a name field in front of its padding. -/
def unpadded (field : List UInt8) : List UInt8 :=
  field.takeWhile fun byte => byte != 0x20 && byte != 0

namespace Fat32DirEntry

def readAt (buf : List UInt8) (offset : Nat) : Fat32DirEntry where
  name := bytesAt buf offset 8
  ext := bytesAt buf (offset + 8) 3
  attributes := byteAt buf (offset + 11)
  reservedNt := byteAt buf (offset + 12)
  createTimeTenth := byteAt buf (offset + 13)
  createTime := u16At buf (offset + 14)
  createDate := u16At buf (offset + 16)
  accessDate := u16At buf (offset + 18)
  firstClusterHi := u16At buf (offset + 20)
  modifyTime := u16At buf (offset + 22)
  modifyDate := u16At buf (offset + 24)
  firstClusterLo := u16At buf (offset + 26)
  fileSize := u32At buf (offset + 28)
  nameLength := length_bytesAt _ _ _
  extLength := length_bytesAt _ _ _

def toBytes (entry : Fat32DirEntry) : List UInt8 :=
  entry.name ++ entry.ext ++ [entry.attributes, entry.reservedNt, entry.createTimeTenth] ++
    leBytes 2 entry.createTime.toNat ++ leBytes 2 entry.createDate.toNat ++
    leBytes 2 entry.accessDate.toNat ++ leBytes 2 entry.firstClusterHi.toNat ++
    leBytes 2 entry.modifyTime.toNat ++ leBytes 2 entry.modifyDate.toNat ++
    leBytes 2 entry.firstClusterLo.toNat ++ leBytes 4 entry.fileSize.toNat

/-- `core::mem::zeroed`. -/
def zeroed : Fat32DirEntry := readAt [] 0

def isEnd (entry : Fat32DirEntry) : Bool := byteAt entry.name 0 = 0

def isDeleted (entry : Fat32DirEntry) : Bool := byteAt entry.name 0 = 0xE5

def isLongName (entry : Fat32DirEntry) : Bool := entry.attributes &&& 0x0F = 0x0F

def isDirectory (entry : Fat32DirEntry) : Bool := entry.attributes &&& 0x10 ≠ 0

def isVolumeLabel (entry : Fat32DirEntry) : Bool := entry.attributes &&& 0x08 ≠ 0

def firstCluster (entry : Fat32DirEntry) : Nat :=
  entry.firstClusterHi.toNat * 2 ^ 16 + entry.firstClusterLo.toNat

def setFirstCluster (entry : Fat32DirEntry) (cluster : Nat) : Fat32DirEntry :=
  { entry with
    firstClusterHi := UInt16.ofNat (cluster / 2 ^ 16)
    firstClusterLo := UInt16.ofNat cluster }

def extShown (entry : Fat32DirEntry) : Bool :=
  byteAt entry.ext 0 != 0x20 && byteAt entry.ext 0 != 0

def fullName (entry : Fat32DirEntry) : List UInt8 :=
  (unpadded entry.name).map asciiLower ++
    if entry.extShown then 0x2E :: (unpadded entry.ext).map asciiLower else []

def fullNameUpper (entry : Fat32DirEntry) : List UInt8 :=
  unpadded entry.name ++ if entry.extShown then 0x2E :: unpadded entry.ext else []

/-- The source's `name_upper.len() - 1` needs a name that is not empty; every caller has one. -/
def setName83 (entry : Fat32DirEntry) (nameUpper : List UInt8) : Fat32DirEntry :=
  let dotPos := nameUpper.idxOf 0x2E
  { entry with
    name := padded 8 (nameUpper.take dotPos)
    ext := if dotPos < nameUpper.length - 1 then padded 3 (nameUpper.drop (dotPos + 1))
      else padded 3 []
    nameLength := length_padded _ _
    extLength := by split <;> exact length_padded _ _ }

end Fat32DirEntry

end ArcadiaOs.Fs
