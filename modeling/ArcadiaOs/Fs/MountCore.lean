import ArcadiaOs.Fs.VfsCore

/-!
Mounting: the checks of `Fat32Bpb::from_bytes` on the boot sector, `Fat32Fs::mount` and
`init_vfs`.
-/

namespace ArcadiaOs.Fs

open Lib

/-- `core::str::from_utf8`. -/
def fromUtf8 (bytes : List UInt8) : Option (List UInt8) :=
  if fromUtf8Lossy bytes = bytes then some bytes else none

def fat32Type : List UInt8 := [0x46, 0x41, 0x54, 0x33, 0x32]

namespace Fat32Bpb

/-- The fields of the packed record that the driver uses. -/
def readFrom (sector : List UInt8) : Fat32Bpb where
  bytesPerSector := u16At sector 11
  sectorsPerCluster := byteAt sector 13
  reservedSectorCount := u16At sector 14
  numFats := byteAt sector 16
  totalSectors32 := u32At sector 32
  fatSize32 := u32At sector 36
  rootCluster := u32At sector 44

def fromBytes (sector : List UInt8) : Option Fat32Bpb :=
  if sector.length < 90 then none
  else
    let fatSize16 := u16At sector 22
    let bpb := readFrom sector
    if fatSize16 ≠ 0 then none
    else if bpb.fatSize32 = 0 then none
    else
      let fsTypeStr := (fromUtf8 (bytesAt sector 82 8)).getD []
      if fat32Type <+: fsTypeStr then some bpb else none

end Fat32Bpb

namespace Fat32Fs

def mount (partitionLba : UInt32) : Disk String Fat32Fs := do
  let buf ← (readSector partitionLba.toNat (zeros 512)).mapErr fun _ => "Failed to read boot sector"
  match Fat32Bpb.fromBytes buf with
  | none => Disk.fail "Not a FAT32 filesystem"
  | some bpb => pure ⟨bpb, partitionLba⟩

end Fat32Fs

/-- The manager that `init_vfs` stores; the lines it prints are left out, but not the division in
`total_clusters` that one of them needs. -/
def storeVfs : EStateM.Result (Halt String) Device Fat32Fs →
    EStateM.Result (Halt String) Device VfsManager
  | .ok fs device =>
      if fs.bpb.sectorsPerCluster = 0 then .error .panic device
      else .ok ⟨some fs, fs.bpb.rootCluster.toNat, [], 3, [slash]⟩ device
  | .error .panic device => .error .panic device
  | .error (.error _) device => .ok ⟨none, 0, [], 3, [slash]⟩ device

def initVfs : Disk String VfsManager := fun device => storeVfs (Fat32Fs.mount 0 device)

end ArcadiaOs.Fs
