import ArcadiaOs.Fs.Fat32Core

/-!
Directories (`fs/fat32/dir.rs`).  The lookups of the driver walk the slots of a
directory in the same way and differ in what they do at a slot, so the walk is one
definition with the judgement of a slot as its parameter.
-/

namespace ArcadiaOs.Fs

open Lib

def entrySize : Nat := 32

inductive Verdict
  | stop | skip | take
  deriving DecidableEq

/-- The slots of one cluster: ended by a stop, a slot taken, or all passed. -/
inductive SlotSearch
  | stopped
  | taken (index : Nat)
  | passed
  deriving DecidableEq

def slotAt (buf : List UInt8) (index : Nat) : Fat32DirEntry :=
  Fat32DirEntry.readAt buf (index * entrySize)

def searchSlots (judge : Fat32DirEntry → Verdict) (buf : List UInt8) : List Nat → SlotSearch
  | [] => .passed
  | index :: rest =>
      match judge (slotAt buf index) with
      | .stop => .stopped
      | .take => .taken index
      | .skip => searchSlots judge buf rest

inductive DirSearch
  | stopped
  | taken (cluster : Nat) (buf : List UInt8) (index : Nat)
  | exhausted

/-- The judgement of `find_entry`, `remove_entry` and `update_file_size`. -/
def judgeName (nameUpper : List UInt8) (entry : Fat32DirEntry) : Verdict :=
  if entry.isEnd then .stop
  else if entry.isDeleted || entry.isLongName || entry.isVolumeLabel then .skip
  else if entry.fullNameUpper = nameUpper then .take
  else .skip

/-- The judgement of `add_entry`. -/
def judgeVacant (entry : Fat32DirEntry) : Verdict :=
  if entry.isEnd || entry.isDeleted then .take else .skip

/-- The judgement of `update_dir_entry`, which passes over end markers. -/
def judgeNamePastEnd (nameUpper : List UInt8) (entry : Fat32DirEntry) : Verdict :=
  if entry.isEnd || entry.isDeleted || entry.isLongName || entry.isVolumeLabel then .skip
  else if entry.fullNameUpper = nameUpper then .take
  else .skip

/-- How `String::from_utf8_lossy` reads the bytes behind a first byte: how many of them belong to
the same character or broken sequence, and whether it is a character. -/
def utf8Sequence (first : UInt8) (rest : List UInt8) : Nat × Bool :=
  let tail (index : Nat) (low high : UInt8) : Bool :=
    match rest[index]? with
    | some byte => low ≤ byte && byte ≤ high
    | none => false
  let three (low high : UInt8) : Nat × Bool :=
    if !tail 0 low high then (0, false)
    else if !tail 1 0x80 0xBF then (1, false)
    else (2, true)
  let four (low high : UInt8) : Nat × Bool :=
    if !tail 0 low high then (0, false)
    else if !tail 1 0x80 0xBF then (1, false)
    else if !tail 2 0x80 0xBF then (2, false)
    else (3, true)
  if first < 0x80 then (0, true)
  else if first < 0xC2 then (0, false)
  else if first < 0xE0 then (if tail 0 0x80 0xBF then (1, true) else (0, false))
  else if first = 0xE0 then three 0xA0 0xBF
  else if first = 0xED then three 0x80 0x9F
  else if first < 0xF0 then three 0x80 0xBF
  else if first = 0xF0 then four 0x90 0xBF
  else if first < 0xF4 then four 0x80 0xBF
  else if first = 0xF4 then four 0x80 0x8F
  else (0, false)

/-- Each turn takes at least one byte, so a turn for every byte is enough. -/
def fromUtf8LossyTurns : Nat → List UInt8 → List UInt8
  | 0, _ => []
  | _, [] => []
  | turns + 1, first :: rest =>
      let (count, valid) := utf8Sequence first rest
      (if valid then first :: rest.take count else [0xEF, 0xBF, 0xBD]) ++
        fromUtf8LossyTurns turns (rest.drop count)

/-- `String::from_utf8_lossy`, with strings as their UTF-8 bytes. -/
def fromUtf8Lossy (bytes : List UInt8) : List UInt8 := fromUtf8LossyTurns bytes.length bytes

structure DirEntryInfo where
  name : List UInt8
  isDir : Bool
  size : Nat
  cluster : Nat
  deriving DecidableEq

def DirEntryInfo.ofEntry (entry : Fat32DirEntry) : DirEntryInfo where
  name := fromUtf8Lossy entry.fullName
  isDir := entry.isDirectory
  size := entry.fileSize.toNat
  cluster := entry.firstCluster

/-- The entries `read_dir_entries` lists from one cluster, and whether it met the end marker. -/
def listSlots (buf : List UInt8) : List Nat → List DirEntryInfo × Bool
  | [] => ([], false)
  | index :: rest =>
      let entry := slotAt buf index
      if entry.isEnd then ([], true)
      else if entry.isDeleted || entry.isLongName || entry.isVolumeLabel then listSlots buf rest
      else
        let info := DirEntryInfo.ofEntry entry
        if info.name = [0x2E] ∨ info.name = [0x2E, 0x2E] then listSlots buf rest
        else
          let (later, ended) := listSlots buf rest
          (info :: later, ended)

namespace Fat32Fs

def entriesPerCluster (fs : Fat32Fs) : Nat := fs.bpb.clusterSizeBytes / entrySize

def slotIndices (fs : Fat32Fs) : List Nat := List.range fs.entriesPerCluster

def searchChain (fs : Fat32Fs) (judge : Fat32DirEntry → Verdict) :
    List Nat → Disk String DirSearch
  | [] => pure .exhausted
  | cluster :: rest => do
      let buf ← fs.readCluster cluster fs.clusterZeros
      match searchSlots judge buf fs.slotIndices with
      | .stopped => pure .stopped
      | .taken index => pure (.taken cluster buf index)
      | .passed => fs.searchChain judge rest

def listChain (fs : Fat32Fs) : List Nat → Disk String (List DirEntryInfo)
  | [] => pure []
  | cluster :: rest => do
      let buf ← fs.readCluster cluster fs.clusterZeros
      let (listed, ended) := listSlots buf fs.slotIndices
      if ended then pure listed
      else do
        let later ← fs.listChain rest
        pure (listed ++ later)

def readDirEntries (fs : Fat32Fs) (dirCluster : Nat) : Disk String (List DirEntryInfo) := do
  let chain ← fs.readChain dirCluster
  fs.listChain chain

def writeSlot (fs : Fat32Fs) (cluster : Nat) (buf : List UInt8) (index : Nat)
    (bytes : List UInt8) : Disk String Unit :=
  fs.writeCluster cluster (splice buf (index * entrySize) bytes)

def findEntry (fs : Fat32Fs) (dirCluster : Nat) (nameUpper : List UInt8) :
    Disk String (Option Fat32DirEntry) := do
  let chain ← fs.readChain dirCluster
  match ← fs.searchChain (judgeName nameUpper) chain with
  | .taken _ buf index => pure (some (slotAt buf index))
  | _ => pure none

def addEntry (fs : Fat32Fs) (dirCluster : Nat) (newEntry : Fat32DirEntry) : Disk String Unit := do
  let chain ← fs.readChain dirCluster
  match ← fs.searchChain judgeVacant chain with
  | .taken cluster buf index => fs.writeSlot cluster buf index newEntry.toBytes
  | _ =>
      let newCluster ← fs.allocCluster
      if fs.bpb.clusterSizeBytes < entrySize then Disk.panics
      else
        match chain.getLast? with
        | none => Disk.fail "Empty chain"
        | some lastCluster =>
            fs.writeFatEntry lastCluster newCluster
            fs.writeFatEntry newCluster fat32Eoc
            fs.writeCluster newCluster (splice fs.clusterZeros 0 newEntry.toBytes)

def removeEntry (fs : Fat32Fs) (dirCluster : Nat) (nameUpper : List UInt8) :
    Disk String Fat32DirEntry := do
  let chain ← fs.readChain dirCluster
  match ← fs.searchChain (judgeName nameUpper) chain with
  | .taken cluster buf index =>
      fs.writeSlot cluster buf index [0xE5]
      pure (slotAt buf index)
  | _ => Disk.fail "File not found"

end Fat32Fs

end ArcadiaOs.Fs
