import ArcadiaOs.Fs.DirCore

/-!
The virtual file system of `fs/vfs/mod.rs`.  Paths are the bytes of the source's
strings, so a split at a slash is a split of bytes.
-/

namespace ArcadiaOs.Fs

open Lib

inductive VfsError
  | notFound | notADirectory | notAFile | alreadyExists | permissionDenied | ioError | noSpace
  | invalidPath
  deriving DecidableEq

inductive FileMode
  | read | write | create | createNew
  deriving DecidableEq

abbrev Path := List UInt8

structure VfsNode where
  path : Path
  isDir : Bool
  size : Nat
  cluster : Nat
  deriving DecidableEq

structure FileDescriptor where
  fd : Nat
  path : Path
  mode : FileMode
  pos : Nat
  size : Nat
  cluster : Nat
  deriving DecidableEq

structure VfsManager where
  fatFs : Option Fat32Fs
  rootCluster : Nat
  fileTable : List FileDescriptor
  nextFd : Nat
  cwd : Path

def slash : UInt8 := 0x2F

def trimStart (path : Path) : Path := path.dropWhile (· = slash)

def components : Path → List Path
  | [] => [[]]
  | byte :: rest =>
      if byte = slash then [] :: components rest
      else
        match components rest with
        | [] => [[byte]]
        | first :: others => (byte :: first) :: others

/-- The path split at its last slash, if it has one. -/
def rsplit (path : Path) : Option (Path × Path) :=
  if slash ∈ path then
    let name := (path.reverse.takeWhile (· ≠ slash)).reverse
    some (path.take (path.length - name.length - 1), name)
  else none

def toUpper83 (name : Path) : Path := fromUtf8Lossy (name.map asciiUpper)

namespace VfsManager

def fs (vfs : VfsManager) : Disk VfsError Fat32Fs :=
  match vfs.fatFs with
  | none => Disk.fail .ioError
  | some fs => pure fs

def resolveComponent (vfs : VfsManager) (fs : Fat32Fs) (component : Path) (current : Nat) :
    Disk VfsError Nat :=
  if component = [] ∨ component = [0x2E] then pure current
  else if component = [0x2E, 0x2E] then
    if current = vfs.rootCluster then pure current
    else do
      let entries ← (fs.readDirEntries current).mapErr fun _ => .ioError
      match entries.find? fun entry => entry.name = [0x2E, 0x2E] with
      | some entry => pure entry.cluster
      | none => pure vfs.rootCluster
  else do
    let entries ← (fs.readDirEntries current).mapErr fun _ => .ioError
    match entries.find? fun entry => toUpper83 entry.name = toUpper83 component with
    | some entry => pure entry.cluster
    | none => Disk.fail .notFound

def resolveComponents (vfs : VfsManager) (fs : Fat32Fs) : List Path → Nat → Disk VfsError Nat
  | [], current => pure current
  | component :: rest, current => do
      let next ← vfs.resolveComponent fs component current
      vfs.resolveComponents fs rest next

/-- The source pairs the cluster with an empty string, which is left out here. -/
def resolvePath (vfs : VfsManager) (path : Path) : Disk VfsError Nat := do
  let fs ← vfs.fs
  let path := trimStart path
  if path = [] ∨ path = [0x2E] then pure vfs.rootCluster
  else vfs.resolveComponents fs (components path) vfs.rootCluster

def resolveParent (vfs : VfsManager) (path : Path) : Disk VfsError (Nat × Path) :=
  let path := trimStart path
  if path = [] then pure (vfs.rootCluster, [])
  else
    match rsplit path with
    | none => pure (vfs.rootCluster, path)
    | some (parent, name) =>
        if parent = [] then pure (vfs.rootCluster, name)
        else do
          let cluster ← vfs.resolvePath parent
          pure (cluster, name)

def canonicalize (vfs : VfsManager) (path : Path) : Path :=
  if path.head? = some slash then path
  else if vfs.cwd.getLast? = some slash then vfs.cwd ++ path
  else vfs.cwd ++ [slash] ++ path

def listDir (vfs : VfsManager) (path : Path) : Disk VfsError (List VfsNode) := do
  let fs ← vfs.fs
  let cluster ← vfs.resolvePath path
  let entries ← (fs.readDirEntries cluster).mapErr fun _ => .ioError
  pure (entries.map fun entry => ⟨entry.name, entry.isDir, entry.size, entry.cluster⟩)

def stat (vfs : VfsManager) (path : Path) : Disk VfsError VfsNode := do
  let fs ← vfs.fs
  let cluster ← vfs.resolvePath path
  let pathClean := vfs.canonicalize path
  let (parentCluster, fileName) ← vfs.resolveParent pathClean
  if fileName = [] then pure ⟨pathClean, true, 0, cluster⟩
  else do
    match ← (fs.findEntry parentCluster (toUpper83 fileName)).mapErr fun _ => .ioError with
    | none => Disk.fail .notFound
    | some entry => pure ⟨pathClean, entry.isDirectory, entry.fileSize.toNat, entry.firstCluster⟩

def newEntry (nameUpper : Path) (attributes : UInt8) (cluster size : Nat) : Fat32DirEntry :=
  { (Fat32DirEntry.zeroed.setName83 nameUpper).setFirstCluster cluster with
    attributes, fileSize := UInt32.ofNat size }

/-- `.` and `..` as `mkdir` writes them; the extension stays zeroed. -/
def dotEntry (name : Path) (cluster : Nat) : Fat32DirEntry :=
  { Fat32DirEntry.zeroed.setFirstCluster cluster with
    name := padded 8 name
    attributes := 0x10
    nameLength := length_padded _ _ }

def mkdir (vfs : VfsManager) (path : Path) : Disk VfsError Unit := do
  let fs ← vfs.fs
  let (parentCluster, dirName) ← vfs.resolveParent path
  if dirName = [] then Disk.fail .invalidPath
  else do
    let upperName := toUpper83 dirName
    let existing ← (fs.findEntry parentCluster upperName).mapErr fun _ => .ioError
    if existing.isSome then Disk.fail .alreadyExists
    else do
      let newCluster ← fs.allocCluster.mapErr fun _ => .noSpace
      if fs.bpb.clusterSizeBytes < 2 * entrySize then Disk.panics
      else do
        let buf := splice fs.clusterZeros 0 (dotEntry [0x2E] newCluster).toBytes
        let buf := splice buf entrySize (dotEntry [0x2E, 0x2E] parentCluster).toBytes
        (fs.writeCluster newCluster buf).mapErr fun _ => .ioError
        (fs.writeFatEntry newCluster fat32Eoc).mapErr fun _ => .ioError
        (fs.addEntry parentCluster (newEntry upperName 0x10 newCluster 0)).mapErr fun _ => .ioError

def updateDirEntry (vfs : VfsManager) (dirCluster : Nat) (nameUpper : Path)
    (newCluster newSize : Nat) : Disk VfsError Unit := do
  let fs ← vfs.fs
  let chain ← (fs.readChain dirCluster).mapErr fun _ => .ioError
  let found ← (fs.searchChain (judgeNamePastEnd nameUpper) chain).mapErr fun _ => .ioError
  match found with
  | .taken cluster buf index =>
      let entry :=
        { (slotAt buf index).setFirstCluster newCluster with fileSize := UInt32.ofNat newSize }
      (fs.writeSlot cluster buf index entry.toBytes).mapErr fun _ => .ioError
  | _ => Disk.fail .notFound

def freeOwned (fs : Fat32Fs) (entry : Fat32DirEntry) : Disk VfsError Unit :=
  if entry.firstCluster ≥ 2 then (fs.freeChain entry.firstCluster).mapErr fun _ => .ioError
  else pure ()

def replaceData (fs : Fat32Fs) (data : List UInt8) : Disk VfsError Nat :=
  if data = [] then do
    let cluster ← fs.allocCluster.mapErr fun _ => .noSpace
    (fs.writeFatEntry cluster fat32Eoc).mapErr fun _ => .ioError
    pure cluster
  else (fs.allocateAndWrite data).mapErr fun _ => .noSpace

def createFile (vfs : VfsManager) (path : Path) (data : List UInt8) : Disk VfsError Unit := do
  let fs ← vfs.fs
  let (parentCluster, fileName) ← vfs.resolveParent path
  if fileName = [] then Disk.fail .invalidPath
  else do
    let upperName := toUpper83 fileName
    match ← (fs.findEntry parentCluster upperName).mapErr fun _ => .ioError with
    | some entry =>
        if entry.isDirectory then Disk.fail .notAFile
        else do
          freeOwned fs entry
          let newCluster ← replaceData fs data
          vfs.updateDirEntry parentCluster upperName newCluster data.length
    | none =>
        let firstCluster ← (fs.allocateAndWrite data).mapErr fun _ => .noSpace
        (fs.addEntry parentCluster (newEntry upperName 0x20 firstCluster data.length)).mapErr
          fun _ => .ioError

def delete (vfs : VfsManager) (path : Path) : Disk VfsError Unit := do
  let fs ← vfs.fs
  let (parentCluster, fileName) ← vfs.resolveParent path
  if fileName = [] then Disk.fail .invalidPath
  else do
    let removed ← (fs.removeEntry parentCluster (toUpper83 fileName)).mapErr fun _ => .ioError
    freeOwned fs removed

def readFileContent (vfs : VfsManager) (path : Path) : Disk VfsError (List UInt8) := do
  let fs ← vfs.fs
  let (_, fileName) ← vfs.resolveParent path
  if fileName = [] then pure []
  else do
    let (parentCluster, _) ← vfs.resolveParent path
    match ← (fs.findEntry parentCluster (toUpper83 fileName)).mapErr fun _ => .ioError with
    | none => Disk.fail .notFound
    | some entry =>
        if entry.isDirectory then Disk.fail .notAFile
        else if entry.fileSize = 0 then pure []
        else do
          let size := entry.fileSize.toNat
          let (_, buf) ← (fs.readFile entry.firstCluster size (zeros size)).mapErr fun _ => .ioError
          pure buf

def read (vfs : VfsManager) (fd room : Nat) : Disk VfsError (List UInt8) :=
  match vfs.fileTable.find? fun file => file.fd = fd with
  | none => Disk.fail .notFound
  | some file => do
      let fs ← vfs.fs
      let bytesLeft := file.size - file.pos
      if bytesLeft = 0 then pure []
      else do
        let toRead := min room bytesLeft
        let (_, fileBuf) ←
          (fs.readFile file.cluster file.size (zeros file.size)).mapErr fun _ => .ioError
        let stop := min (file.pos + toRead) file.size
        pure (slice fileBuf file.pos (stop - file.pos))

def updateFileSize (vfs : VfsManager) (path : Path) (newSize : Nat) : Disk VfsError Unit := do
  let fs ← vfs.fs
  let (parentCluster, fileName) ← vfs.resolveParent path
  if fileName = [] then pure ()
  else do
    let chain ← (fs.readChain parentCluster).mapErr fun _ => .ioError
    let found ← (fs.searchChain (judgeName (toUpper83 fileName)) chain).mapErr fun _ => .ioError
    match found with
    | .taken cluster buf index =>
        let entry := { slotAt buf index with fileSize := UInt32.ofNat newSize }
        (fs.writeSlot cluster buf index entry.toBytes).mapErr fun _ => .ioError
    | _ => pure ()

def addDescriptor (vfs : VfsManager) (path : Path) (mode : FileMode) (size cluster : Nat) :
    VfsManager :=
  { vfs with
    nextFd := vfs.nextFd + 1
    fileTable := vfs.fileTable ++ [⟨vfs.nextFd, path, mode, 0, size, cluster⟩] }

/-- The descriptor and the manager that holds it; a failing `open` leaves the manager as it is. -/
def openFile (vfs : VfsManager) (path : Path) (mode : FileMode) :
    Disk VfsError (Nat × VfsManager) := do
  let fs ← vfs.fs
  let pathClean := vfs.canonicalize path
  let (parentCluster, fileName) ← vfs.resolveParent pathClean
  let opened (size cluster : Nat) : Nat × VfsManager :=
    (vfs.nextFd, vfs.addDescriptor pathClean mode size cluster)
  if fileName = [] then
    if mode = .read then do
      let cluster ← vfs.resolvePath pathClean
      pure (opened 0 cluster)
    else Disk.fail .invalidPath
  else do
    let upperName := toUpper83 fileName
    let existing ← (fs.findEntry parentCluster upperName).mapErr fun _ => .ioError
    match mode, existing with
    | .read, none | .write, none => Disk.fail .notFound
    | .read, some entry | .write, some entry =>
        if entry.isDirectory then Disk.fail .notAFile
        else pure (opened entry.fileSize.toNat entry.firstCluster)
    | .createNew, some _ => Disk.fail .alreadyExists
    | .create, some entry =>
        if entry.isDirectory then Disk.fail .notAFile
        else pure (opened entry.fileSize.toNat entry.firstCluster)
    | .create, none | .createNew, none => do
        let firstCluster ← (fs.allocateAndWrite []).mapErr fun _ => .noSpace
        (fs.addEntry parentCluster (newEntry upperName 0x20 firstCluster 0)).mapErr
          fun _ => .ioError
        pure (opened 0 firstCluster)

def currentData (fs : Fat32Fs) (file : FileDescriptor) (room : Nat) :
    Disk VfsError (List UInt8) :=
  if file.size > 0 then do
    let (_, buf) ← (fs.readFile file.cluster file.size (zeros room)).mapErr fun _ => .ioError
    pure buf
  else pure (zeros room)

/-- What `write` puts into the file: the data alone at position 0, else the whole file patched. -/
def patched (fs : Fat32Fs) (file : FileDescriptor) (data : List UInt8) :
    Disk VfsError (List UInt8) :=
  if file.pos = 0 then pure data
  else do
    let fullData ← currentData fs file (max (file.pos + data.length) file.size)
    pure (splice fullData file.pos data)

def storeData (vfs : VfsManager) (file : FileDescriptor) (data : List UInt8) :
    Disk VfsError Unit := do
  let fs ← vfs.fs
  let fullData ← patched fs file data
  (fs.writeFileData file.cluster fullData).mapErr fun _ => .ioError

def recordSize (vfs : VfsManager) (path : Path) (size : Nat) : Disk VfsError Unit :=
  if size > 0 then vfs.updateFileSize path size else pure ()

/-- The first descriptor with the number, advanced past the data written. -/
def advance (vfs : VfsManager) (fd : Nat) (file : FileDescriptor) : VfsManager :=
  { vfs with
    fileTable := vfs.fileTable.set (vfs.fileTable.findIdx fun other => other.fd = fd) file }

/-- The outcome of `write` together with the manager, which is kept on failure too: the descriptor
has advanced when the size update fails. -/
def write (vfs : VfsManager) (fd : Nat) (data : List UInt8) (device : Device) :
    EStateM.Result (Halt VfsError) Device Nat × VfsManager :=
  match vfs.fileTable.find? fun file => file.fd = fd with
  | none => (.error (.error .notFound) device, vfs)
  | some file =>
      if file.mode = .read then (.error (.error .permissionDenied) device, vfs)
      else
        match vfs.storeData file data device with
        | .error halt device' => (.error halt device', vfs)
        | .ok _ device' =>
            let pos := file.pos + data.length
            let size := wrap32 (max pos file.size)
            let vfs' := vfs.advance fd { file with pos, size }
            match vfs'.recordSize file.path size device' with
            | .error halt device'' => (.error halt device'', vfs')
            | .ok _ device'' => (.ok data.length device'', vfs')

def close (vfs : VfsManager) (fd : Nat) : VfsManager :=
  { vfs with fileTable := vfs.fileTable.filter fun file => file.fd ≠ fd }

end VfsManager

end ArcadiaOs.Fs
