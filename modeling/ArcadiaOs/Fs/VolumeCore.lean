import ArcadiaOs.Fs.PathWalk

/-!
The file system as a machine on volumes: what each call answers and the volume it
leaves, as functions of the volume alone.  The driver is shown to refine it.
-/

namespace ArcadiaOs.Fs

open Lib

namespace Volume

/-- `allocate_and_write`: the first cluster of the new chain, when there is space. -/
def place (fs : Fat32Fs) (volume : Volume) (data : List UInt8) : Option Nat × Volume :=
  match volume.firstFree fs with
  | none => (none, volume)
  | some cluster =>
      let reserved := volume.reserve fs cluster
      if fs.clustersNeeded data ≤ 1 then (some cluster, reserved.store fs [cluster] [] data)
      else
        match reserved.firstFree fs with
        | none => (none, reserved)
        | some next => (some cluster, reserved.store fs [cluster] [next] data)

/-- `write_file_data`, and whether there was space. -/
def rewrite (fs : Fat32Fs) (volume : Volume) (start : Nat) (data : List UInt8) : Bool × Volume :=
  let clusters := volume.chainOf start
  if fs.clustersNeeded data ≤ clusters.length then (true, volume.store fs clusters [] data)
  else
    match volume.firstFree fs with
    | none => (false, volume)
    | some cluster => (true, volume.store fs clusters [cluster] data)

/-- `add_entry`, and whether there was space. -/
def putEntry (fs : Fat32Fs) (volume : Volume) (dir : Nat) (entry : Fat32DirEntry) :
    Bool × Volume :=
  match volume.scan judgeVacant (volume.slotsOf fs dir) with
  | .taken position => (true, volume.setEntry position entry)
  | _ =>
      match volume.firstFree fs, (volume.chainOf dir).getLast? with
      | some cluster, some last => (true, volume.growDir fs last cluster entry)
      | _, _ => (false, volume)

def findIn (fs : Fat32Fs) (volume : Volume) (dir : Nat) (path : Path) : Option Position :=
  volume.find (toUpper83 (fileName path)) (volume.slotsOf fs dir)

/-- The entry a path names is not one of the dots, or such a dot stands for no chain. -/
def SparesDots (fs : Fat32Fs) (volume : Volume) (path : Path) : Prop :=
  ∀ dir position, volume.parentOf fs path = .ok dir →
    volume.findIn fs dir path = some position → IsDot (volume.entry position) →
    (volume.entry position).firstCluster < 2

/-- The bytes a regular entry stands for. -/
def bytesOf (volume : Volume) (entry : Fat32DirEntry) : List UInt8 :=
  fit entry.fileSize.toNat (volume.contents (volume.chainOf entry.firstCluster))

def free (volume : Volume) (start : Nat) : Volume := volume.release (volume.chainOf start)

def relinked (entry : Fat32DirEntry) (cluster size : Nat) : Fat32DirEntry :=
  { entry.setFirstCluster cluster with fileSize := UInt32.ofNat size }

def resized (entry : Fat32DirEntry) (size : Nat) : Fat32DirEntry :=
  { entry with fileSize := UInt32.ofNat size }

section Calls

variable (fs : Fat32Fs) (volume : Volume)

def readContent (path : Path) : Except VfsError (List UInt8) :=
  match volume.parentOf fs path with
  | .error reason => .error reason
  | .ok dir =>
      if fileName path = [] then .ok []
      else
        match volume.findIn fs dir path with
        | none => .error .notFound
        | some position =>
            if (volume.entry position).isDirectory then .error .notAFile
            else .ok (volume.bytesOf (volume.entry position))

def listAt (path : Path) : Except VfsError (List DirEntryInfo) :=
  match volume.walk fs (pathComponents path) fs.bpb.rootCluster.toNat with
  | .error reason => .error reason
  | .ok dir => .ok (volume.listing (volume.slotsOf fs dir))

def enter (dir : Nat) (entry : Fat32DirEntry) : Except VfsError Unit × Volume :=
  match volume.putEntry fs dir entry with
  | (true, volume') => (.ok (), volume')
  | (false, volume') => (.error .ioError, volume')

def createFile (path : Path) (data : List UInt8) : Except VfsError Unit × Volume :=
  match volume.parentOf fs path with
  | .error reason => (.error reason, volume)
  | .ok dir =>
      if fileName path = [] then (.error .invalidPath, volume)
      else
        match volume.findIn fs dir path with
        | some position =>
            let entry := volume.entry position
            if entry.isDirectory then (.error .notAFile, volume)
            else
              match (volume.free entry.firstCluster).place fs data with
              | (none, volume') => (.error .noSpace, volume')
              | (some cluster, volume') =>
                  (.ok (), volume'.setEntry position (relinked entry cluster data.length))
        | none =>
            match volume.place fs data with
            | (none, volume') => (.error .noSpace, volume')
            | (some cluster, volume') =>
                volume'.enter fs dir
                  (VfsManager.newEntry (toUpper83 (fileName path)) 0x20 cluster data.length)

def dots (cluster parent : Nat) : List UInt8 :=
  splice (splice fs.clusterZeros 0 (VfsManager.dotEntry [0x2E] cluster).toBytes) entrySize
    (VfsManager.dotEntry [0x2E, 0x2E] parent).toBytes

def mkdir (path : Path) : Except VfsError Unit × Volume :=
  match volume.parentOf fs path with
  | .error reason => (.error reason, volume)
  | .ok dir =>
      if fileName path = [] then (.error .invalidPath, volume)
      else
        match volume.findIn fs dir path with
        | some _ => (.error .alreadyExists, volume)
        | none =>
            match volume.firstFree fs with
            | none => (.error .noSpace, volume)
            | some cluster =>
                ((volume.setData cluster (dots fs cluster dir)).setFat cluster fat32Eoc).enter fs dir
                  (VfsManager.newEntry (toUpper83 (fileName path)) 0x10 cluster 0)

def delete (path : Path) : Except VfsError Unit × Volume :=
  match volume.parentOf fs path with
  | .error reason => (.error reason, volume)
  | .ok dir =>
      if fileName path = [] then (.error .invalidPath, volume)
      else
        match volume.findIn fs dir path with
        | none => (.error .ioError, volume)
        | some position =>
            (.ok (), (volume.erase position).free (volume.entry position).firstCluster)

def updateSize (path : Path) (size : Nat) : Except VfsError Unit × Volume :=
  match volume.parentOf fs path with
  | .error reason => (.error reason, volume)
  | .ok dir =>
      if fileName path = [] then (.ok (), volume)
      else
        match volume.findIn fs dir path with
        | none => (.ok (), volume)
        | some position =>
            (.ok (), volume.setEntry position (resized (volume.entry position) size))

variable (vfs : VfsManager)

def openFile (path : Path) (mode : FileMode) : Except VfsError (Nat × VfsManager) × Volume :=
  let pathClean := vfs.canonicalize path
  let opened (size cluster : Nat) : Nat × VfsManager :=
    (vfs.nextFd, vfs.addDescriptor pathClean mode size cluster)
  match volume.parentOf fs pathClean with
  | .error reason => (.error reason, volume)
  | .ok dir =>
      if fileName pathClean = [] then
        if mode = .read then (.ok (opened 0 dir), volume) else (.error .invalidPath, volume)
      else
        match mode, volume.findIn fs dir pathClean with
        | .read, none | .write, none => (.error .notFound, volume)
        | .createNew, some _ => (.error .alreadyExists, volume)
        | .read, some position | .write, some position | .create, some position =>
            let entry := volume.entry position
            if entry.isDirectory then (.error .notAFile, volume)
            else (.ok (opened entry.fileSize.toNat entry.firstCluster), volume)
        | .create, none | .createNew, none =>
            match volume.place fs [] with
            | (none, volume') => (.error .noSpace, volume')
            | (some cluster, volume') =>
                match volume'.enter fs dir
                  (VfsManager.newEntry (toUpper83 (fileName pathClean)) 0x20 cluster 0) with
                | (.error reason, volume'') => (.error reason, volume'')
                | (.ok _, volume'') => (.ok (opened 0 cluster), volume'')

def patch (file : FileDescriptor) (data : List UInt8) : List UInt8 :=
  if file.pos = 0 then data
  else
    splice (fit (max (file.pos + data.length) file.size)
      ((volume.contents (volume.chainOf file.cluster)).take file.size)) file.pos data

def sizeAfter (file : FileDescriptor) (data : List UInt8) : Nat :=
  wrap32 (max (file.pos + data.length) file.size)

def recordSize (path : Path) (size : Nat) : Except VfsError Unit × Volume :=
  if size > 0 then volume.updateSize fs path size else (.ok (), volume)

def write (fd : Nat) (data : List UInt8) : Except VfsError Nat × VfsManager × Volume :=
  match vfs.fileTable.find? fun file => file.fd = fd with
  | none => (.error .notFound, vfs, volume)
  | some file =>
      if file.mode = .read then (.error .permissionDenied, vfs, volume)
      else
        match volume.rewrite fs file.cluster (volume.patch file data) with
        | (false, volume') => (.error .ioError, vfs, volume')
        | (true, volume') =>
            let size := sizeAfter file data
            let vfs' := vfs.advance fd { file with pos := file.pos + data.length, size }
            match volume'.recordSize fs file.path size with
            | (.error reason, volume'') => (.error reason, vfs', volume'')
            | (.ok _, volume'') => (.ok data.length, vfs', volume'')

end Calls

end Volume

end ArcadiaOs.Fs
