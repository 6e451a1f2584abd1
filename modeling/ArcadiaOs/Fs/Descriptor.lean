import ArcadiaOs.Fs.ClusterOwnership

/-!
Writes through a descriptor.  While the path of the descriptor leads to a regular file
that starts at the descriptor's cluster, a write stores into that file and into free
clusters, and every other file and directory stays as it was.
-/

namespace ArcadiaOs.Fs

open Lib

namespace Volume

variable {fs : Fat32Fs} {volume volume' : Volume}

/-- The path leads through directories to the entry at a position. -/
structure Names (fs : Fat32Fs) (volume : Volume) (path : Path) (position : Position) : Prop where
  proper : volume.ProperPath fs path
  named : fileName path ≠ []
  found : ∃ dir, volume.parentOf fs path = .ok dir ∧ volume.findIn fs dir path = some position

/-- The path of the descriptor leads to a regular file that starts at its cluster. -/
def Current (fs : Fat32Fs) (volume : Volume) (file : FileDescriptor) : Prop :=
  ∃ position, volume.Names fs file.path position ∧
    (volume.entry position).isDirectory = false ∧
    (volume.entry position).firstCluster = file.cluster

section Sound

variable (geometry : fs.Geometry) (sound : volume.Sound fs)
include geometry sound

theorem Names.parent {path : Path} {position : Position} (names : volume.Names fs path position) :
    ∃ dir, volume.LiveDir fs dir ∧ volume.parentOf fs path = .ok dir ∧
      volume.findIn fs dir path = some position := by
  obtain ⟨dir, parent, found⟩ := names.found
  exact ⟨dir, Mounted.parent_live geometry sound names.proper parent, parent, found⟩

theorem Names.live {path : Path} {position : Position} (names : volume.Names fs path position)
    (regular : (volume.entry position).isDirectory = false) :
    volume.Live fs (.slot position) := by
  obtain ⟨dir, live, _, found⟩ := names.parent geometry sound
  exact live.found geometry sound found (not_dot_of_regular regular)

theorem Current.writable {file : FileDescriptor} (current : volume.Current fs file) :
    volume.Writable fs file.cluster := by
  obtain ⟨position, names, regular, start⟩ := current
  exact .inr ⟨position, names.live geometry sound regular, regular, start⟩

theorem SameDirs.names (same : volume.SameDirs fs volume') {path : Path} {position : Position}
    (names : volume.Names fs path position) : volume'.Names fs path position := by
  obtain ⟨dir, live, parent, found⟩ := names.parent geometry sound
  refine ⟨same.properPath geometry sound names.proper, names.named, dir, ?_, ?_⟩
  · exact (same.parentOf_eq geometry sound names.proper).trans parent
  · exact (same.findIn_eq geometry sound live path).trans found

end Sound

theorem bytesOf_kept (geometry : fs.Geometry) {entry : Fat32DirEntry} {clusters : List Nat}
    (chain : volume.Chain fs entry.firstCluster clusters)
    (kept : ∀ cluster ∈ clusters, volume.Kept volume' cluster) :
    volume'.bytesOf entry = volume.bytesOf entry := by
  rw [bytesOf, bytesOf, geometry.chainOf_eq (chain.kept kept), geometry.chainOf_eq chain,
    contents_congr fun cluster member => (kept cluster (Chain.mem_visible member)).2]

/-- What a write through a current descriptor leaves: the data stored in the file's clusters and
a free one, and the new size in the file's slot. -/
def written (fs : Fat32Fs) (volume : Volume) (file : FileDescriptor) (data : List UInt8)
    (position : Position) (clusters tail : List Nat) : Volume :=
  let stored := volume.store fs (Fat32Fs.visible clusters) tail (volume.patch file data)
  if sizeAfter file data > 0 then
    stored.setEntry position (resized (volume.entry position) (sizeAfter file data))
  else stored

theorem write_current (geometry : fs.Geometry) (sound : volume.Sound fs) {vfs : VfsManager}
    {fd : Nat} {file : FileDescriptor}
    (search : vfs.fileTable.find? (fun file => file.fd = fd) = some file)
    (writing : file.mode ≠ .read) {position : Position}
    (names : volume.Names fs file.path position)
    (regular : (volume.entry position).isDirectory = false)
    (start : (volume.entry position).firstCluster = file.cluster) {clusters : List Nat}
    (owned : volume.Owns fs (.slot position) clusters) (data : List UInt8) :
    ((Fat32Fs.visible clusters).length < fs.clustersNeeded (volume.patch file data) ∧
        volume.firstFree fs = none ∧
        volume.write fs vfs fd data = (.error .ioError, vfs, volume)) ∨
      ∃ tail, volume.Extension fs (Fat32Fs.visible clusters) (volume.patch file data) tail ∧
        volume.write fs vfs fd data =
          (.ok data.length,
            vfs.advance fd { file with pos := file.pos + data.length, size := sizeAfter file data },
            volume.written fs file data position clusters tail) := by
  have live := names.live geometry sound regular
  have chain : volume.Chain fs file.cluster clusters := start ▸ owned
  have writable : volume.Writable fs file.cluster := .inr ⟨position, live, regular, start⟩
  have same := rewrite_sameDirs geometry sound writable (volume.patch file data)
  simp only [write, search, if_neg writing]
  rcases rewrite_cases geometry chain (volume.patch file data) with ⟨short, full, outcome⟩ |
    ⟨tail, extension, outcome⟩
  · rw [outcome]
    exact .inl ⟨short, full, rfl⟩
  · rw [outcome] at same ⊢
    refine .inr ⟨tail, extension, ?_⟩
    have slotKept : (volume.store fs (Fat32Fs.visible clusters) tail
        (volume.patch file data)).entry position = volume.entry position := by
      refine (store_kept fun member => ?_).entry
      rcases List.mem_append.mp member with old | new
      · exact live.outside sound live regular owned (Chain.mem_visible old)
      · exact live.claimed.1.not_free (extension.fresh new).2
    obtain ⟨_, named, dir, parent, found⟩ := same.names geometry sound names
    simp only [recordSize, updateSize, written]
    by_cases empty : sizeAfter file data > 0
    · simp only [if_pos empty, parent, if_neg named, found, slotKept]
    · simp only [if_neg empty]

section Written

variable {file : FileDescriptor} {data : List UInt8} {position : Position}
  {clusters tail : List Nat}

theorem store_kept_other
    (extension : volume.Extension fs (Fat32Fs.visible clusters) data tail) {cluster : Nat}
    (claimed : volume.Claimed fs cluster) (outside : cluster ∉ clusters) :
    volume.Kept (volume.store fs (Fat32Fs.visible clusters) tail data) cluster := by
  refine store_kept fun member => ?_
  rcases List.mem_append.mp member with old | new
  · exact outside (Chain.mem_visible old)
  · exact claimed.not_free (extension.fresh new).2

variable (extension : volume.Extension fs (Fat32Fs.visible clusters) (volume.patch file data) tail)
include extension

theorem written_fat {cluster : Nat} (claimed : volume.Claimed fs cluster)
    (outside : cluster ∉ clusters) :
    (volume.written fs file data position clusters tail).fat cluster = volume.fat cluster := by
  have kept := (store_kept_other extension claimed outside).1
  rw [written]
  split
  · exact kept
  · exact kept

variable (shaped : volume.Shaped fs) (live : volume.Live fs (.slot position))
include shaped live

theorem written_entry_other {other : Position} (claimed : volume.Claimed fs other.1)
    (outside : other.1 ∉ clusters) (different : other ≠ position) :
    (volume.written fs file data position clusters tail).entry other = volume.entry other := by
  have kept := store_kept_other extension claimed outside
  rw [written]
  split
  · rw [setEntry_entry_other (store_shaped shaped) live.claimed.2 _ different, kept.entry]
  · exact kept.entry

theorem written_entry_same (outside : position.1 ∉ clusters) :
    (volume.written fs file data position clusters tail).entry position =
      if sizeAfter file data > 0 then resized (volume.entry position) (sizeAfter file data)
      else volume.entry position := by
  rw [written]
  split
  · rw [setEntry_entry_same (store_shaped shaped) live.claimed.2]
  · exact (store_kept_other extension live.claimed.1 outside).entry

theorem written_sameDirs (sound : volume.Sound fs)
    (regular : (volume.entry position).isDirectory = false)
    (owned : volume.Owns fs (.slot position) clusters) :
    volume.SameDirs fs (volume.written fs file data position clusters tail) := by
  refine ⟨fun dir others dirLive chain => ?_, fun dir others dirLive chain other member => ?_⟩
  · refine chain.congr fun cluster member => ?_
    exact written_fat extension (dirLive.claimed chain member)
      (dirLive.apart sound chain live regular owned member)
  · obtain ⟨inside, _⟩ := Fat32Fs.mem_positions.mp member
    have outside := dirLive.apart sound chain live regular owned inside
    by_cases same : other = position
    · subst same
      rw [written_entry_same extension shaped live outside]
      split
      · exact ⟨rfl, rfl, rfl, fun _ => rfl⟩
      · exact SameName.refl _
    · rw [written_entry_other extension shaped live (dirLive.claimed chain inside) outside same]
      exact SameName.refl _

end Written

end Volume

end ArcadiaOs.Fs
