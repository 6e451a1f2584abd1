import ArcadiaOs.Fs.Deletion
import ArcadiaOs.Fs.PositionedWrite
import ArcadiaOs.Fs.SequentialRead

/-!
The first write to a file without clusters.  `write_file_data` starts a chain for the data, and its
first cluster is recorded neither in the directory entry nor in the descriptor.
-/

namespace ArcadiaOs.Fs

open Lib

/-- Once the path has been opened and the data written, the path reads as the data, and whatever has
been allocated is in the chain of the file's entry. -/
def FirstWriteKept (fs : Fat32Fs) (vfs : VfsManager) (device : Device) (path : Path) (mode : FileMode)
    (position : Position) (data : List UInt8) : Prop :=
  ∀ fd opened middle count written device',
    vfs.openFile path mode device = .ok (fd, opened) middle →
    opened.write fd data middle = (.ok count device', written) →
    (written.readFileContent path).answer device' = .ok data ∧
    ∀ cluster, (fs.view device).fat cluster = 0 → (fs.view device').fat cluster ≠ 0 →
      cluster ∈ (fs.view device').chainOf ((fs.view device').entry position).firstCluster

structure EmptyFile (fs : Fat32Fs) (volume : Volume) (path : Path) (position : Position) : Prop where
  names : volume.Names fs path position
  regular : (volume.entry position).isDirectory = false
  start : (volume.entry position).firstCluster = 0
  size : (volume.entry position).fileSize = 0

namespace Volume

variable {fs : Fat32Fs} {volume : Volume}

theorem needed_pos (geometry : fs.Geometry) {data : List UInt8} (nonempty : data ≠ []) :
    0 < fs.clustersNeeded data := by
  by_contra none
  have bound := @Fat32Fs.length_of_needed fs data geometry 0 (Nat.le_of_not_lt none)
  rw [Nat.zero_mul, Nat.le_zero, List.length_eq_zero_iff] at bound
  exact nonempty bound

theorem openFile_empty {vfs : VfsManager} {path : Path} {mode : FileMode} {position : Position}
    (writing : mode = .write ∨ mode = .create)
    (file : EmptyFile fs volume (vfs.canonicalize path) position) :
    volume.openFile fs vfs path mode =
      (.ok (vfs.nextFd, vfs.addDescriptor (vfs.canonicalize path) mode 0 0), volume) := by
  obtain ⟨⟨_, named, dir, parent, found⟩, regular, start, size⟩ := file
  simp only [openFile, parent, if_neg named, found]
  rcases writing with rfl | rfl
  · simp only [regular, Bool.false_eq_true, if_false, start, size]
    rfl
  · simp only [regular, Bool.false_eq_true, if_false, start, size]
    rfl

end Volume

section FirstWrite

variable {fs : Fat32Fs} (geometry : fs.Geometry) {vfs : VfsManager} (mounted : Mounted fs vfs)
  {device : Device} (healthy : device.Healthy) (sound : (fs.view device).Sound fs)
  (numbered : vfs.Numbered) {path : Path} {mode : FileMode} {position : Position}
  (writing : mode = .write ∨ mode = .create)
  (file : EmptyFile fs (fs.view device) (vfs.canonicalize path) position)
include geometry mounted healthy sound writing file

theorem open_runs : ∃ middle, middle.Healthy ∧ fs.view middle = fs.view device ∧
    vfs.openFile path mode device =
      .ok (vfs.nextFd, vfs.addDescriptor (vfs.canonicalize path) mode 0 0) middle := by
  obtain ⟨middle, ran, healthy', holds⟩ :=
    mounted.openFile_runs geometry sound file.names.proper mode device healthy rfl
  rw [Volume.openFile_empty writing file] at ran holds
  exact ⟨middle, healthy', holds, ran⟩

include numbered

omit healthy in
theorem first_write_cases {data : List UInt8} (nonempty : data ≠ []) {middle : Device}
    (healthy' : middle.Healthy) (holds : fs.view middle = fs.view device) :
    ((fs.view device).firstFree fs = none ∧ ∃ device',
      (vfs.addDescriptor (vfs.canonicalize path) mode 0 0).write vfs.nextFd data middle =
        (.error (.error .ioError) device', vfs.addDescriptor (vfs.canonicalize path) mode 0 0)) ∨
    ∃ cluster count device' written, (fs.view device).firstFree fs = some cluster ∧
      (vfs.addDescriptor (vfs.canonicalize path) mode 0 0).write vfs.nextFd data middle =
        (.ok count device', written) ∧
      (fs.view device').fat cluster = fat32Eoc ∧
      ((fs.view device').entry position).firstCluster = 0 := by
  have mounted' : Mounted fs (vfs.addDescriptor (vfs.canonicalize path) mode 0 0) :=
    ⟨mounted.fatFs, mounted.rootCluster⟩
  have live := file.names.live geometry sound file.regular
  have shaped := Fat32Fs.length_view_data geometry device
  have needed := Volume.needed_pos geometry nonempty
  have search := VfsManager.find_addDescriptor numbered (vfs.canonicalize path) mode 0 0
  obtain ⟨names, regular, start, _⟩ := file
  rw [← holds] at sound names regular start live shaped ⊢
  have chain : (fs.view middle).Chain fs 0 [] := Volume.chain_absent (by decide)
  rcases write_outcomes geometry mounted' healthy' sound search writing names regular start chain data
    with ⟨_, full, device', refused⟩ | ⟨tail, device', extension, ran, holds', _⟩
  · exact .inl ⟨full, device', refused⟩
  · have grown := extension
    rw [Volume.patch, if_pos rfl] at grown
    rcases grown with ⟨enough, _⟩ | ⟨_, cluster, found, rfl⟩
    · exact absurd enough (Nat.not_le.mpr needed)
    · refine .inr ⟨cluster, data.length, device', _, found, ran, ?_, ?_⟩
      · rw [holds', Volume.written]
        split
        · exact Function.update_self _ _ _
        · exact Function.update_self _ _ _
      · rw [holds', Volume.written_entry_same extension shaped live List.not_mem_nil]
        split
        · exact start
        · exact start

theorem first_write_dropped {data : List UInt8} (nonempty : data ≠ [])
    (room : (fs.view device).firstFree fs ≠ none) :
    ¬FirstWriteKept fs vfs device path mode position data := by
  intro kept
  obtain ⟨middle, healthy', holds, opened⟩ :=
    open_runs geometry mounted healthy sound writing file
  rcases first_write_cases geometry mounted sound numbered writing file nonempty healthy' holds with
    ⟨full, _⟩ | ⟨cluster, count, device', written, found, wrote, taken, start⟩
  · exact room full
  · obtain ⟨_, marked⟩ := kept _ _ _ _ _ _ opened wrote
    have member := marked cluster (Volume.firstFree_some found).2 (by rw [taken]; decide)
    rw [start] at member
    cases member

/-- The first write is kept exactly when there is no cluster for it, and it is refused. -/
theorem first_write_kept_iff {data : List UInt8} (nonempty : data ≠ []) :
    FirstWriteKept fs vfs device path mode position data ↔ (fs.view device).firstFree fs = none := by
  constructor
  · intro kept
    by_contra room
    exact first_write_dropped geometry mounted healthy sound numbered writing file nonempty room kept
  · intro full fd vfs' other count written device' opens writes
    obtain ⟨middle, healthy', holds, opened⟩ :=
      open_runs geometry mounted healthy sound writing file
    rw [opened] at opens
    injection opens with same sameDevice
    injection same with sameFd sameVfs
    subst sameFd sameVfs sameDevice
    rcases first_write_cases geometry mounted sound numbered writing file nonempty healthy' holds with
      ⟨_, after, refused⟩ | ⟨cluster, _, _, _, found, _⟩
    · rw [writes] at refused
      cases refused
    · rw [full] at found
      cases found

end FirstWrite

/-! The blank volume with an empty file `/A`. -/

def emptyFileDevice : Device where
  sector lba :=
    if lba = 2 then filledSector 0 (VfsManager.newEntry [0x41] 0x20 0 0).toBytes (by decide)
    else blankDevice.sector lba
  readable _ := true
  writable _ := true

def emptyFileSession : Session := { blankSession with device := emptyFileDevice }

theorem emptyFile_named : EmptyFile smallFs (smallFs.view emptyFileDevice)
    (emptyFileSession.vfs.canonicalize [0x2F, 0x41]) (2, 0) := by
  refine ⟨⟨?_, ?_, 2, ?_, ?_⟩, ?_, ?_, ?_⟩
  all_goals decide

theorem emptyFile_sound : (smallFs.view emptyFileDevice).Sound smallFs := by
  have ended : (smallFs.view emptyFileDevice).fat 2 = fat32Eoc := by decide
  have root : (smallFs.view emptyFileDevice).Chain smallFs 2 [2] :=
    Volume.chain_single (by decide) ended.ge
  have slots : ∀ position ∈ smallFs.positions [2],
      Occupied ((smallFs.view emptyFileDevice).entry position) → position = (2, 0) := by
    decide +kernel
  obtain ⟨_, regular, start, _⟩ := emptyFile_named
  generalize smallFs.view emptyFileDevice = volume at root slots start regular ⊢
  refine @Volume.sound_of_listed smallFs volume smallFs_geometry [.root, .slot (2, 0)]
    (fun owner => if owner = .root then [2] else []) List.mem_cons_self ?owned ?closed ?present ?apart
  case owned =>
    intro owner member
    rcases List.mem_pair.mp member with rfl | rfl
    · exact root
    · exact Volume.chain_absent (by rw [Volume.start, start]; decide)
  case closed =>
    intro owner member directory position inside occupied
    rcases List.mem_pair.mp member with rfl | rfl
    · rw [slots position inside occupied]
      decide
    · rw [Volume.directory, regular] at directory
      cases directory
  case present =>
    intro owner member directory
    rcases List.mem_pair.mp member with rfl | rfl
    · exact show 2 ≤ smallFs.bpb.rootCluster.toNat by decide
    · rw [Volume.directory, regular] at directory
      cases directory
  case apart =>
    intro owner member other otherMember different
    rcases List.mem_pair.mp member with rfl | rfl
    · rcases List.mem_pair.mp otherMember with rfl | rfl
      · exact absurd rfl different
      · exact List.disjoint_nil_right _
    · exact List.disjoint_nil_left _

theorem emptyFile_numbered : emptyFileSession.vfs.Numbered := nofun

theorem first_write_kept_byte :
    FirstWriteKept smallFs emptyFileSession.vfs emptyFileDevice [0x2F, 0x41] .write (2, 0) [7] ↔
      (smallFs.view emptyFileDevice).firstFree smallFs = none :=
  first_write_kept_iff smallFs_geometry ⟨rfl, rfl⟩ (fun _ => ⟨rfl, rfl⟩) emptyFile_sound
    emptyFile_numbered (.inl rfl) emptyFile_named (by decide)

/-- The byte is accepted and its cluster taken, and the file reads as a zero. -/
theorem first_write_lost :
    let run : List Call := [.openFile [0x2F, 0x41] .write, .write 1 [7]]
    let after := Session.machine.final emptyFileSession run
    emptyFileSession.Ready smallFs ∧
    EmptyFile smallFs (smallFs.view emptyFileDevice) [0x2F, 0x41] (2, 0) ∧
    (Session.machine.events emptyFileSession run).map (fun event => event.answer) =
      [.ok (.descriptor 1), .ok (.count 1)] ∧
    (smallFs.view emptyFileDevice).fat 3 = 0 ∧ (smallFs.view after.device).fat 3 = fat32Eoc ∧
    (after.vfs.readFileContent [0x2F, 0x41]).answer after.device = .ok [0] ∧
    ¬FirstWriteKept smallFs emptyFileSession.vfs emptyFileDevice [0x2F, 0x41] .write (2, 0) [7] := by
  have ready : emptyFileSession.Ready smallFs :=
    ⟨⟨rfl, rfl⟩, fun _ => ⟨rfl, rfl⟩, emptyFile_sound⟩
  refine ⟨ready, emptyFile_named, by decide +kernel, by decide, by decide +kernel,
    by decide +kernel, ?_⟩
  exact first_write_dropped smallFs_geometry ready.mounted ready.healthy emptyFile_sound
    emptyFile_numbered (.inl rfl) emptyFile_named (by decide) (by decide)

end ArcadiaOs.Fs
