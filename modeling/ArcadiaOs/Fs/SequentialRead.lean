import ArcadiaOs.Fs.ClusterOwnership
import ArcadiaOs.Lib.Footprint

/-!
Reading a file piece by piece.  `read` takes the manager by shared reference and leaves
the position of the descriptor where `open` put it, so every read answers with the front
of the file.
-/

namespace ArcadiaOs.Fs

open Lib

namespace VfsManager

theorem openFile_ok {vfs vfs' : VfsManager} {path : Path} {mode : FileMode} {device device' : Device}
    {fd : Nat} (opened : vfs.openFile path mode device = .ok (fd, vfs') device') :
    ∃ size cluster, vfs' = vfs.addDescriptor (vfs.canonicalize path) mode size cluster := by
  have descriptor {size cluster : Nat} {before : Device}
      (answered : (pure (vfs.nextFd, vfs.addDescriptor (vfs.canonicalize path) mode size cluster) :
        Disk VfsError (Nat × VfsManager)) before = .ok (fd, vfs') device') :
      ∃ size cluster, vfs' = vfs.addDescriptor (vfs.canonicalize path) mode size cluster := by
    injection answered with same _
    exact ⟨size, cluster, (Prod.mk.inj same).2.symm⟩
  rw [openFile] at opened
  obtain ⟨fs, _, _, opened⟩ := Lib.bind_ok.mp opened
  obtain ⟨⟨parent, name⟩, _, _, opened⟩ := Lib.bind_ok.mp opened
  simp only at opened
  split at opened
  · split at opened
    · obtain ⟨cluster, _, _, opened⟩ := Lib.bind_ok.mp opened
      exact descriptor opened
    · cases opened
  · obtain ⟨existing, _, _, opened⟩ := Lib.bind_ok.mp opened
    split at opened
    · cases opened
    · cases opened
    · split at opened
      · cases opened
      · exact descriptor opened
    · split at opened
      · cases opened
      · exact descriptor opened
    · cases opened
    · split at opened
      · cases opened
      · exact descriptor opened
    · obtain ⟨cluster, _, _, opened⟩ := Lib.bind_ok.mp opened
      obtain ⟨_, _, _, opened⟩ := Lib.bind_ok.mp opened
      exact descriptor opened
    · obtain ⟨cluster, _, _, opened⟩ := Lib.bind_ok.mp opened
      obtain ⟨_, _, _, opened⟩ := Lib.bind_ok.mp opened
      exact descriptor opened

def Numbered (vfs : VfsManager) : Prop := ∀ file ∈ vfs.fileTable, file.fd < vfs.nextFd

theorem addDescriptor_numbered {vfs : VfsManager} (numbered : vfs.Numbered) (path : Path)
    (mode : FileMode) (size cluster : Nat) :
    (vfs.addDescriptor path mode size cluster).Numbered := by
  intro file member
  rcases List.mem_append.mp member with old | new
  · exact Nat.lt_succ_of_lt (numbered file old)
  · rw [List.mem_singleton.mp new]
    exact Nat.lt_succ_self _

theorem advance_numbered {vfs : VfsManager} (numbered : vfs.Numbered) (fd : Nat)
    {file : FileDescriptor} (given : file.fd < vfs.nextFd) : (vfs.advance fd file).Numbered := by
  intro other member
  rcases List.mem_or_eq_of_mem_set member with old | rfl
  · exact numbered other old
  · exact given

theorem close_numbered {vfs : VfsManager} (numbered : vfs.Numbered) (fd : Nat) :
    (vfs.close fd).Numbered :=
  fun file member => numbered file (List.mem_of_mem_filter member)

theorem write_numbered {vfs : VfsManager} (numbered : vfs.Numbered) (fd : Nat) (data : List UInt8)
    (device : Device) : (vfs.write fd data device).2.Numbered := by
  rw [write]
  split
  · exact numbered
  · rename_i file found
    have given := numbered file (List.mem_of_find?_eq_some found)
    split
    · exact numbered
    · split
      · exact numbered
      · simp only
        split
        · exact advance_numbered numbered fd given
        · exact advance_numbered numbered fd given

theorem find_addDescriptor {vfs : VfsManager} (numbered : vfs.Numbered) (path : Path)
    (mode : FileMode) (size cluster : Nat) :
    (vfs.addDescriptor path mode size cluster).fileTable.find? (fun file => file.fd = vfs.nextFd) =
      some ⟨vfs.nextFd, path, mode, 0, size, cluster⟩ := by
  have older : vfs.fileTable.find? (fun file => file.fd = vfs.nextFd) = none := by
    rw [List.find?_eq_none]
    intro file member
    have below := numbered file member
    simp only [decide_eq_true_eq]
    omega
  rw [addDescriptor, List.find?_append, older, Option.none_or, List.find?_cons]
  simp only [decide_true]

end VfsManager

namespace Session

theorem settle_vfs {α : Type} (vfs : VfsManager) (reply : α → Reply)
    (result : EStateM.Result (Halt VfsError) Device α) : (settle vfs reply result).2.vfs = vfs := by
  cases result with
  | ok value device => rfl
  | error halt device => rfl

theorem step_numbered {session : Session} (numbered : session.vfs.Numbered) (call : Call) :
    (session.step call).2.vfs.Numbered := by
  cases call with
  | openFile path mode =>
      simp only [step]
      split
      · rename_i fd vfs device opened
        obtain ⟨size, cluster, rfl⟩ := VfsManager.openFile_ok opened
        exact VfsManager.addDescriptor_numbered numbered _ _ _ _
      · exact numbered
  | write fd data =>
      simp only [step, settle_vfs]
      exact VfsManager.write_numbered numbered fd data session.device
  | close fd => exact VfsManager.close_numbered numbered fd
  | read fd room => simpa only [step, settle_vfs] using numbered
  | createFile path data => simpa only [step, settle_vfs] using numbered
  | mkdir path => simpa only [step, settle_vfs] using numbered
  | delete path => simpa only [step, settle_vfs] using numbered

/-- No run gives a number out twice. -/
theorem final_numbered {session : Session} (numbered : session.vfs.Numbered) (calls : List Call) :
    (machine.final session calls).vfs.Numbered :=
  machine.final_invariant (fun session => session.vfs.Numbered) (fun _ _ => True)
    (fun _ call numbered _ => step_numbered numbered call) session calls numbered
    (machine.meets_trivial session calls)

structure RegularFile (fs : Fat32Fs) (session : Session) (path : Path) (entry : Fat32DirEntry) :
    Prop where
  found : ∃ dir name, name ≠ [] ∧
    session.vfs.resolveParent (session.vfs.canonicalize path) session.device =
      .ok (dir, name) session.device ∧
    fs.findEntry dir (toUpper83 name) session.device = .ok (some entry) session.device
  regular : entry.isDirectory = false

def reading (session : Session) (path : Path) (entry : Fat32DirEntry) : Session where
  vfs := session.vfs.addDescriptor (session.vfs.canonicalize path) .read entry.fileSize.toNat
    entry.firstCluster
  device := session.device

section Reading

variable {fs : Fat32Fs} {session : Session} {path : Path} {entry : Fat32DirEntry}

theorem open_step (mounted : session.vfs.fatFs = some fs)
    (file : session.RegularFile fs path entry) :
    session.step (.openFile path .read) =
      (.ok (.descriptor session.vfs.nextFd), session.reading path entry) := by
  obtain ⟨dir, name, named, parent, found⟩ := file.found
  have fsRan : session.vfs.fs session.device = .ok fs session.device := by
    rw [VfsManager.fs, mounted]
    rfl
  have opened : session.vfs.openFile path .read session.device =
      .ok (session.vfs.nextFd, (session.reading path entry).vfs) session.device := by
    rw [VfsManager.openFile, Disk.bind_ok fsRan, Disk.bind_ok parent]
    simp only [if_neg named]
    rw [Disk.bind_ok (Disk.mapErr_ok found _)]
    simp only [file.regular, Bool.false_eq_true, if_false]
    rfl
  simp only [step, opened]
  rfl

/-- What `read_file` finds of a file: the bytes of the clusters that `read_chain` follows. -/
def shown (fs : Fat32Fs) (device : Device) (clusters : List Nat) (size : Nat) : List UInt8 :=
  fit size ((fs.view device).contents (Fat32Fs.visible clusters))

theorem length_shown (fs : Fat32Fs) (device : Device) (clusters : List Nat) (size : Nat) :
    (shown fs device clusters size).length = size := length_fit _ _

variable {clusters : List Nat} (geometry : fs.Geometry) (healthy : session.device.Healthy)
  (mounted : session.vfs.fatFs = some fs) (numbered : session.vfs.Numbered)
  (chain : (fs.view session.device).Chain fs entry.firstCluster clusters)

include geometry healthy chain in
theorem readFile_shown (size : Nat) :
    ∃ count, fs.readFile entry.firstCluster size (zeros size) session.device =
      .ok (count, shown fs session.device clusters size) session.device := by
  have shaped : (fs.view session.device).Shaped fs := fun cluster =>
    fs.length_view_data geometry session.device cluster
  obtain ⟨count, runs⟩ := Fat32Fs.readFile_runs geometry shaped chain size (zeros size)
  obtain ⟨device, ran, _⟩ := runs session.device healthy rfl
  obtain rfl := (fs.readFile_readOnly _ _ _).ok ran
  refine ⟨count, ran.trans ?_⟩
  rw [length_zeros, Nat.min_self, fit_eq_splice (List.length_take_le _ _), fit_take]
  rfl

include geometry healthy mounted numbered chain

/-- Every read answers with the front of the file. -/
theorem read_front (room : Nat) :
    (session.reading path entry).vfs.read session.vfs.nextFd room session.device =
      .ok ((shown fs session.device clusters entry.fileSize.toNat).take room) session.device := by
  have search : (session.reading path entry).vfs.fileTable.find?
      (fun file => file.fd = session.vfs.nextFd) = _ :=
    VfsManager.find_addDescriptor numbered _ _ _ _
  have fsRan : (session.reading path entry).vfs.fs session.device = .ok fs session.device := by
    rw [VfsManager.fs, show (session.reading path entry).vfs.fatFs = some fs from mounted]
    rfl
  have long := length_shown fs session.device clusters entry.fileSize.toNat
  rw [VfsManager.read, search]
  simp only
  rw [Disk.bind_ok fsRan]
  by_cases empty : entry.fileSize.toNat - 0 = 0
  · rw [if_pos empty]
    have none : shown fs session.device clusters entry.fileSize.toNat = [] :=
      List.eq_nil_of_length_eq_zero (by omega)
    rw [none, List.take_nil]
    rfl
  · obtain ⟨count, ran⟩ := readFile_shown geometry healthy chain entry.fileSize.toNat
    rw [if_neg empty, Disk.bind_ok (Disk.mapErr_ok ran _)]
    show EStateM.Result.ok (slice _ 0 (min (0 + min room (_ - 0)) _ - 0)) _ = _
    rw [slice, List.drop_zero, Nat.zero_add, Nat.sub_zero, Nat.sub_zero]
    congr 1
    rw [Nat.min_assoc, Nat.min_self, ← List.take_take, List.take_of_length_le long.le]

theorem read_step (room : Nat) :
    (session.reading path entry).step (.read session.vfs.nextFd room) =
      (.ok (.bytes ((shown fs session.device clusters entry.fileSize.toNat).take room)),
        session.reading path entry) := by
  have ran : (session.reading path entry).vfs.read session.vfs.nextFd room
      (session.reading path entry).device = _ :=
    read_front geometry healthy mounted numbered chain room
  simp only [step, ran]
  rfl

theorem reads_answers (rooms : List Nat) :
    (machine.events (session.reading path entry)
        (rooms.map fun room => .read session.vfs.nextFd room)).map (fun event => event.answer) =
      rooms.map fun room =>
        .ok (.bytes ((shown fs session.device clusters entry.fileSize.toNat).take room)) := by
  induction rooms with
  | nil => rfl
  | cons room rest ih =>
      have ran : (session.reading path entry).step (.read session.vfs.nextFd room) = _ :=
        read_step geometry healthy mounted numbered chain room
      rw [List.map_cons, Machine.events_cons, List.map_cons, List.map_cons]
      simp only [machine] at ih ⊢
      rw [ran, ih]

theorem reads_final (rooms : List Nat) :
    machine.final (session.reading path entry)
      (rooms.map fun room => .read session.vfs.nextFd room) = session.reading path entry := by
  induction rooms with
  | nil => rfl
  | cons room rest ih =>
      have ran : (session.reading path entry).step (.read session.vfs.nextFd room) = _ :=
        read_step geometry healthy mounted numbered chain room
      rw [List.map_cons, Machine.final_cons]
      simp only [machine] at ih ⊢
      rw [ran, ih]

end Reading

/-- Successive reads of the file answer with consecutive segments of its content. -/
def ReadsOnce (session : Session) (path : Path) (content : List UInt8) (rooms : List Nat) : Prop :=
  (machine.events session
      (.openFile path .read :: rooms.map fun room => .read session.vfs.nextFd room)).map
    (fun event => event.answer) =
  .ok (.descriptor session.vfs.nextFd) ::
    (segments content 0 rooms).map fun part => .ok (.bytes part)

def delivered (answers : List Answer) : List UInt8 :=
  answers.flatMap fun answer =>
    match answer with
    | .ok (.bytes data) => data
    | _ => []

theorem ReadsOnce.delivered {session : Session} {path : Path} {content : List UInt8}
    {rooms : List Nat} (once : session.ReadsOnce path content rooms) :
    delivered ((machine.events session
      (.openFile path .read :: rooms.map fun room => .read session.vfs.nextFd room)).map
        fun event => event.answer) = content.take rooms.sum := by
  rw [once, Session.delivered, List.flatMap_cons, List.flatMap_map, List.nil_append, List.flatMap_id',
    flatten_segments, slice, List.drop_zero]

def LoopEnds (session : Session) (path : Path) (rooms : Nat → Nat) : Prop :=
  ∃ turn, (machine.step (machine.final session (.openFile path .read ::
    ((List.range turn).map rooms).map fun room => .read session.vfs.nextFd room))
    (.read session.vfs.nextFd (rooms turn))).1 = .ok (.bytes [])

/-- What the file holds, in the clusters of its whole chain. -/
def content (fs : Fat32Fs) (device : Device) (clusters : List Nat) (size : Nat) : List UInt8 :=
  fit size ((fs.view device).contents clusters)

section Reading

variable {fs : Fat32Fs} (geometry : fs.Geometry) {session : Session}
  (healthy : session.device.Healthy) (mounted : session.vfs.fatFs = some fs)
  (numbered : session.vfs.Numbered) {path : Path} {entry : Fat32DirEntry}
  (file : session.RegularFile fs path entry) {clusters : List Nat}
  (chain : (fs.view session.device).Chain fs entry.firstCluster clusters)

include geometry healthy mounted numbered file chain

theorem readsOnce_iff (rooms : List Nat) :
    ReadsOnce session path (content fs session.device clusters entry.fileSize.toNat) rooms ↔
      ∀ front room back, rooms = front ++ room :: back →
        slice (content fs session.device clusters entry.fileSize.toNat) front.sum room =
          (shown fs session.device clusters entry.fileSize.toNat).take room := by
  have opened : machine.step session (.openFile path .read) = _ := open_step mounted file
  have answers : (machine.events (session.reading path entry)
        (rooms.map fun room => .read session.vfs.nextFd room)).map (fun event => event.answer) =
      (rooms.map ((shown fs session.device clusters entry.fileSize.toNat).take ·)).map
        fun part => .ok (.bytes part) := by
    rw [List.map_map]
    exact reads_answers geometry healthy mounted numbered chain rooms
  have distinct : Function.Injective fun part : List UInt8 => (.ok (.bytes part) : Answer) := by
    intro first second same
    injection same with same
    injection same
  have parts : segments (content fs session.device clusters entry.fileSize.toNat) 0 rooms =
      rooms.map ((shown fs session.device clusters entry.fileSize.toNat).take ·) ↔ _ :=
    segments_eq_map_iff
  simp only [Nat.zero_add] at parts
  rw [ReadsOnce, Machine.events_cons, List.map_cons, opened, answers, ← parts, List.cons.injEq,
    eq_self, true_and, eq_comm]
  exact (List.map_injective_iff.mpr distinct).eq_iff

theorem loopEnds_iff (rooms : Nat → Nat) (some : ∀ turn, 0 < rooms turn) :
    LoopEnds session path rooms ↔ entry.fileSize = 0 := by
  have opened : machine.step session (.openFile path .read) = _ := open_step mounted file
  have long := length_shown fs session.device clusters entry.fileSize.toNat
  have answer (turn : Nat) : (machine.step (machine.final session (.openFile path .read ::
      ((List.range turn).map rooms).map fun room => .read session.vfs.nextFd room))
      (.read session.vfs.nextFd (rooms turn))).1 =
      .ok (.bytes ((shown fs session.device clusters entry.fileSize.toNat).take (rooms turn))) := by
    rw [Machine.final_cons, opened, reads_final geometry healthy mounted numbered chain]
    exact congrArg Prod.fst (read_step geometry healthy mounted numbered chain (rooms turn))
  constructor
  · rintro ⟨turn, ended⟩
    rw [answer] at ended
    injection ended with ended
    injection ended with ended
    have short := congrArg List.length ended
    rw [List.length_take, long, List.length_nil] at short
    have := some turn
    apply UInt32.toNat_inj.mp
    simp only [UInt32.toNat_zero]
    omega
  · intro empty
    refine ⟨0, ?_⟩
    have none : shown fs session.device clusters entry.fileSize.toNat = [] := by
      apply List.eq_nil_of_length_eq_zero
      rw [long, empty]
      rfl
    rw [answer, none, List.take_nil]

/-- The reads answer with the file once exactly when each of its segments is the same as its front;
a loop of reads ends exactly when the file is empty. -/
theorem sequential_read_iff :
    (∀ rooms,
      ReadsOnce session path (content fs session.device clusters entry.fileSize.toNat) rooms ↔
        ∀ front room back, rooms = front ++ room :: back →
          slice (content fs session.device clusters entry.fileSize.toNat) front.sum room =
            (shown fs session.device clusters entry.fileSize.toNat).take room) ∧
    (∀ rooms : Nat → Nat, (∀ turn, 0 < rooms turn) →
      (LoopEnds session path rooms ↔ entry.fileSize = 0)) :=
  ⟨readsOnce_iff geometry healthy mounted numbered file chain,
    loopEnds_iff geometry healthy mounted numbered file chain⟩

end Reading

end Session

/-- The small volume with a file `A` of two bytes. -/
def twoByteEntry : Fat32DirEntry := VfsManager.newEntry [0x41] 0x20 3 2

def twoByteDevice : Device where
  sector lba :=
    if lba = 1 then filledSector 8 (leBytes 4 fat32Eoc ++ leBytes 4 fat32Eoc) (by decide)
    else if lba = 2 then filledSector 0 twoByteEntry.toBytes (by decide)
    else if lba = 3 then filledSector 0 [1, 2] (by decide)
    else ⟨zeros sectorSize, length_zeros _⟩
  readable _ := true
  writable _ := true

def twoByteSession : Session := { blankSession with device := twoByteDevice }

theorem twoByte_numbered : twoByteSession.vfs.Numbered := by
  intro file member
  cases member

theorem twoByte_chain : (smallFs.view twoByteDevice).Chain smallFs twoByteEntry.firstCluster [3] := by
  have ended : (smallFs.view twoByteDevice).fat 3 = fat32Eoc := by decide
  have start : twoByteEntry.firstCluster = 3 := by decide
  rw [start]
  exact Volume.chain_single (by decide) ended.ge

theorem twoByte_regular : twoByteSession.RegularFile smallFs [0x2F, 0x41] twoByteEntry := by
  refine ⟨⟨2, [0x41], by decide, ?_, ?_⟩, by decide⟩
  · exact (VfsManager.resolveParent_readOnly _ _).answer_ok_iff.mp (by decide)
  · exact (smallFs.findEntry_readOnly _ _).answer_ok_iff.mp (by decide +kernel)

theorem sequential_read_two_bytes :
    (∀ rooms,
      Session.ReadsOnce twoByteSession [0x2F, 0x41]
          (Session.content smallFs twoByteSession.device [3] twoByteEntry.fileSize.toNat) rooms ↔
        ∀ front room back, rooms = front ++ room :: back →
          slice (Session.content smallFs twoByteSession.device [3] twoByteEntry.fileSize.toNat)
            front.sum room =
            (Session.shown smallFs twoByteSession.device [3] twoByteEntry.fileSize.toNat).take room) ∧
    (∀ rooms : Nat → Nat, (∀ turn, 0 < rooms turn) →
      (Session.LoopEnds twoByteSession [0x2F, 0x41] rooms ↔ twoByteEntry.fileSize = 0)) :=
  Session.sequential_read_iff smallFs_geometry (fun _ => ⟨rfl, rfl⟩) rfl twoByte_numbered
    twoByte_regular twoByte_chain

/-- Two reads of one byte from the file `[1, 2]` both answer with the first byte. -/
theorem second_read_repeats :
    Session.content smallFs twoByteDevice [3] twoByteEntry.fileSize.toNat = [1, 2] ∧
      ¬Session.ReadsOnce twoByteSession [0x2F, 0x41] [1, 2] [1, 1] := by
  have held : Session.content smallFs twoByteDevice [3] twoByteEntry.fileSize.toNat = [1, 2] := by
    decide
  refine ⟨held, fun once => ?_⟩
  rw [← held] at once
  have second := (Session.readsOnce_iff smallFs_geometry (fun _ => ⟨rfl, rfl⟩) rfl twoByte_numbered
    twoByte_regular twoByte_chain [1, 1]).mp once [1] 1 [] rfl
  revert second
  decide

end ArcadiaOs.Fs
