import ArcadiaOs.Fs.Descriptor
import ArcadiaOs.Fs.Resolution

/-!
Several descriptors on one regular file.  Each keeps the size the file had when it was
opened and writes it back, so a write through one undoes what another has added.
-/

namespace ArcadiaOs.Fs

open Lib

namespace Volume

variable {fs : Fat32Fs} {volume : Volume}

theorem openFile_existing {vfs : VfsManager} {path : Path} {mode : FileMode}
    (writing : mode = .write ∨ mode = .create) {position : Position}
    (names : volume.Names fs (vfs.canonicalize path) position)
    (regular : (volume.entry position).isDirectory = false) :
    volume.openFile fs vfs path mode =
      (.ok (vfs.nextFd, vfs.addDescriptor (vfs.canonicalize path) mode
        (volume.entry position).fileSize.toNat (volume.entry position).firstCluster), volume) := by
  obtain ⟨dir, parent, found⟩ := names.found
  simp only [openFile, parent, if_neg names.named, found]
  rcases writing with rfl | rfl
  · simp only [regular, Bool.false_eq_true, if_false]
  · simp only [regular, Bool.false_eq_true, if_false]

end Volume

namespace Session

/-- The descriptors that can write are open on the regular file recorded at `position`. -/
structure Shared (fs : Fat32Fs) (position : Position) (session : Session) : Prop where
  ready : session.Ready fs
  regular : ((fs.view session.device).entry position).isDirectory = false
  opened : ∀ file ∈ session.vfs.fileTable, file.mode ≠ .read →
    (fs.view session.device).Names fs file.path position ∧
      ((fs.view session.device).entry position).firstCluster = file.cluster ∧ file.size < 2 ^ 32

/-- An `open` of that file for writing, a write or a close. -/
def Joins (fs : Fat32Fs) (position : Position) (session : Session) : Call → Prop
  | .openFile path mode => (mode = .write ∨ mode = .create) ∧
      (fs.view session.device).Names fs (session.vfs.canonicalize path) position
  | .write _ _ => True
  | .close _ => True
  | _ => False

def recorded (fs : Fat32Fs) (position : Position) (session : Session) : Nat :=
  ((fs.view session.device).entry position).fileSize.toNat

/-- After a write of `length` bytes the recorded size is the larger of what it was and of where the
data ends. -/
def Extends (fs : Fat32Fs) (position : Position) (event : Event Session Call Answer)
    (file : FileDescriptor) (length : Nat) : Prop :=
  recorded fs position event.after = max (recorded fs position event.before) (file.pos + length) ∧
    recorded fs position event.before ≤ recorded fs position event.after

/-- The descriptor knows the recorded size, or its data covers both that size and its own; and the
data ends where a size can still be recorded. -/
def UpToDate (file : FileDescriptor) (length size : Nat) : Prop :=
  file.pos + length < 2 ^ 32 ∧
    (file.size = size ∨ max file.size size ≤ file.pos + length ∨
      max file.size (file.pos + length) = 0)

variable {fs : Fat32Fs} {session : Session} {position : Position}

theorem Shared.found (shared : Shared fs position session) {fd : Nat} {file : FileDescriptor}
    (search : session.vfs.fileTable.find? (fun file => file.fd = fd) = some file)
    (writing : file.mode ≠ .read) :
    (fs.view session.device).Names fs file.path position ∧
      ((fs.view session.device).entry position).firstCluster = file.cluster ∧ file.size < 2 ^ 32 :=
  shared.opened file (List.mem_of_find?_eq_some search) writing

section Steps

variable (geometry : fs.Geometry)
include geometry

theorem Shared.careful (shared : Shared fs position session) {call : Call}
    (joins : Joins fs position session call) :
    Careful fs session.vfs (fs.view session.device) call := by
  cases call with
  | openFile path mode => exact joins.2.proper
  | write fd data =>
      intro file search writing
      obtain ⟨names, start, _⟩ := shared.found search writing
      have current : (fs.view session.device).Current fs file :=
        ⟨position, names, shared.regular, start⟩
      exact ⟨current.writable geometry shared.ready.sound, names.proper⟩
  | close fd => exact trivial
  | read fd room => exact joins.elim
  | createFile path data => exact joins.elim
  | mkdir path => exact joins.elim
  | delete path => exact joins.elim

theorem write_answer (ready : session.Ready fs) {fd : Nat} {data : List UInt8}
    (careful : Careful fs session.vfs (fs.view session.device) (.write fd data)) :
    (session.step (.write fd data)).1 =
      match ((fs.view session.device).write fs session.vfs fd data).1 with
      | .ok count => .ok (.count count)
      | .error reason => .error (.error reason) := by
  obtain ⟨mounted, healthy, sound⟩ := ready
  obtain ⟨device', ran, _, _⟩ :=
    mounted.write_runs geometry (write_ready geometry sound careful) healthy rfl
  simp only [step, ran]
  cases ((fs.view session.device).write fs session.vfs fd data).1 with
  | ok count => rfl
  | error reason => rfl

/-- A write changes nothing, or it goes through a descriptor on the file and records the size the
descriptor makes of it, unless that size is 0. -/
theorem Shared.write_cases (shared : Shared fs position session) (fd : Nat) (data : List UInt8) :
    ((∀ count, (session.step (.write fd data)).1 ≠ .ok (.count count)) ∧
      (session.step (.write fd data)).2.vfs = session.vfs ∧
      fs.view (session.step (.write fd data)).2.device = fs.view session.device) ∨
    ∃ file, session.vfs.fileTable.find? (fun file => file.fd = fd) = some file ∧
      file.mode ≠ .read ∧
      (session.step (.write fd data)).2.vfs =
        session.vfs.advance fd { file with
          pos := file.pos + data.length, size := Volume.sizeAfter file data } ∧
      (fs.view session.device).SameDirs fs (fs.view (session.step (.write fd data)).2.device) ∧
      (fs.view (session.step (.write fd data)).2.device).entry position =
        if Volume.sizeAfter file data > 0 then
          Volume.resized ((fs.view session.device).entry position) (Volume.sizeAfter file data)
        else (fs.view session.device).entry position := by
  have joins : Joins fs position session (.write fd data) := trivial
  have careful := shared.careful geometry joins
  have answer := write_answer geometry shared.ready careful
  obtain ⟨sameVfs, _, after⟩ := step_shows geometry shared.ready careful
  rw [answer, sameVfs, after]
  simp only [Session.after]
  cases search : session.vfs.fileTable.find? (fun file => file.fd = fd) with
  | none =>
      have outcome : (fs.view session.device).write fs session.vfs fd data =
          (.error .notFound, session.vfs, fs.view session.device) := by
        simp only [Volume.write, search]
      rw [outcome]
      refine .inl ⟨fun count counted => ?_, rfl, rfl⟩
      cases counted
  | some file =>
      by_cases reading : file.mode = .read
      · have outcome : (fs.view session.device).write fs session.vfs fd data =
            (.error .permissionDenied, session.vfs, fs.view session.device) := by
          simp only [Volume.write, search, if_pos reading]
        rw [outcome]
        refine .inl ⟨fun count counted => ?_, rfl, rfl⟩
        cases counted
      obtain ⟨names, start, _⟩ := shared.found search reading
      have sound := shared.ready.sound
      have live := names.live geometry sound shared.regular
      have shaped := Fat32Fs.length_view_data geometry session.device
      obtain ⟨clusters, owned⟩ := sound.owns _ live
      rcases Volume.write_current geometry sound search reading names shared.regular start owned data
        with ⟨_, _, outcome⟩ | ⟨tail, extension, outcome⟩
      · rw [outcome]
        refine .inl ⟨fun count counted => ?_, rfl, rfl⟩
        cases counted
      rw [outcome]
      refine .inr ⟨file, rfl, reading, rfl, ?_, ?_⟩
      · exact Volume.written_sameDirs extension shaped live sound shared.regular owned
      · exact Volume.written_entry_same extension shaped live
          (live.outside sound live shared.regular owned)

theorem Shared.step (shared : Shared fs position session) {call : Call}
    (joins : Joins fs position session call) : Shared fs position (session.step call).2 := by
  have careful := shared.careful geometry joins
  have ready := step_ready geometry shared.ready careful
  obtain ⟨sameVfs, _, after⟩ := step_shows geometry shared.ready careful
  cases call with
  | openFile path mode =>
      obtain ⟨writing, names⟩ := joins
      simp only [Session.after, Volume.openFile_existing writing names shared.regular] at sameVfs after
      refine ⟨ready, ?_, ?_⟩
      · rw [after]
        exact shared.regular
      · rw [after, sameVfs]
        intro file member canWrite
        rcases List.mem_append.mp member with old | new
        · exact shared.opened file old canWrite
        · rw [List.mem_singleton] at new
          subst new
          exact ⟨names, rfl, UInt32.toNat_lt _⟩
  | write fd data =>
      rcases shared.write_cases geometry fd data with ⟨_, vfsKept, viewKept⟩ |
        ⟨file, search, writing, advanced, same, entry⟩
      · refine ⟨ready, ?_, ?_⟩
        · rw [viewKept]
          exact shared.regular
        · rw [viewKept, vfsKept]
          exact shared.opened
      · have kept : ((fs.view (session.step (.write fd data)).2.device).entry position).isDirectory =
              ((fs.view session.device).entry position).isDirectory ∧
            ((fs.view (session.step (.write fd data)).2.device).entry position).firstCluster =
              ((fs.view session.device).entry position).firstCluster := by
          rw [entry]
          split
          · exact ⟨rfl, rfl⟩
          · exact ⟨rfl, rfl⟩
        refine ⟨ready, kept.1.trans shared.regular, ?_⟩
        rw [advanced, kept.2]
        intro other member canWrite
        rcases List.mem_or_eq_of_mem_set member with old | rfl
        · obtain ⟨names, start, bound⟩ := shared.opened other old canWrite
          exact ⟨same.names geometry shared.ready.sound names, start, bound⟩
        · obtain ⟨names, start, _⟩ := shared.found search writing
          exact ⟨same.names geometry shared.ready.sound names, start, Nat.mod_lt _ (by decide)⟩
  | close fd =>
      refine ⟨ready, shared.regular, fun file member canWrite => ?_⟩
      exact shared.opened file (List.mem_filter.mp member).1 canWrite
  | read fd room => exact joins.elim
  | createFile path data => exact joins.elim
  | mkdir path => exact joins.elim
  | delete path => exact joins.elim

omit geometry in
theorem upToDate_iff {file : FileDescriptor} {data : List UInt8} {size size' : Nat}
    (cached : file.size < 2 ^ 32) (bound : size < 2 ^ 32)
    (made : size' = if Volume.sizeAfter file data > 0 then Volume.sizeAfter file data else size) :
    (size' = max size (file.pos + data.length) ∧ size ≤ size') ↔
      UpToDate file data.length size := by
  rw [made, UpToDate, Volume.sizeAfter, wrap32]
  generalize file.pos + data.length = stop
  by_cases fits : stop < 2 ^ 32
  · rw [Nat.mod_eq_of_lt (by omega)]
    split
    · omega
    · omega
  · have beyond := Nat.mod_lt (max stop file.size) (show 0 < 2 ^ 32 by decide)
    split
    · omega
    · omega

/-- In every interleaving of opens, writes and closes on one regular file, a write that succeeds
extends the file to where its data ends, and never shrinks it, exactly when its descriptor is up to
date. -/
theorem write_extends_iff (shared : Shared fs position session) {calls : List Call}
    (joins : machine.Meets (Joins fs position) session calls) :
    ∀ event ∈ machine.events session calls, ∀ fd data count,
      event.call = .write fd data → event.answer = .ok (.count count) →
      ∃ file, event.before.vfs.fileTable.find? (fun file => file.fd = fd) = some file ∧
        (Extends fs position event file data.length ↔
          UpToDate file data.length (recorded fs position event.before)) := by
  intro event member fd data count called answered
  have stepped := machine.event_step session calls event member
  obtain ⟨before, _⟩ := machine.events_invariant (Shared fs position) (Joins fs position)
    (fun _ _ shared joins => shared.step geometry joins) session calls shared joins event member
  obtain ⟨state, call, answer, state'⟩ := event
  simp only at called answered before stepped ⊢
  subst called answered
  have stepped' : state.step (.write fd data) = (.ok (.count count), state') := stepped
  rcases before.write_cases geometry fd data with ⟨refused, _⟩ |
    ⟨file, search, writing, _, _, entry⟩
  · rw [stepped'] at refused
    exact absurd rfl (refused count)
  · rw [stepped'] at entry
    obtain ⟨_, _, cached⟩ := before.found search writing
    refine ⟨file, search, upToDate_iff cached (UInt32.toNat_lt _) ?_⟩
    rw [recorded, entry]
    split
    · rw [Volume.resized, UInt32.toNat_ofNat', Volume.sizeAfter, wrap32, Nat.mod_mod]
    · rfl

theorem Shared.final_shows (shared : Shared fs position session) {calls : List Call}
    (joins : machine.Meets (Joins fs position) session calls) :
    Shows fs (machine.final session calls)
      (afterAll fs session.vfs (fs.view session.device) calls).1
      (afterAll fs session.vfs (fs.view session.device) calls).2 := by
  induction calls generalizing session with
  | nil => exact ⟨rfl, shared.ready.healthy, rfl⟩
  | cons call rest ih =>
      obtain ⟨sameVfs, _, after⟩ := step_shows geometry shared.ready (shared.careful geometry joins.1)
      have rested := ih (shared.step geometry joins.1) joins.2
      rw [machine, sameVfs, after] at rested
      exact rested

/-- Two descriptors opened on the file one after the other, and a write through one of them. -/
theorem Shared.reopened (shared : Shared fs position session) {path : Path}
    (absolute : ∀ vfs : VfsManager, vfs.canonicalize path = path)
    (names : (fs.view session.device).Names fs path position) (fd : Nat) (data : List UInt8) :
    machine.Meets (Joins fs position) session
      [.openFile path .write, .openFile path .write, .write fd data] := by
  have names' : (fs.view session.device).Names fs (session.vfs.canonicalize path) position :=
    (absolute session.vfs).symm ▸ names
  have first : Joins fs position session (.openFile path .write) := ⟨.inl rfl, names'⟩
  obtain ⟨_, _, after⟩ := step_shows geometry shared.ready (shared.careful geometry first)
  simp only [Session.after, Volume.openFile_existing first.1 first.2 shared.regular] at after
  refine ⟨first, ⟨.inl rfl, ?_⟩, trivial, trivial⟩
  rw [absolute]
  exact after.symm ▸ names

end Steps

/-! Two descriptors on `/F`: the second one still has the size the file had before the first wrote. -/

def sharedCalls : List Call :=
  [.openFile [0x2F, 0x46] .write, .openFile [0x2F, 0x46] .write, .write 1 [1, 2, 3, 4, 5]]

theorem nested_shared : Shared smallFs (2, 1) nestedSession ∧
    machine.Meets (Joins smallFs (2, 1)) nestedSession (sharedCalls ++ [.write 2 [6, 7]]) := by
  obtain ⟨ready, sameVfs, holds⟩ := nested_ready
  have names : nestedVolume.Names smallFs [0x2F, 0x46] (2, 1) :=
    ⟨by decide, by decide, 2, by decide, by decide⟩
  have regular : (nestedVolume.entry (2, 1)).isDirectory = false := by decide
  rw [← holds] at names regular
  have shared : Shared smallFs (2, 1) nestedSession := by
    refine ⟨ready, regular, ?_⟩
    rw [sameVfs]
    exact nofun
  refine ⟨shared, (machine.meets_append _ _ _ _).mpr ⟨?_, trivial, trivial⟩⟩
  exact shared.reopened smallFs_geometry (fun vfs => if_pos (by decide)) names _ _

theorem write_extends_nested :
    (Shared smallFs (2, 1) nestedSession ∧
      machine.Meets (Joins smallFs (2, 1)) nestedSession (sharedCalls ++ [.write 2 [6, 7]])) ∧
    ∀ event ∈ machine.events nestedSession (sharedCalls ++ [.write 2 [6, 7]]), ∀ fd data count,
      event.call = .write fd data → event.answer = .ok (.count count) →
      ∃ file, event.before.vfs.fileTable.find? (fun file => file.fd = fd) = some file ∧
        (Extends smallFs (2, 1) event file data.length ↔
          UpToDate file data.length (recorded smallFs (2, 1) event.before)) :=
  ⟨nested_shared, write_extends_iff smallFs_geometry nested_shared.1 nested_shared.2⟩

theorem write_shown {fs : Fat32Fs} (geometry : fs.Geometry) {session : Session}
    (ready : session.Ready fs) {vfs : VfsManager} {volume : Volume}
    (shows' : Shows fs session vfs volume) {fd : Nat} {data : List UInt8}
    (careful : Careful fs session.vfs (fs.view session.device) (.write fd data)) {count : Nat}
    (wrote : (volume.write fs vfs fd data).1 = .ok count) {answer : Answer} {session' : Session}
    (stepped : machine.step session (.write fd data) = (answer, session')) (position : Position) :
    answer = .ok (.count count) ∧ recorded fs position session' =
      ((Session.after fs vfs volume (.write fd data)).2.entry position).fileSize.toNat := by
  have answered := write_answer geometry ready careful
  obtain ⟨_, _, after⟩ := step_shows geometry ready careful
  have stepped' : session.step (.write fd data) = (answer, session') := stepped
  rw [shows'.vfs, shows'.volume, stepped'] at answered after
  rw [wrote] at answered
  rw [recorded, after]
  exact ⟨answered, rfl⟩

/-- The write of two bytes through the second descriptor takes the size from 5 back to 3. -/
theorem second_write_shrinks :
    (Shared smallFs (2, 1) nestedSession ∧
      machine.Meets (Joins smallFs (2, 1)) nestedSession (sharedCalls ++ [.write 2 [6, 7]])) ∧
    ∃ event ∈ machine.events nestedSession (sharedCalls ++ [.write 2 [6, 7]]),
      event.call = .write 2 [6, 7] ∧ event.answer = .ok (.count 2) ∧
      recorded smallFs (2, 1) event.before = 5 ∧ recorded smallFs (2, 1) event.after = 3 := by
  obtain ⟨shared, joins⟩ := nested_shared
  obtain ⟨_, sameVfs, holds⟩ := nested_ready
  obtain ⟨opening, writing⟩ := (machine.meets_append _ _ _ _).mp joins
  have before := shared.final_shows smallFs_geometry opening
  have shared' := machine.final_invariant (Shared smallFs (2, 1)) _
    (fun _ _ shared joins => shared.step smallFs_geometry joins) _ _ shared opening
  rw [sameVfs, holds] at before
  refine ⟨⟨shared, joins⟩, machine.exists_last_event _ _ _ _ fun answer session' stepped => ?_⟩
  have careful := shared'.careful smallFs_geometry writing.1
  obtain ⟨answered, after⟩ := write_shown smallFs_geometry shared'.ready before careful
    (show _ = Except.ok 2 by decide) stepped (2, 1)
  refine ⟨rfl, answered, ?_, after.trans ?_⟩
  · rw [recorded, before.volume]
    decide
  · decide

end Session

end ArcadiaOs.Fs
