import ArcadiaOs.Fs.ReadOnly
import ArcadiaOs.Fs.Stability
import ArcadiaOs.Lib.Machine

/-!
Sequences of calls to the file system: the manager and the device are the state of a
machine, and the machine on volumes follows it call by call.
-/

namespace ArcadiaOs.Fs

open Lib

structure Session where
  vfs : VfsManager
  device : Device

inductive Call
  | openFile (path : Path) (mode : FileMode)
  | read (fd room : Nat)
  | write (fd : Nat) (data : List UInt8)
  | close (fd : Nat)
  | createFile (path : Path) (data : List UInt8)
  | mkdir (path : Path)
  | delete (path : Path)

inductive Reply
  | done
  | descriptor (fd : Nat)
  | bytes (data : List UInt8)
  | count (written : Nat)
  deriving DecidableEq

abbrev Answer := Except (Halt VfsError) Reply

namespace Session

def settle {α : Type} (vfs : VfsManager) (reply : α → Reply) :
    EStateM.Result (Halt VfsError) Device α → Answer × Session
  | .ok value device => (.ok (reply value), ⟨vfs, device⟩)
  | .error halt device => (.error halt, ⟨vfs, device⟩)

def step (session : Session) : Call → Answer × Session
  | .openFile path mode =>
      match session.vfs.openFile path mode session.device with
      | .ok (fd, vfs) device => (.ok (.descriptor fd), ⟨vfs, device⟩)
      | .error halt device => (.error halt, ⟨session.vfs, device⟩)
  | .read fd room => settle session.vfs .bytes (session.vfs.read fd room session.device)
  | .write fd data =>
      let (result, vfs) := session.vfs.write fd data session.device
      settle vfs .count result
  | .close fd => (.ok .done, ⟨session.vfs.close fd, session.device⟩)
  | .createFile path data =>
      settle session.vfs (fun _ => .done) (session.vfs.createFile path data session.device)
  | .mkdir path => settle session.vfs (fun _ => .done) (session.vfs.mkdir path session.device)
  | .delete path => settle session.vfs (fun _ => .done) (session.vfs.delete path session.device)

def machine : Machine Session Call Answer := ⟨step⟩

/-- The manager and the volume after a call, on the machine on volumes. -/
def after (fs : Fat32Fs) (vfs : VfsManager) (volume : Volume) : Call → VfsManager × Volume
  | .openFile path mode =>
      match volume.openFile fs vfs path mode with
      | (.ok (_, vfs'), volume') => (vfs', volume')
      | (.error _, volume') => (vfs, volume')
  | .read _ _ => (vfs, volume)
  | .write fd data => (volume.write fs vfs fd data).2
  | .close fd => (vfs.close fd, volume)
  | .createFile path data => (vfs, (volume.createFile fs path data).2)
  | .mkdir path => (vfs, (volume.mkdir fs path).2)
  | .delete path => (vfs, (volume.delete fs path).2)

/-- A call whose paths go through directories, that deletes no dot with a chain, and that writes
only to the chain of a live regular file, or to a file without one. -/
def Careful (fs : Fat32Fs) (vfs : VfsManager) (volume : Volume) : Call → Prop
  | .openFile path _ => volume.ProperPath fs (vfs.canonicalize path)
  | .read _ _ => True
  | .write fd _ => ∀ file, vfs.fileTable.find? (fun file => file.fd = fd) = some file →
      file.mode ≠ .read → volume.Writable fs file.cluster ∧ volume.ProperPath fs file.path
  | .close _ => True
  | .createFile path _ => volume.ProperPath fs path
  | .mkdir path => volume.ProperPath fs path
  | .delete path => volume.ProperPath fs path ∧ volume.SparesDots fs path

/-- A mounted file system on a device that never fails, with a sound volume. -/
structure Ready (fs : Fat32Fs) (session : Session) : Prop where
  mounted : Mounted fs session.vfs
  healthy : session.device.Healthy
  sound : (fs.view session.device).Sound fs

structure Shows (fs : Fat32Fs) (session : Session) (vfs : VfsManager) (volume : Volume) : Prop where
  vfs : session.vfs = vfs
  healthy : session.device.Healthy
  volume : fs.view session.device = volume

theorem settle_shows {fs : Fat32Fs} {α : Type} {action : Disk VfsError α} {volume volume' : Volume}
    {result : Except VfsError α} (ran : Runs fs action volume result volume') {device : Device}
    (healthy : device.Healthy) (holds : fs.view device = volume) (vfs : VfsManager)
    (reply : α → Reply) : Shows fs (settle vfs reply (action device)).2 vfs volume' := by
  obtain ⟨device', ran', healthy', holds'⟩ := ran device healthy holds
  rw [ran']
  cases result with
  | ok value => exact ⟨rfl, healthy', holds'⟩
  | error reason => exact ⟨rfl, healthy', holds'⟩

theorem settle_answer {fs : Fat32Fs} {α : Type} {action : Disk VfsError α}
    {volume volume' : Volume} {result : Except VfsError α} (ran : Runs fs action volume result volume')
    {device : Device} (healthy : device.Healthy) (holds : fs.view device = volume)
    (vfs : VfsManager) (reply : α → Reply) :
    (settle vfs reply (action device)).1 = (result.map reply).mapError Halt.error := by
  obtain ⟨device', ran', _⟩ := ran device healthy holds
  rw [ran']
  cases result with
  | ok value => rfl
  | error reason => rfl

variable {fs : Fat32Fs} (geometry : fs.Geometry)
include geometry

theorem write_ready {vfs : VfsManager} {volume : Volume} (sound : volume.Sound fs) {fd : Nat}
    {data : List UInt8} (careful : Careful fs vfs volume (.write fd data)) :
    volume.WriteReady fs vfs fd data := by
  intro file search writing
  obtain ⟨writable, proper⟩ := careful file search writing
  obtain ⟨_, chain⟩ := writable.chain sound
  refine ⟨geometry.chain_visits chain, Volume.rewrite_sound geometry sound writable _, fun _ => ?_⟩
  exact (Volume.rewrite_sameDirs geometry sound writable _).properPath geometry sound proper

theorem write_shows {session : Session} (mounted : Mounted fs session.vfs)
    (healthy : session.device.Healthy) {fd : Nat} {data : List UInt8}
    (ready : (fs.view session.device).WriteReady fs session.vfs fd data) :
    Shows fs (session.step (.write fd data)).2
      (after fs session.vfs (fs.view session.device) (.write fd data)).1
      (after fs session.vfs (fs.view session.device) (.write fd data)).2 := by
  obtain ⟨device', ran, healthy', holds'⟩ := mounted.write_runs geometry ready healthy rfl
  simp only [step, after, ran]
  cases answer : ((fs.view session.device).write fs session.vfs fd data).1 with
  | ok written => exact ⟨rfl, healthy', holds'⟩
  | error reason => exact ⟨rfl, healthy', holds'⟩

theorem step_shows {session : Session} (ready : session.Ready fs) {call : Call}
    (careful : Careful fs session.vfs (fs.view session.device) call) :
    Shows fs (session.step call).2 (after fs session.vfs (fs.view session.device) call).1
      (after fs session.vfs (fs.view session.device) call).2 := by
  obtain ⟨mounted, healthy, sound⟩ := ready
  cases call with
  | openFile path mode =>
      obtain ⟨device', ran, healthy', holds'⟩ :=
        mounted.openFile_runs geometry sound careful mode session.device healthy rfl
      simp only [step, after, ran]
      cases result : (fs.view session.device).openFile fs session.vfs path mode with
      | mk answer volume' =>
          rw [result] at holds'
          cases answer with
          | ok opened => exact ⟨rfl, healthy', holds'⟩
          | error reason => exact ⟨rfl, healthy', holds'⟩
  | read fd room =>
      have kept := session.vfs.read_readOnly fd room session.device
      simp only [step, after]
      cases ran : session.vfs.read fd room session.device with
      | ok bytes device =>
          rw [ran] at kept
          obtain rfl : device = session.device := kept
          exact ⟨rfl, healthy, rfl⟩
      | error halt device =>
          rw [ran] at kept
          obtain rfl : device = session.device := kept
          exact ⟨rfl, healthy, rfl⟩
  | write fd data => exact write_shows geometry mounted healthy (write_ready geometry sound careful)
  | close fd => exact ⟨rfl, healthy, rfl⟩
  | createFile path data =>
      exact settle_shows (mounted.createFile_runs geometry sound careful data) healthy rfl _ _
  | mkdir path => exact settle_shows (mounted.mkdir_runs geometry sound careful) healthy rfl _ _
  | delete path =>
      refine settle_shows (mounted.delete_runs geometry sound careful.1 ?_) healthy rfl _ _
      exact fun dir position parent found =>
        Mounted.chain_of_spared geometry sound careful.1 careful.2 parent found

omit geometry in
theorem after_openFile (vfs : VfsManager) (volume : Volume) (path : Path) (mode : FileMode) :
    (after fs vfs volume (.openFile path mode)).2 = (volume.openFile fs vfs path mode).2 := by
  simp only [after]
  split
  · rename_i opened
    rw [opened]
  · rename_i refused
    rw [refused]

omit geometry in
theorem after_write (vfs : VfsManager) (volume : Volume) (fd : Nat) (data : List UInt8) :
    (after fs vfs volume (.write fd data)).2 = volume ∨
      ∃ file, vfs.fileTable.find? (fun file => file.fd = fd) = some file ∧ file.mode ≠ .read ∧
        let volume' := (volume.rewrite fs file.cluster (volume.patch file data)).2
        ((after fs vfs volume (.write fd data)).2 = volume' ∨
          (after fs vfs volume (.write fd data)).2 =
            (volume'.recordSize fs file.path (Volume.sizeAfter file data)).2) := by
  simp only [after, Volume.write]
  cases search : vfs.fileTable.find? (fun file => file.fd = fd) with
  | none => exact .inl rfl
  | some file =>
      by_cases reading : file.mode = .read
      · exact .inl (by simp only [if_pos reading])
      refine .inr ⟨file, rfl, reading, ?_⟩
      simp only [if_neg reading]
      cases volume.rewrite fs file.cluster (volume.patch file data) with
      | mk stored volume' =>
          cases stored with
          | false => exact .inl rfl
          | true =>
              simp only
              cases volume'.recordSize fs file.path (Volume.sizeAfter file data) with
              | mk result volume'' => cases result <;> exact .inr rfl

theorem write_sound {vfs : VfsManager} {volume : Volume} (shaped : volume.Shaped fs)
    (sound : volume.Sound fs) {fd : Nat} {data : List UInt8}
    (ready : volume.WriteReady fs vfs fd data) :
    (after fs vfs volume (.write fd data)).2.Sound fs := by
  rcases after_write vfs volume fd data with same | ⟨file, search, writing, outcome⟩
  · rw [same]
    exact sound
  obtain ⟨_, sound', proper'⟩ := ready file search writing
  have shaped' := Volume.rewrite_shaped shaped file.cluster (volume.patch file data)
  rcases outcome with stored | recorded
  · rw [stored]
    exact sound'
  · rw [recorded]
    exact (Volume.recordSize_preserves geometry shaped' sound' proper').sound geometry sound'

theorem after_sound {vfs : VfsManager} {volume : Volume} (shaped : volume.Shaped fs)
    (sound : volume.Sound fs) {call : Call} (careful : Careful fs vfs volume call) :
    (after fs vfs volume call).2.Sound fs := by
  cases call with
  | openFile path mode =>
      rw [after_openFile]
      exact Volume.openFile_sound geometry shaped sound careful mode
  | read fd room => exact sound
  | write fd data => exact write_sound geometry shaped sound (write_ready geometry sound careful)
  | close fd => exact sound
  | createFile path data => exact Volume.createFile_sound geometry shaped sound careful data
  | mkdir path => exact Volume.mkdir_sound geometry shaped sound careful
  | delete path => exact Volume.delete_sound geometry shaped sound careful.1 careful.2

omit geometry in
theorem after_mounted {vfs : VfsManager} (mounted : Mounted fs vfs) (volume : Volume) (call : Call) :
    Mounted fs (after fs vfs volume call).1 := by
  obtain ⟨fatFs, rootCluster⟩ := mounted
  have kept : ∀ vfs' : VfsManager, vfs'.fatFs = vfs.fatFs → vfs'.rootCluster = vfs.rootCluster →
      Mounted fs vfs' := fun vfs' sameFs sameRoot =>
    ⟨sameFs.trans fatFs, sameRoot.trans rootCluster⟩
  cases call with
  | openFile path mode =>
      simp only [after]
      split
      · rename_i opened
        simp only [Volume.openFile] at opened
        repeat' split at opened
        all_goals
          simp only [Prod.mk.injEq, Except.ok.injEq, reduceCtorEq, false_and] at opened
        all_goals
          obtain ⟨⟨_, rfl⟩, _⟩ := opened
          exact kept _ rfl rfl
      · exact ⟨fatFs, rootCluster⟩
  | read fd room => exact ⟨fatFs, rootCluster⟩
  | write fd data =>
      simp only [after, Volume.write]
      repeat' split
      all_goals exact kept _ rfl rfl
  | close fd => exact kept _ rfl rfl
  | createFile path data => exact ⟨fatFs, rootCluster⟩
  | mkdir path => exact ⟨fatFs, rootCluster⟩
  | delete path => exact ⟨fatFs, rootCluster⟩

theorem step_ready {session : Session} (ready : session.Ready fs) {call : Call}
    (careful : Careful fs session.vfs (fs.view session.device) call) :
    (session.step call).2.Ready fs := by
  obtain ⟨sameVfs, healthy', holds'⟩ := step_shows geometry ready careful
  refine ⟨?_, healthy', ?_⟩
  · rw [sameVfs]
    exact after_mounted ready.mounted _ _
  · rw [holds']
    exact after_sound geometry (Fat32Fs.length_view_data geometry session.device) ready.sound careful

def afterAll (fs : Fat32Fs) (vfs : VfsManager) (volume : Volume) :
    List Call → VfsManager × Volume
  | [] => (vfs, volume)
  | call :: rest =>
      let next := after fs vfs volume call
      afterAll fs next.1 next.2 rest

def CarefulAll (fs : Fat32Fs) (vfs : VfsManager) (volume : Volume) : List Call → Prop
  | [] => True
  | call :: rest =>
      let next := after fs vfs volume call
      Careful fs vfs volume call ∧ CarefulAll fs next.1 next.2 rest

theorem final_shows {session : Session} (ready : session.Ready fs) {vfs : VfsManager}
    {volume : Volume} (shows' : Shows fs session vfs volume) {calls : List Call}
    (careful : CarefulAll fs vfs volume calls) :
    (machine.final session calls).Ready fs ∧
      Shows fs (machine.final session calls) (afterAll fs vfs volume calls).1
        (afterAll fs vfs volume calls).2 := by
  induction calls generalizing session vfs volume with
  | nil => exact ⟨ready, shows'⟩
  | cons call rest ih =>
      obtain ⟨careful, later⟩ := careful
      rw [← shows'.vfs, ← shows'.volume] at careful later
      simp only [afterAll, ← shows'.vfs, ← shows'.volume]
      exact ih (step_ready geometry ready careful) (step_shows geometry ready careful) later

end Session

end ArcadiaOs.Fs
