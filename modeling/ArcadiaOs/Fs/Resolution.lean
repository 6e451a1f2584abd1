import ArcadiaOs.Fs.Anywhere
import ArcadiaOs.Fs.ClusterOwnership
import ArcadiaOs.Lib.Footprint

/-!
Resolution of paths with `..`.  The walk of the tree keeps the trail of the directories
below the root, so it knows every parent.  The driver keeps the current cluster only,
and its listings hide `..`: it starts over at the root.
-/

namespace ArcadiaOs.Fs

open Lib

def up : Path := [0x2E, 0x2E]

/-- The components between one `..` and the next. -/
def runs : List Path → List (List Path)
  | [] => [[]]
  | component :: rest =>
      if component = up then [] :: runs rest
      else
        match runs rest with
        | [] => [[component]]
        | first :: later => (component :: first) :: later

theorem runs_ne_nil (path : List Path) : runs path ≠ [] := by
  cases path with
  | nil => simp [runs]
  | cons component rest =>
      simp only [runs]
      split
      · simp
      · split <;> simp

theorem runs_up (rest : List Path) : runs (up :: rest) = [] :: runs rest := if_pos rfl

theorem runs_other {component : Path} (other : component ≠ up) {rest first : List Path}
    {later : List (List Path)} (split : runs rest = first :: later) :
    runs (component :: rest) = (component :: first) :: later := by
  rw [runs, if_neg other, split]

def trailEnd (fs : Fat32Fs) (trail : List Nat) : Nat := trail.headD fs.bpb.rootCluster.toNat

namespace Volume

/-- The walk of the tree: `.` stays, a name goes down, `..` goes back on the trail. -/
def treeWalk (fs : Fat32Fs) (volume : Volume) : List Path → List Nat → Option (List Nat)
  | [], trail => some trail
  | component :: rest, trail =>
      if component = [] ∨ component = [0x2E] then treeWalk fs volume rest trail
      else if component = up then treeWalk fs volume rest trail.tail
      else
        match volume.lookup fs (trailEnd fs trail) component with
        | none => none
        | some info => if info.isDir then treeWalk fs volume rest (info.cluster :: trail) else none

end Volume

/-- The loop of `resolve_path` follows the components to a cluster. -/
def Follows (fs : Fat32Fs) (vfs : VfsManager) (device : Device) (current : Nat) (path : List Path)
    (target : Nat) : Prop :=
  vfs.resolveComponents fs path current device = .ok target device

/-- The runs of a path followed one after the other, each but the first from the root: the last
one leads to the target, and the others somewhere. -/
def Retraced (fs : Fat32Fs) (vfs : VfsManager) (device : Device) (target : Nat) :
    Nat → List (List Path) → Prop
  | _, [] => False
  | current, [last] => Follows fs vfs device current last target
  | current, run :: later =>
      (∃ next, Follows fs vfs device current run next) ∧
        Retraced fs vfs device target vfs.rootCluster later

section Follows

variable {fs : Fat32Fs} {vfs : VfsManager} {device : Device}

theorem follows_cons {component : Path} {rest : List Path} {current target : Nat} :
    Follows fs vfs device current (component :: rest) target ↔
      ∃ next, vfs.resolveComponent fs component current device = .ok next device ∧
        Follows fs vfs device next rest target := by
  rw [Follows, VfsManager.resolveComponents, Lib.bind_ok]
  constructor
  · rintro ⟨next, middle, ran, done⟩
    have same := vfs.resolveComponent_readOnly fs component current device
    rw [ran] at same
    obtain rfl : middle = device := same
    exact ⟨next, ran, done⟩
  · rintro ⟨next, ran, done⟩
    exact ⟨next, device, ran, done⟩

/-- The listing of a directory hides `..`, so the driver is back at the root. -/
theorem resolve_up (geometry : fs.Geometry) (healthy : device.Healthy) (current : Nat) :
    vfs.resolveComponent fs up current device = .ok vfs.rootCluster device := by
  rw [VfsManager.resolveComponent, if_neg (by decide), if_pos (show up = [0x2E, 0x2E] from rfl)]
  by_cases atRoot : current = vfs.rootCluster
  · rw [if_pos atRoot, atRoot]
    rfl
  · rw [if_neg atRoot]
    obtain ⟨entries, ran, plain⟩ := ((Fat32Fs.readDirEntries_succeeds geometry current).mapErr
      fun _ => VfsError.ioError).answer (.mapErr (fs.readDirEntries_readOnly current) _) healthy
    have hidden : (entries.find? fun entry => decide (entry.name = [0x2E, 0x2E])) = none := by
      rw [List.find?_eq_none]
      intro info member
      simpa using (plain info member).2
    rw [Disk.bind_ok ran, hidden]
    rfl

theorem follows_up (geometry : fs.Geometry) (healthy : device.Healthy) {rest : List Path}
    {current target : Nat} : Follows fs vfs device current (up :: rest) target ↔
      Follows fs vfs device vfs.rootCluster rest target := by
  rw [follows_cons]
  constructor
  · rintro ⟨next, ran, done⟩
    rw [resolve_up geometry healthy] at ran
    injection ran with same
    exact same ▸ done
  · intro done
    exact ⟨_, resolve_up geometry healthy current, done⟩

theorem retraced_cons (component : Path) {first : List Path} {later : List (List Path)}
    {current target : Nat} :
    Retraced fs vfs device target current ((component :: first) :: later) ↔
      ∃ next, vfs.resolveComponent fs component current device = .ok next device ∧
        Retraced fs vfs device target next (first :: later) := by
  cases later with
  | nil => exact follows_cons
  | cons second others =>
      simp only [Retraced, follows_cons]
      constructor
      · rintro ⟨⟨stop, next, ran, done⟩, onward⟩
        exact ⟨next, ran, ⟨stop, done⟩, onward⟩
      · rintro ⟨next, ran, ⟨stop, done⟩, onward⟩
        exact ⟨⟨stop, next, ran, done⟩, onward⟩

theorem follows_iff (geometry : fs.Geometry) (healthy : device.Healthy) (path : List Path)
    (current target : Nat) : Follows fs vfs device current path target ↔
      Retraced fs vfs device target current (runs path) := by
  induction path generalizing current with
  | nil => exact Iff.rfl
  | cons component rest ih =>
      cases split : runs rest with
      | nil => exact absurd split (runs_ne_nil rest)
      | cons first later =>
          by_cases upward : component = up
          · subst upward
            rw [follows_up geometry healthy, ih, runs_up, split]
            constructor
            · exact fun onward => ⟨⟨current, rfl⟩, onward⟩
            · exact fun onward => onward.2
          · rw [runs_other upward split, retraced_cons, follows_cons]
            simp only [ih, split]

end Follows

namespace Volume

variable {fs : Fat32Fs} {volume : Volume}

/-- Without `..` the driver and the tree walk go the same way. -/
theorem treeWalk_names {path : List Path} (names : up ∉ path) {trail trail' : List Nat}
    (walked : volume.treeWalk fs path trail = some trail') :
    volume.throughDirs fs path (trailEnd fs trail) = true ∧
      volume.walk fs path (trailEnd fs trail) = .ok (trailEnd fs trail') := by
  induction path generalizing trail with
  | nil =>
      injection walked with same
      exact ⟨rfl, congrArg (fun trail => Except.ok (trailEnd fs trail)) same⟩
  | cons component rest ih =>
      have later : up ∉ rest := fun member => names (List.mem_cons_of_mem _ member)
      have other : component ≠ up := fun same => names (same ▸ List.mem_cons_self)
      simp only [treeWalk, throughDirs, walk] at walked ⊢
      by_cases stay : component = [] ∨ component = [0x2E]
      · simp only [if_pos stay] at walked ⊢
        exact ih later walked
      simp only [if_neg stay, if_neg other] at walked ⊢
      rw [if_neg (show ¬component = [0x2E, 0x2E] from other),
        if_neg (show ¬component = [0x2E, 0x2E] from other)]
      cases found : volume.lookup fs (trailEnd fs trail) component with
      | none =>
          rw [found] at walked
          cases walked
      | some info =>
          rw [found] at walked
          simp only at walked ⊢
          cases directory : info.isDir with
          | false =>
              rw [directory] at walked
              cases walked
          | true =>
              rw [directory, if_pos rfl] at walked
              rw [Bool.true_and]
              exact ih later walked

theorem owner_unique (sound : volume.Sound fs) {left right : Owner} (leftLive : volume.Live fs left)
    (rightLive : volume.Live fs right) (directory : volume.directory left = true)
    (same : volume.start fs left = volume.start fs right) : left = right := by
  by_contra different
  have present := sound.directories left leftLive directory
  obtain ⟨clusters, owned⟩ := sound.owns left leftLive
  obtain ⟨others, otherOwned⟩ := sound.owns right rightLive
  refine sound.apart left right leftLive rightLive different clusters others owned otherOwned
    (owned.mem_start present) ?_
  rw [same] at present ⊢
  exact otherOwned.mem_start present

theorem LiveDir.of_slot (geometry : fs.Geometry) (sound : volume.Sound fs) {left right : Nat}
    (leftLive : volume.LiveDir fs left) (rightLive : volume.LiveDir fs right) {position : Position}
    (member : position ∈ volume.slotsOf fs left) (memberRight : position ∈ volume.slotsOf fs right) :
    left = right := by
  obtain ⟨_, clusters, chain⟩ := leftLive.chain sound
  obtain ⟨_, others, otherChain⟩ := rightLive.chain sound
  rw [slotsOf_eq geometry chain] at member
  rw [slotsOf_eq geometry otherChain] at memberRight
  obtain ⟨owner, ownerLive, _, rfl⟩ := leftLive
  obtain ⟨other, otherLive, _, rfl⟩ := rightLive
  have inside := (Fat32Fs.mem_positions.mp (slots_subset member)).1
  have insideRight := (Fat32Fs.mem_positions.mp (slots_subset memberRight)).1
  by_cases same : owner = other
  · rw [same]
  · exact absurd insideRight (sound.apart owner other ownerLive otherLive same clusters others
      chain otherChain inside)

end Volume

theorem Mounted.opened {fs : Fat32Fs} {vfs : VfsManager} (mounted : Mounted fs vfs)
    (device : Device) : vfs.fs device = .ok fs device := by
  rw [VfsManager.fs, mounted.fatFs]
  rfl

theorem Mounted.resolvePath_eq {fs : Fat32Fs} {vfs : VfsManager} (mounted : Mounted fs vfs)
    (path : Path) (device : Device) : vfs.resolvePath path device =
      vfs.resolveComponents fs (pathComponents path) vfs.rootCluster device := by
  rw [VfsManager.resolvePath, Disk.bind_ok (mounted.opened device)]
  simp only [pathComponents]
  split
  · rfl
  · rfl

theorem walk_followed {fs : Fat32Fs} (geometry : fs.Geometry) {vfs : VfsManager}
    (mounted : Mounted fs vfs) {device : Device} (healthy : device.Healthy)
    (sound : (fs.view device).Sound fs) {path : List Path} {current target : Nat}
    (live : (fs.view device).LiveDir fs current)
    (proper : (fs.view device).throughDirs fs path current = true)
    (reached : (fs.view device).walk fs path current = .ok target) :
    Follows fs vfs device current path target := by
  obtain ⟨device', ran, _, _⟩ :=
    mounted.resolveComponents_runs geometry sound live proper device healthy rfl
  have same := vfs.resolveComponents_readOnly fs path current device
  rw [reached] at ran
  rw [ran] at same
  obtain rfl : device' = device := same
  exact ran

def nestedCalls : List Call :=
  [.mkdir [0x2F, 0x41], .mkdir [0x2F, 0x41, 0x2F, 0x42], .createFile [0x2F, 0x46] [1, 2, 3]]

def nestedVolume : Volume :=
  (Session.afterAll smallFs blankSession.vfs (smallFs.view blankDevice) nestedCalls).2

theorem nested_careful :
    Session.CarefulAll smallFs blankSession.vfs (smallFs.view blankDevice) nestedCalls := by
  refine ⟨?_, ?_, ?_, trivial⟩
  · exact show (smallFs.view blankDevice).ProperPath smallFs [0x2F, 0x41] by decide
  · exact show (Session.afterAll smallFs blankSession.vfs (smallFs.view blankDevice)
      (nestedCalls.take 1)).2.ProperPath smallFs [0x2F, 0x41, 0x2F, 0x42] by decide
  · exact show (Session.afterAll smallFs blankSession.vfs (smallFs.view blankDevice)
      (nestedCalls.take 2)).2.ProperPath smallFs [0x2F, 0x46] by decide

def nestedSession : Session := Session.machine.final blankSession nestedCalls

theorem nested_ready : nestedSession.Ready smallFs ∧ nestedSession.vfs = blankSession.vfs ∧
    smallFs.view nestedSession.device = nestedVolume := by
  obtain ⟨ready, shows'⟩ := Session.final_shows smallFs_geometry blank_ready
    ⟨rfl, blank_ready.healthy, rfl⟩ nested_careful
  exact ⟨ready, shows'.vfs, shows'.volume⟩

end ArcadiaOs.Fs
