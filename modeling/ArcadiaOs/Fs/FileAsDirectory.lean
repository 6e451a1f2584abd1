import ArcadiaOs.Fs.RelativePaths

/-!
Paths that go on behind a regular file.  Resolution never asks whether an entry is a
directory, so the bytes of the file are read, and written, as directory slots.
-/

namespace ArcadiaOs.Fs

open Lib

def Rejects (fs : Fat32Fs) {α : Type} (action : Disk VfsError α) (device : Device) : Prop :=
  ∃ reason device', action device = .error (.error reason) device' ∧
    fs.view device' = fs.view device

/-- Every operation on the path fails and leaves the volume as it was. -/
structure AllReject (fs : Fat32Fs) (vfs : VfsManager) (device : Device) (path : Path) : Prop where
  listDir : Rejects fs (vfs.listDir path) device
  stat : Rejects fs (vfs.stat path) device
  readFileContent : Rejects fs (vfs.readFileContent path) device
  createFile : ∀ data, Rejects fs (vfs.createFile path data) device
  mkdir : Rejects fs (vfs.mkdir path) device
  delete : Rejects fs (vfs.delete path) device
  openFile : ∀ mode, Rejects fs (vfs.openFile path mode) device

/-- From `start` on the components lead nowhere, or they lead to a cluster where the name is not
found, and there is no free cluster to put it. -/
def NothingThere (fs : Fat32Fs) (vfs : VfsManager) (device : Device) (start : Nat)
    (inner : List Path) (name : Path) : Prop :=
  (∀ cluster, ¬Follows fs vfs device start inner cluster) ∨
    ∃ cluster, Follows fs vfs device start inner cluster ∧
      (∀ next, vfs.resolveComponent fs name cluster device ≠ .ok next device) ∧
      fs.findEntry cluster (toUpper83 name) device = .ok none device ∧
      (fs.view device).firstFree fs = none

section Resolve

variable {fs : Fat32Fs} (geometry : fs.Geometry) {vfs : VfsManager} {device : Device}
  (healthy : device.Healthy)
include geometry healthy

theorem component_result (vfs : VfsManager) (component : Path) (current : Nat) :
    (∃ next, vfs.resolveComponent fs component current device = .ok next device) ∨
      vfs.resolveComponent fs component current device = .error (.error .notFound) device := by
  by_cases upward : component = up
  · subst upward
    exact .inl ⟨_, resolve_up geometry healthy current⟩
  rw [VfsManager.resolveComponent]
  by_cases stay : component = [] ∨ component = [0x2E]
  · rw [if_pos stay]
    exact .inl ⟨current, rfl⟩
  rw [if_neg stay, if_neg (show ¬component = [0x2E, 0x2E] from upward)]
  obtain ⟨entries, ran, _⟩ := ((Fat32Fs.readDirEntries_succeeds geometry current).mapErr
    fun _ => VfsError.ioError).answer (.mapErr (fs.readDirEntries_readOnly current) _) healthy
  rw [Disk.bind_ok ran]
  cases entries.find? fun entry => decide (toUpper83 entry.name = toUpper83 component) with
  | some entry => exact .inl ⟨entry.cluster, rfl⟩
  | none => exact .inr rfl

theorem components_result (vfs : VfsManager) (path : List Path) (current : Nat) :
    (∃ target, Follows fs vfs device current path target) ∨
      vfs.resolveComponents fs path current device = .error (.error .notFound) device := by
  induction path generalizing current with
  | nil => exact .inl ⟨current, rfl⟩
  | cons component rest ih =>
      rcases component_result geometry healthy vfs component current with ⟨next, ran⟩ | failed
      · rcases ih next with ⟨target, followed⟩ | failed
        · exact .inl ⟨target, follows_cons.mpr ⟨next, ran, followed⟩⟩
        · rw [VfsManager.resolveComponents, Disk.bind_ok ran]
          exact .inr failed
      · rw [VfsManager.resolveComponents, Disk.bind_error failed]
        exact .inr rfl

end Resolve

theorem components_single {path : Path} (plain : slash ∉ path) : components path = [path] := by
  induction path with
  | nil => rfl
  | cons byte rest ih =>
      have other : byte ≠ slash := fun same => plain (same ▸ List.mem_cons_self)
      rw [components, if_neg other, ih fun member => plain (List.mem_cons_of_mem _ member)]

theorem Mounted.resolvePath_parent {fs : Fat32Fs} {vfs : VfsManager} (mounted : Mounted fs vfs)
    (path : Path) (device : Device) : vfs.resolvePath path device =
      (vfs.resolveComponents fs (parentComponents path) vfs.rootCluster >>= fun parent =>
        vfs.resolveComponent fs (fileName path) parent) device := by
  have single : ∀ (component : Path) (current : Nat) (device : Device),
      vfs.resolveComponents fs [component] current device =
        vfs.resolveComponent fs component current device := by
    intro component current device
    rw [VfsManager.resolveComponents, Lib.bind_apply]
    cases vfs.resolveComponent fs component current device <;> rfl
  rw [mounted.resolvePath_eq, ← pathComponents_trim, ← resolve_components]
  simp only [parentComponents, fileName]
  by_cases inside : slash ∈ trimStart path
  · obtain ⟨front, name, whole, plain⟩ := split_last inside
    rw [whole, rsplit_slash front plain]
    simp only
    rw [components_slash, components_single plain, resolve_bind, Lib.bind_apply, Lib.bind_apply,
      resolve_components]
    simp only [single]
  · have none : rsplit (trimStart path) = none := if_neg inside
    rw [none]
    simp only
    rw [components_single inside, single]
    rfl

theorem rejects_of_error {fs : Fat32Fs} {α : Type} {action : Disk VfsError α} {device : Device}
    (reason : VfsError) (failed : action device = .error (.error reason) device) :
    Rejects fs action device :=
  ⟨reason, device, failed, rfl⟩

section Lookup

variable {fs : Fat32Fs} (geometry : fs.Geometry) {device : Device} (healthy : device.Healthy)
include geometry healthy

theorem search_result (judge : Fat32DirEntry → Verdict) (dir : Nat) :
    ∃ chain found, fs.readChain dir device = .ok chain device ∧
      fs.searchChain judge chain device = .ok found device ∧
      ∀ cluster buf index, found = .taken cluster buf index →
        buf.length = fs.bpb.clusterSizeBytes ∧ fs.InCluster index := by
  obtain ⟨chain, ranChain, _⟩ :=
    (Fat32Fs.readChain_succeeds geometry dir).answer (fs.readChain_readOnly dir) healthy
  obtain ⟨found, ranSearch, inside⟩ := (Fat32Fs.searchChain_succeeds geometry judge chain).answer
    (fs.searchChain_readOnly judge chain) healthy
  exact ⟨chain, found, ranChain, ranSearch, inside⟩

theorem removeEntry_absent {dir : Nat} {nameUpper : List UInt8}
    (absent : fs.findEntry dir nameUpper device = .ok none device) :
    fs.removeEntry dir nameUpper device = .error (.error "File not found") device := by
  obtain ⟨chain, found, ranChain, ranSearch, _⟩ :=
    search_result geometry healthy (judgeName nameUpper) dir
  rw [Fat32Fs.findEntry, Disk.bind_ok ranChain, Disk.bind_ok ranSearch] at absent
  rw [Fat32Fs.removeEntry, Disk.bind_ok ranChain, Disk.bind_ok ranSearch]
  cases found with
  | taken cluster buf index => cases absent
  | stopped => rfl
  | exhausted => rfl

theorem removeEntry_found {dir : Nat} {nameUpper : List UInt8} {entry : Fat32DirEntry}
    (found : fs.findEntry dir nameUpper device = .ok (some entry) device) :
    ∃ device', fs.removeEntry dir nameUpper device = .ok entry device' ∧ device'.Healthy := by
  obtain ⟨chain, search, ranChain, ranSearch, inside⟩ :=
    search_result geometry healthy (judgeName nameUpper) dir
  rw [Fat32Fs.findEntry, Disk.bind_ok ranChain, Disk.bind_ok ranSearch] at found
  rw [Fat32Fs.removeEntry, Disk.bind_ok ranChain, Disk.bind_ok ranSearch]
  cases search with
  | taken cluster buf index =>
      injection found with same
      obtain ⟨long, bound⟩ := inside cluster buf index rfl
      have short : ([0xE5] : List UInt8).length ≤ entrySize := by decide
      obtain ⟨_, device', wrote, _, healthy'⟩ :=
        Fat32Fs.writeSlot_succeeds geometry cluster long bound short device healthy
      refine ⟨device', ?_, healthy'⟩
      rw [← Option.some.inj same]
      exact Disk.bind_ok wrote _
  | stopped => cases found
  | exhausted => cases found

theorem addEntry_fails {dir : Nat} {entry : Fat32DirEntry} {halt : Halt String} {device' : Device}
    (failed : fs.addEntry dir entry device = .error halt device') :
    (fs.view device').fat = (fs.view device).fat := by
  have sectors := geometry.clusterSectors
  have size := geometry.clusterSize
  have room : ¬fs.bpb.clusterSizeBytes < entrySize := by
    rw [size, entrySize]
    omega
  obtain ⟨chain, search, ranChain, ranSearch, inside⟩ :=
    search_result geometry healthy judgeVacant dir
  rw [Fat32Fs.addEntry, Disk.bind_ok ranChain, Disk.bind_ok ranSearch] at failed
  cases search with
  | taken cluster buf index =>
      obtain ⟨long, bound⟩ := inside cluster buf index rfl
      obtain ⟨_, written, wrote, _, _⟩ := Fat32Fs.writeSlot_succeeds geometry cluster long bound
        entry.length_toBytes.le device healthy
      simp only at failed
      rw [wrote] at failed
      cases failed
  | stopped | exhausted =>
      simp only at failed
      cases free : (fs.view device).firstFree fs with
      | none =>
          obtain ⟨reason, ran⟩ := Fat32Fs.allocCluster_none geometry free
          obtain ⟨middle, ran, _, holds⟩ := ran device healthy rfl
          rw [Disk.bind_error ran] at failed
          injection failed with _ same
          rw [← same, holds]
      | some cluster =>
          obtain ⟨middle, ran, middleHealthy, holds⟩ :=
            Fat32Fs.allocCluster_some geometry free device healthy rfl
          rw [Disk.bind_ok ran, if_neg room] at failed
          cases ended : chain.getLast? with
          | none =>
              rw [ended] at failed
              injection failed with _ same
              rw [← same, holds, Volume.setData_fat]
          | some last =>
              rw [ended] at failed
              obtain ⟨_, first, wrote, _, firstHealthy⟩ :=
                Fat32Fs.writeFatEntry_succeeds geometry last cluster middle middleHealthy
              obtain ⟨_, second, wroteNext, _, secondHealthy⟩ :=
                Fat32Fs.writeFatEntry_succeeds geometry cluster fat32Eoc first firstHealthy
              have long : (splice fs.clusterZeros 0 entry.toBytes).length = fs.bpb.clusterSizeBytes := by
                rw [Fat32Fs.clusterZeros, length_splice, length_zeros]
                rw [entry.length_toBytes, length_zeros]
                omega
              obtain ⟨_, third, wroteLast, _, _⟩ :=
                Fat32Fs.writeCluster_succeeds geometry cluster long second secondHealthy
              simp only at failed
              rw [Disk.bind_ok wrote, Disk.bind_ok wroteNext, wroteLast] at failed
              cases failed

end Lookup

section Operations

variable {fs : Fat32Fs} {vfs : VfsManager} (mounted : Mounted fs vfs) {device : Device} {path : Path}
  (located : vfs.resolveParent (vfs.canonicalize path) device = vfs.resolveParent path device)
include mounted located

theorem rejects_without_parent
    (stuck : vfs.resolveComponents fs (parentComponents path) vfs.rootCluster device =
      .error (.error .notFound) device) : AllReject fs vfs device path := by
  have opened := mounted.opened device
  have parent : vfs.resolveParent path device = .error (.error .notFound) device := by
    rw [mounted.resolveParent_eq, Disk.bind_error stuck]
  have resolved : vfs.resolvePath path device = .error (.error .notFound) device := by
    rw [mounted.resolvePath_parent, Disk.bind_error stuck]
  have behind : ∀ {α : Type} (next : Nat × Path → Disk VfsError α),
      (vfs.resolveParent path >>= next) device = .error (.error .notFound) device :=
    fun next => Disk.bind_error parent next
  refine ⟨rejects_of_error .notFound ?_, rejects_of_error .notFound ?_,
    rejects_of_error .notFound ?_, fun data => rejects_of_error .notFound ?_,
    rejects_of_error .notFound ?_, rejects_of_error .notFound ?_,
    fun mode => rejects_of_error .notFound ?_⟩
  · rw [VfsManager.listDir, Disk.bind_ok opened, Disk.bind_error resolved]
  · rw [VfsManager.stat, Disk.bind_ok opened, Disk.bind_error resolved]
  · rw [VfsManager.readFileContent, Disk.bind_ok opened, behind]
  · rw [VfsManager.createFile, Disk.bind_ok opened, behind]
  · rw [VfsManager.mkdir, Disk.bind_ok opened, behind]
  · rw [VfsManager.delete, Disk.bind_ok opened, behind]
  · rw [VfsManager.openFile, Disk.bind_ok opened]
    rw [parent] at located
    exact Disk.bind_error located _

variable (geometry : fs.Geometry) (healthy : device.Healthy) {parent : Nat}
  (followed : Follows fs vfs device vfs.rootCluster (parentComponents path) parent)
  (absent : fs.findEntry parent (toUpper83 (fileName path)) device = .ok none device)
include geometry healthy followed absent

theorem rejects_without_space
    (unnamed : ∀ next, vfs.resolveComponent fs (fileName path) parent device ≠ .ok next device)
    (full : (fs.view device).firstFree fs = none) : AllReject fs vfs device path := by
  have opened := mounted.opened device
  have found : vfs.resolveParent path device = .ok (parent, fileName path) device := by
    rw [mounted.resolveParent_eq, Disk.bind_ok followed]
    rfl
  have resolved : vfs.resolvePath path device = .error (.error .notFound) device := by
    rw [mounted.resolvePath_parent, Disk.bind_ok followed]
    rcases component_result geometry healthy vfs (fileName path) parent with ⟨next, ran⟩ | failed
    · exact absurd ran (unnamed next)
    · exact failed
  have named : fileName path ≠ [] := by
    intro empty
    refine unnamed parent ?_
    rw [VfsManager.resolveComponent, if_pos (.inl empty)]
    rfl
  have missing : ((fs.findEntry parent (toUpper83 (fileName path))).mapErr fun _ => VfsError.ioError)
      device = .ok none device := Disk.mapErr_ok absent _
  refine ⟨rejects_of_error .notFound ?_, rejects_of_error .notFound ?_,
    rejects_of_error .notFound ?_, fun data => ?_, ?_, ?_, fun mode => ?_⟩
  · rw [VfsManager.listDir, Disk.bind_ok opened, Disk.bind_error resolved]
  · rw [VfsManager.stat, Disk.bind_ok opened, Disk.bind_error resolved]
  · rw [VfsManager.readFileContent, Disk.bind_ok opened, Disk.bind_ok found]
    simp only [if_neg named]
    rw [Disk.bind_ok found, Disk.bind_ok missing]
    rfl
  · have refused : fs.Refuses (fs.allocateAndWrite data) (fs.view device) :=
      Fat32Fs.allocateAndWrite_full geometry full
    obtain ⟨reason, ran⟩ := refused
    obtain ⟨device', failed, _, holds⟩ := ran device healthy rfl
    refine ⟨.noSpace, device', ?_, holds⟩
    rw [VfsManager.createFile, Disk.bind_ok opened, Disk.bind_ok found]
    simp only [if_neg named]
    rw [Disk.bind_ok missing]
    exact Disk.bind_error (Disk.mapErr_error failed _) _
  · obtain ⟨reason, ran⟩ := Fat32Fs.allocCluster_none geometry full
    obtain ⟨device', failed, _, holds⟩ := ran device healthy rfl
    refine ⟨.noSpace, device', ?_, holds⟩
    rw [VfsManager.mkdir, Disk.bind_ok opened, Disk.bind_ok found]
    simp only [if_neg named]
    rw [Disk.bind_ok missing]
    exact Disk.bind_error (Disk.mapErr_error failed _) _
  · refine rejects_of_error .ioError ?_
    rw [VfsManager.delete, Disk.bind_ok opened, Disk.bind_ok found]
    simp only [if_neg named]
    exact Disk.bind_error (Disk.mapErr_error (removeEntry_absent geometry healthy absent) _) _
  · rw [found] at located
    have refused : fs.Refuses (fs.allocateAndWrite []) (fs.view device) :=
      Fat32Fs.allocateAndWrite_full geometry full
    obtain ⟨reason, ran⟩ := refused
    obtain ⟨device', failed, _, holds⟩ := ran device healthy rfl
    have start : ∀ {α : Type} (next : Nat → Disk VfsError α),
        (((fs.allocateAndWrite []).mapErr fun _ => VfsError.noSpace) >>= next) device =
          .error (.error .noSpace) device' :=
      fun next => Disk.bind_error (Disk.mapErr_error failed _) next
    simp only [Rejects, VfsManager.openFile, Disk.bind_ok opened, Disk.bind_ok located, if_neg named,
      Disk.bind_ok missing]
    cases mode with
    | read => exact ⟨.notFound, device, rfl, rfl⟩
    | write => exact ⟨.notFound, device, rfl, rfl⟩
    | create => exact ⟨.noSpace, device', start _, holds⟩
    | createNew => exact ⟨.noSpace, device', start _, holds⟩

omit absent located in
theorem absent_of_rejects (named : fileName path ≠ [])
    (refused : Rejects fs (vfs.delete path) device) :
    fs.findEntry parent (toUpper83 (fileName path)) device = .ok none device := by
  have found : vfs.resolveParent path device = .ok (parent, fileName path) device := by
    rw [mounted.resolveParent_eq, Disk.bind_ok followed]
    rfl
  obtain ⟨result, ran, _⟩ := (Fat32Fs.findEntry_succeeds geometry parent _).answer
    (fs.findEntry_readOnly parent (toUpper83 (fileName path))) healthy
  cases result with
  | none => exact ran
  | some entry =>
      obtain ⟨middle, removed, middleHealthy⟩ := removeEntry_found geometry healthy ran
      have freed : Disk.Succeeds (fun _ => True) (VfsManager.freeOwned fs entry) := by
        rw [VfsManager.freeOwned]
        split
        · exact (Fat32Fs.freeChain_succeeds geometry _).mapErr _
        · exact .pure trivial
      obtain ⟨_, last, done, _, _⟩ := freed middle middleHealthy
      obtain ⟨reason, device', failed, _⟩ := refused
      rw [VfsManager.delete, Disk.bind_ok (mounted.opened device), Disk.bind_ok found] at failed
      simp only [if_neg named] at failed
      rw [Disk.bind_ok (Disk.mapErr_ok removed _), done] at failed
      cases failed

omit located in
theorem full_of_rejects (named : fileName path ≠ [])
    (refused : Rejects fs (vfs.mkdir path) device) : (fs.view device).firstFree fs = none := by
  have found : vfs.resolveParent path device = .ok (parent, fileName path) device := by
    rw [mounted.resolveParent_eq, Disk.bind_ok followed]
    rfl
  have sectors := geometry.clusterSectors
  have size := geometry.clusterSize
  have room : ¬fs.bpb.clusterSizeBytes < 2 * entrySize := by
    rw [size, entrySize]
    omega
  cases free : (fs.view device).firstFree fs with
  | none => rfl
  | some cluster =>
      obtain ⟨valid, unused⟩ := Volume.firstFree_some free
      obtain ⟨first, taken, firstHealthy, _⟩ :=
        Fat32Fs.allocCluster_some geometry free device healthy rfl
      obtain ⟨second, filled, secondHealthy, _⟩ := Fat32Fs.writeCluster_runs geometry valid
        (Mounted.length_dots geometry cluster parent) first firstHealthy rfl
      obtain ⟨third, marked, thirdHealthy, holds⟩ := Fat32Fs.writeFatEntry_runs geometry valid
        (show fat32Eoc < 2 ^ 28 by decide) second secondHealthy rfl
      obtain ⟨reason, device', failed, same⟩ := refused
      rw [VfsManager.mkdir, Disk.bind_ok (mounted.opened device), Disk.bind_ok found] at failed
      simp only [if_neg named] at failed
      rw [Disk.bind_ok (Disk.mapErr_ok absent _)] at failed
      simp only [Option.isSome_none, Bool.false_eq_true, if_false] at failed
      rw [Disk.bind_ok (Disk.mapErr_ok taken _), if_neg room] at failed
      have wrote : (fs.writeCluster cluster (splice (splice fs.clusterZeros 0
          (VfsManager.dotEntry [0x2E] cluster).toBytes) entrySize
          (VfsManager.dotEntry [0x2E, 0x2E] parent).toBytes)) first = .ok () second := filled
      rw [Disk.bind_ok (Disk.mapErr_ok wrote _), Disk.bind_ok (Disk.mapErr_ok marked _)] at failed
      cases entered : fs.addEntry parent
          (VfsManager.newEntry (toUpper83 (fileName path)) 0x10 cluster 0) third with
      | ok value last =>
          rw [Disk.mapErr_ok entered] at failed
          cases failed
      | error halt last =>
          have kept := addEntry_fails geometry thirdHealthy entered
          have left : last = device' := by
            rw [Disk.mapErr, entered] at failed
            cases halt with
            | panic => cases failed
            | error reason =>
                injection failed
          -- the cluster stays marked for a directory that is in no directory
          have lost : (fs.view device').fat cluster = fat32Eoc := by
            rw [← left, kept, holds, Volume.setFat_fat_same]
          rw [same, unused] at lost
          cases lost

end Operations

theorem listDir_not_rejects {fs : Fat32Fs} (geometry : fs.Geometry) {vfs : VfsManager}
    (mounted : Mounted fs vfs) {device : Device} (healthy : device.Healthy) {path : Path}
    {cluster : Nat} (resolved : vfs.resolvePath path device = .ok cluster device) :
    ¬Rejects fs (vfs.listDir path) device := by
  rintro ⟨reason, device', failed, _⟩
  obtain ⟨entries, listed, _⟩ := ((Fat32Fs.readDirEntries_succeeds geometry cluster).mapErr
    fun _ => VfsError.ioError).answer (.mapErr (fs.readDirEntries_readOnly cluster) _) healthy
  rw [VfsManager.listDir, Disk.bind_ok (mounted.opened device), Disk.bind_ok resolved,
    Disk.bind_ok listed] at failed
  cases failed

/-- What the operations on a path refuse is decided by what its parent leads to. -/
theorem allReject_iff {fs : Fat32Fs} (geometry : fs.Geometry) {vfs : VfsManager}
    (mounted : Mounted fs vfs) {device : Device} (healthy : device.Healthy) {path : Path}
    (located : vfs.resolveParent (vfs.canonicalize path) device = vfs.resolveParent path device) :
    AllReject fs vfs device path ↔
      NothingThere fs vfs device vfs.rootCluster (parentComponents path) (fileName path) := by
  constructor
  · intro refused
    rcases components_result geometry healthy vfs (parentComponents path) vfs.rootCluster with
      ⟨parent, followed⟩ | stuck
    · have unnamed : ∀ next, vfs.resolveComponent fs (fileName path) parent device ≠ .ok next device := by
        intro next ran
        have resolved : vfs.resolvePath path device = .ok next device := by
          rw [mounted.resolvePath_parent, Disk.bind_ok followed, ran]
        exact listDir_not_rejects geometry mounted healthy resolved refused.listDir
      have named : fileName path ≠ [] := by
        intro empty
        refine unnamed parent ?_
        rw [VfsManager.resolveComponent, if_pos (.inl empty)]
        rfl
      have absent := absent_of_rejects mounted geometry healthy followed named refused.delete
      exact .inr ⟨parent, followed, unnamed, absent,
        full_of_rejects mounted geometry healthy followed absent named refused.mkdir⟩
    · refine .inl fun cluster followed => ?_
      rw [Follows, stuck] at followed
      cases followed
  · rintro (nowhere | ⟨parent, followed, unnamed, absent, full⟩)
    · rcases components_result geometry healthy vfs (parentComponents path) vfs.rootCluster
        with ⟨parent, followed⟩ | stuck
      · exact absurd followed (nowhere parent)
      · exact rejects_without_parent mounted located stuck
    · exact rejects_without_space mounted located geometry healthy followed absent unnamed full

theorem component_found {fs : Fat32Fs} (geometry : fs.Geometry) (vfs : VfsManager) {device : Device} (healthy : device.Healthy) (sound : (fs.view device).Sound fs) {dir : Nat}
    (live : (fs.view device).LiveDir fs dir) {component : Path}
    (plain : component ≠ [] ∧ component ≠ [0x2E] ∧ component ≠ up) {info : DirEntryInfo}
    (found : (fs.view device).lookup fs dir component = some info) :
    vfs.resolveComponent fs component dir device = .ok info.cluster device := by
  obtain ⟨_, clusters, chain⟩ := live.chain sound
  have ran := readDirEntries_answers geometry healthy chain
  rw [VfsManager.resolveComponent, if_neg (not_or.mpr ⟨plain.1, plain.2.1⟩),
    if_neg (show ¬component = [0x2E, 0x2E] from plain.2.2), Disk.bind_ok ran]
  rw [Volume.lookup] at found
  simp only [found]
  rfl

/-- Behind the name of a regular file every operation fails just when the file's clusters, read as
a directory, lead nowhere, or when the last name is not there and there is no room for it; and
`list_dir` of the file itself never fails. -/
theorem file_as_directory_iff {fs : Fat32Fs} (geometry : fs.Geometry) {vfs : VfsManager}
    (mounted : Mounted fs vfs) {device : Device} (healthy : device.Healthy)
    (sound : (fs.view device).Sound fs) {front : List Path} {name : Path} {dir : Nat}
    {info : DirEntryInfo}
    (proper : (fs.view device).throughDirs fs front fs.bpb.rootCluster.toNat = true)
    (reached : (fs.view device).walk fs front fs.bpb.rootCluster.toNat = .ok dir)
    (plain : name ≠ [] ∧ name ≠ [0x2E] ∧ name ≠ up)
    (found : (fs.view device).lookup fs dir name = some info ∧ info.isDir = false) :
    (∀ (path : Path) (inner : List Path), path.head? = some slash ∨ vfs.cwd = [slash] →
      parentComponents path = front ++ name :: inner →
      (AllReject fs vfs device path ↔
        NothingThere fs vfs device info.cluster inner (fileName path))) ∧
    ∀ path : Path, pathComponents path = front ++ [name] →
      ¬Rejects fs (vfs.listDir path) device := by
  have live := Volume.walk_liveDir geometry sound Volume.liveDir_root proper reached
  have before : Follows fs vfs device vfs.rootCluster front dir := by
    rw [mounted.rootCluster]
    exact walk_followed geometry mounted healthy sound Volume.liveDir_root proper reached
  have opened := component_found geometry vfs healthy sound live plain found.1
  have behind : ∀ (inner : List Path) (target : Nat),
      Follows fs vfs device vfs.rootCluster (front ++ name :: inner) target ↔
        Follows fs vfs device info.cluster inner target := by
    intro inner target
    rw [Follows, resolve_append before, VfsManager.resolveComponents, Disk.bind_ok opened]
    rfl
  refine ⟨fun path inner absolute split => ?_, fun path split refused => ?_⟩
  · have located : vfs.resolveParent (vfs.canonicalize path) device = vfs.resolveParent path device := by
      rw [VfsManager.canonicalize]
      split
      · rfl
      · rename_i relative
        have root := absolute.resolve_left relative
        rw [root]
        simp only [List.getLast?_singleton, if_true, List.singleton_append, VfsManager.resolveParent,
          trimStart_slash]
    rw [allReject_iff geometry mounted healthy located, NothingThere, NothingThere, split]
    simp only [behind]
  · have resolved : vfs.resolvePath path device = .ok info.cluster device := by
      rw [mounted.resolvePath_eq, split]
      exact (behind [] info.cluster).mpr rfl
    exact listDir_not_rejects geometry mounted healthy resolved refused

theorem nested_file : nestedVolume.lookup smallFs 2 [0x46] = some ⟨[0x66], false, 3, 5⟩ := by
  decide

theorem file_as_directory_nested :
    (∀ (path : Path) (inner : List Path),
      path.head? = some slash ∨ nestedSession.vfs.cwd = [slash] →
      parentComponents path = [] ++ [0x46] :: inner →
      (AllReject smallFs nestedSession.vfs nestedSession.device path ↔
        NothingThere smallFs nestedSession.vfs nestedSession.device 5 inner (fileName path))) ∧
    ∀ path : Path, pathComponents path = [] ++ [[0x46]] →
      ¬Rejects smallFs (nestedSession.vfs.listDir path) nestedSession.device := by
  obtain ⟨⟨mounted, healthy, sound⟩, _, holds⟩ := nested_ready
  have found := nested_file
  rw [← holds] at found
  exact file_as_directory_iff smallFs_geometry mounted healthy sound rfl rfl (by decide) ⟨found, rfl⟩

/-- `/F` is a regular file, and yet not every operation on `/F/X` fails. -/
theorem file_as_directory_accepted :
    nestedVolume.lookup smallFs 2 [0x46] = some ⟨[0x66], false, 3, 5⟩ ∧
      smallFs.view nestedSession.device = nestedVolume ∧
      ¬AllReject smallFs nestedSession.vfs nestedSession.device [0x2F, 0x46, 0x2F, 0x58] := by
  obtain ⟨⟨mounted, healthy, sound⟩, _, holds⟩ := nested_ready
  refine ⟨nested_file, holds, ?_⟩
  have rooted : nestedSession.vfs.rootCluster = 2 := mounted.rootCluster
  have live : nestedVolume.LiveDir smallFs 2 := Volume.liveDir_root
  have found := nested_file
  have free : nestedVolume.firstFree smallFs = some 6 := by decide
  rw [← holds] at live found free
  have opened := component_found smallFs_geometry nestedSession.vfs healthy sound live (by decide) found
  have parent : parentComponents [0x2F, 0x46, 0x2F, 0x58] = [[0x46]] := by decide
  have followed : Follows smallFs nestedSession.vfs nestedSession.device 2 [[0x46]] 5 :=
    follows_cons.mpr ⟨5, opened, rfl⟩
  have absolute : nestedSession.vfs.canonicalize [0x2F, 0x46, 0x2F, 0x58] = [0x2F, 0x46, 0x2F, 0x58] :=
    if_pos (by decide)
  rw [allReject_iff smallFs_geometry mounted healthy (by rw [absolute]), rooted, parent]
  rintro (nowhere | ⟨_, _, _, _, full⟩)
  · exact nowhere 5 followed
  · rw [free] at full
    cases full

end ArcadiaOs.Fs
