import ArcadiaOs.Fs.Resolution

/-!
Relative paths.  `open` and a part of `stat` put the working directory in front of a
path, the other operations take it from the root; they agree when the working
directory is the root.
-/

namespace ArcadiaOs.Fs

open Lib

/-! Paths put together and taken apart at their slashes. -/

theorem components_slash (front back : Path) :
    components (front ++ slash :: back) = components front ++ components back := by
  induction front with
  | nil => simp only [List.nil_append, components, if_true, List.cons_append]
  | cons byte rest ih =>
      simp only [List.cons_append, components, ih]
      split
      · rfl
      · cases pieces : components rest with
        | nil => exact absurd pieces (components_ne_nil rest)
        | cons first others => rfl

theorem trimStart_idem (path : Path) : trimStart (trimStart path) = trimStart path :=
  trimStart_eq_self (trimStart_head path)

theorem trimStart_slash (path : Path) : trimStart (slash :: path) = trimStart path := by
  rw [trimStart, List.dropWhile_cons_of_pos (by decide)]
  rfl

theorem pathComponents_trim (path : Path) : pathComponents (trimStart path) = pathComponents path := by
  rw [pathComponents, pathComponents, trimStart_idem]

theorem components_stays (path : Path) : ∃ stays, components path = stays ++ pathComponents path ∧
    ∀ component ∈ stays, component = [] ∨ component = [0x2E] := by
  induction path with
  | nil => exact ⟨[[]], rfl, by simp⟩
  | cons byte rest ih =>
      by_cases same : byte = slash
      · subst same
        obtain ⟨stays, split, stay⟩ := ih
        refine ⟨[] :: stays, ?_, ?_⟩
        · rw [components, if_pos rfl, split, pathComponents, pathComponents, trimStart_slash]
          rfl
        · exact List.forall_mem_cons.mpr ⟨.inl rfl, stay⟩
      · have trimmed : trimStart (byte :: rest) = byte :: rest := by
          apply trimStart_eq_self
          intro started
          exact same (Option.some.inj started)
        rw [pathComponents, trimmed]
        split
        · rename_i top
          rcases top with empty | dot
          · cases empty
          · exact ⟨[[0x2E]], by rw [dot]; rfl, by simp⟩
        · exact ⟨[], rfl, List.forall_mem_nil _⟩

theorem trimStart_append (front path : Path) :
    trimStart (front ++ slash :: path) = trimStart path ∨
      trimStart (front ++ slash :: path) = trimStart front ++ slash :: path := by
  induction front with
  | nil => exact .inl (trimStart_slash path)
  | cons byte rest ih =>
      by_cases same : byte = slash
      · subst same
        rw [List.cons_append, trimStart_slash, trimStart_slash]
        exact ih
      · right
        have head : ∀ tail : Path, (byte :: tail).head? ≠ some slash := by
          intro tail started
          exact same (Option.some.inj started)
        rw [trimStart_eq_self (head rest), List.cons_append, trimStart_eq_self (head _)]

/-- `path` in the directory `cwd`. -/
def absolute (cwd path : Path) : Path :=
  if cwd.getLast? = some slash then cwd ++ path else cwd ++ slash :: path

theorem absolute_eq (cwd path : Path) : ∃ front,
    absolute cwd path = front ++ slash :: path ∧ (cwd = front ∨ cwd = front ++ [slash]) := by
  rw [absolute]
  split
  · rename_i ended
    obtain ⟨front, rfl⟩ := List.getLast?_eq_some_iff.mp ended
    exact ⟨front, by simp, .inr rfl⟩
  · exact ⟨cwd, rfl, .inl rfl⟩

section Driver

variable {fs : Fat32Fs} {vfs : VfsManager} {device : Device}

theorem resolve_stay {component : Path} (stay : component = [] ∨ component = [0x2E])
    (rest : List Path) (current : Nat) :
    vfs.resolveComponents fs (component :: rest) current device =
      vfs.resolveComponents fs rest current device := by
  rw [VfsManager.resolveComponents, VfsManager.resolveComponent, if_pos stay]
  rfl

theorem resolve_components (path : Path) (current : Nat) :
    vfs.resolveComponents fs (components path) current device =
      vfs.resolveComponents fs (pathComponents path) current device := by
  obtain ⟨stays, split, stay⟩ := components_stays path
  rw [split]
  clear split
  induction stays with
  | nil => rfl
  | cons component rest ih =>
      rw [List.cons_append, resolve_stay (stay component List.mem_cons_self)]
      exact ih fun other member => stay other (List.mem_cons_of_mem _ member)

theorem resolve_bind (front back : List Path) (current : Nat) :
    vfs.resolveComponents fs (front ++ back) current device =
      (vfs.resolveComponents fs front current >>= fun middle =>
        vfs.resolveComponents fs back middle) device := by
  induction front generalizing current device with
  | nil => rfl
  | cons component rest ih =>
      rw [Lib.bind_apply, List.cons_append, VfsManager.resolveComponents, Lib.bind_apply,
        VfsManager.resolveComponents, Lib.bind_apply]
      cases vfs.resolveComponent fs component current device with
      | ok next middle => exact ih next
      | error halt middle => rfl

theorem resolve_append {front : List Path} {current middle : Nat}
    (followed : Follows fs vfs device current front middle) (back : List Path) :
    vfs.resolveComponents fs (front ++ back) current device =
      vfs.resolveComponents fs back middle device := by
  rw [resolve_bind, Disk.bind_ok followed]

theorem resolve_trailing (path : List Path) (current : Nat) :
    vfs.resolveComponents fs (path ++ [[]]) current device =
      vfs.resolveComponents fs path current device := by
  rw [resolve_bind, Lib.bind_apply]
  cases vfs.resolveComponents fs path current device with
  | ok target middle => exact resolve_stay (.inl rfl) [] target
  | error halt middle => rfl

/-- `resolve_parent` is the walk of the components in front of the last slash. -/
theorem Mounted.resolveParent_eq (mounted : Mounted fs vfs) (path : Path) (device : Device) :
    vfs.resolveParent path device =
      (vfs.resolveComponents fs (parentComponents path) vfs.rootCluster >>= fun cluster =>
        pure (cluster, fileName path)) device := by
  simp only [VfsManager.resolveParent, parentComponents, fileName]
  by_cases empty : trimStart path = []
  · simp only [empty, if_true]
    rfl
  simp only [if_neg empty]
  cases split : rsplit (trimStart path) with
  | none => rfl
  | some parts =>
      obtain ⟨parent, name⟩ := parts
      by_cases top : parent = []
      · subst top
        rfl
      simp only [if_neg top]
      rw [Lib.bind_apply, mounted.resolvePath_eq, Lib.bind_apply]

variable {front : Path}

theorem resolve_front (mounted : Mounted fs vfs)
    (rooted : Follows fs vfs device vfs.rootCluster (components front) vfs.rootCluster)
    (path : Path) :
    vfs.resolvePath (front ++ slash :: path) device = vfs.resolvePath path device := by
  rw [mounted.resolvePath_eq, mounted.resolvePath_eq, ← resolve_components, components_slash,
    resolve_append rooted, resolve_components]

theorem parent_front (mounted : Mounted fs vfs)
    (rooted : Follows fs vfs device vfs.rootCluster (components front) vfs.rootCluster)
    {path : Path} (relative : path.head? ≠ some slash) :
    vfs.resolveParent (front ++ slash :: path) device = vfs.resolveParent path device := by
  have trimmed := trimStart_eq_self relative
  rcases trimStart_append front path with same | kept
  · simp only [VfsManager.resolveParent, same]
  have rootedTrim : Follows fs vfs device vfs.rootCluster (components (trimStart front))
      vfs.rootCluster := by
    rw [Follows, resolve_components, pathComponents_trim, ← resolve_components]
    exact rooted
  rw [mounted.resolveParent_eq, mounted.resolveParent_eq]
  simp only [parentComponents, fileName, kept, trimmed]
  by_cases inside : slash ∈ path
  · obtain ⟨middle, name, rfl, plain⟩ := split_last inside
    have whole : trimStart front ++ slash :: (middle ++ slash :: name) =
        (trimStart front ++ slash :: middle) ++ slash :: name := by simp
    rw [whole, rsplit_slash _ plain, rsplit_slash _ plain]
    simp only
    rw [Lib.bind_apply, Lib.bind_apply, ← resolve_components, components_slash,
      resolve_append rootedTrim, resolve_components]
  · have single : rsplit path = none := if_neg inside
    rw [rsplit_slash _ inside, single]
    simp only
    rw [Lib.bind_apply, ← resolve_components, show vfs.resolveComponents fs _ _ _ = _ from rootedTrim]
    rfl

end Driver

/-- Every operation answers the same for two paths and leaves the same device. -/
structure Agrees (vfs : VfsManager) (device : Device) (path other : Path) : Prop where
  listDir : vfs.listDir path device = vfs.listDir other device
  stat : vfs.stat path device = vfs.stat other device
  readFileContent : vfs.readFileContent path device = vfs.readFileContent other device
  createFile : ∀ data, vfs.createFile path data device = vfs.createFile other data device
  mkdir : vfs.mkdir path device = vfs.mkdir other device
  delete : vfs.delete path device = vfs.delete other device
  openFile : ∀ mode, vfs.openFile path mode device = vfs.openFile other mode device

theorem canonicalize_relative (vfs : VfsManager) {path : Path} (relative : path.head? ≠ some slash) :
    vfs.canonicalize path = absolute vfs.cwd path := by
  rw [VfsManager.canonicalize, if_neg relative, absolute]
  split
  · rfl
  · rw [List.append_assoc]
    rfl

theorem canonicalize_absolute (vfs : VfsManager) (rooted : vfs.cwd.head? = some slash)
    (path : Path) : vfs.canonicalize (absolute vfs.cwd path) = absolute vfs.cwd path := by
  have head : (absolute vfs.cwd path).head? = some slash := by
    cases named : vfs.cwd with
    | nil =>
        rw [named] at rooted
        cases rooted
    | cons byte rest =>
        rw [named] at rooted
        rw [absolute]
        split
        · exact rooted
        · exact rooted
  rw [VfsManager.canonicalize, if_pos head]

theorem agrees_of_alike {fs : Fat32Fs} {vfs : VfsManager} (mounted : Mounted fs vfs) {device : Device}
    {path other : Path} (resolved : vfs.resolvePath path device = vfs.resolvePath other device)
    (parent : vfs.resolveParent path device = vfs.resolveParent other device)
    (canonical : vfs.canonicalize path = vfs.canonicalize other) : Agrees vfs device path other := by
  have opened := mounted.opened device
  have after : ∀ {α : Type} (next : Nat × Path → Disk VfsError α),
      (vfs.resolveParent path >>= next) device = (vfs.resolveParent other >>= next) device := by
    intro α next
    rw [Lib.bind_apply, Lib.bind_apply, parent]
  refine ⟨?_, ?_, ?_, fun data => ?_, ?_, ?_, fun mode => ?_⟩
  · simp only [VfsManager.listDir, Disk.bind_ok opened]
    rw [Lib.bind_apply, Lib.bind_apply, resolved]
  · simp only [VfsManager.stat, Disk.bind_ok opened, canonical]
    rw [Lib.bind_apply, Lib.bind_apply, resolved]
  · simp only [VfsManager.readFileContent, Disk.bind_ok opened]
    rw [Lib.bind_apply, Lib.bind_apply, parent]
    have same := vfs.resolveParent_readOnly other device
    cases ran : vfs.resolveParent other device with
    | error halt middle => rfl
    | ok found middle =>
        -- the parent is resolved a second time, on the device the first one left
        rw [ran] at same
        obtain rfl : middle = device := same
        simp only
        split
        · rfl
        · exact after _
  · simp only [VfsManager.createFile, Disk.bind_ok opened]
    exact after _
  · simp only [VfsManager.mkdir, Disk.bind_ok opened]
    exact after _
  · simp only [VfsManager.delete, Disk.bind_ok opened]
    exact after _
  · simp only [VfsManager.openFile, canonical]

namespace Volume

variable {fs : Fat32Fs} {volume : Volume}

theorem walk_leaves_root {path : List Path} {dir : Nat}
    (proper : volume.throughDirs fs path fs.bpb.rootCluster.toNat = true)
    (reached : volume.walk fs path fs.bpb.rootCluster.toNat = .ok dir)
    (left : dir ≠ fs.bpb.rootCluster.toNat) :
    ∃ component info, volume.lookup fs fs.bpb.rootCluster.toNat component = some info ∧
      info.isDir = true := by
  induction path with
  | nil =>
      injection reached with same
      exact absurd same.symm left
  | cons component rest ih =>
      simp only [walk, throughDirs] at reached proper
      by_cases stay : component = [] ∨ component = [0x2E]
      · simp only [if_pos stay] at reached proper
        exact ih proper reached
      simp only [if_neg stay] at reached proper
      by_cases upward : component = [0x2E, 0x2E]
      · simp only [if_pos upward] at reached proper
        exact ih proper reached
      simp only [if_neg upward] at reached proper
      cases found : volume.lookup fs fs.bpb.rootCluster.toNat component with
      | none =>
          rw [found] at reached
          cases reached
      | some info =>
          rw [found] at proper
          rw [Bool.and_eq_true] at proper
          exact ⟨component, info, found, proper.1⟩

theorem listed_apart (geometry : fs.Geometry) (sound : volume.Sound fs) {left right : Nat}
    (leftLive : volume.LiveDir fs left) (rightLive : volume.LiveDir fs right)
    {info : DirEntryInfo} (directory : info.isDir = true)
    (listed : info ∈ volume.listing (volume.slotsOf fs left))
    (listedRight : info ∈ volume.listing (volume.slotsOf fs right)) : left = right := by
  obtain ⟨_, position, member, occupied, rfl⟩ := mem_listing listed
  obtain ⟨_, place, memberRight, occupiedRight, same⟩ := mem_listing listedRight
  have slot := leftLive.slot geometry sound member occupied
  have slotRight := rightLive.slot geometry sound memberRight occupiedRight
  have starts : (volume.entry position).firstCluster = (volume.entry place).firstCluster :=
    congrArg DirEntryInfo.cluster same
  have one := owner_unique sound slot slotRight directory starts
  injection one with one
  subst one
  exact leftLive.of_slot geometry sound rightLive member memberRight

end Volume

def nodeOf (info : DirEntryInfo) : VfsNode := ⟨info.name, info.isDir, info.size, info.cluster⟩

theorem nodeOf_injective : Function.Injective nodeOf := by
  intro left right same
  cases left
  cases right
  simpa [nodeOf] using same

theorem readDirEntries_answers {fs : Fat32Fs} (geometry : fs.Geometry) {device : Device}
    (healthy : device.Healthy) {dir : Nat} {clusters : List Nat}
    (chain : (fs.view device).Chain fs dir clusters) :
    Disk.mapErr (fun _ => VfsError.ioError) (fs.readDirEntries dir) device =
      .ok ((fs.view device).listing ((fs.view device).slotsOf fs dir)) device := by
  obtain ⟨device', ran, _, _⟩ := (Runs.mapErr (Fat32Fs.readDirEntries_runs geometry chain)
    fun _ => VfsError.ioError) device healthy rfl
  obtain rfl := (Disk.ReadOnly.mapErr (fs.readDirEntries_readOnly dir) _).ok ran
  rw [Volume.slotsOf_eq geometry chain]
  exact ran

theorem listDir_resolved {fs : Fat32Fs} (geometry : fs.Geometry) {vfs : VfsManager}
    (mounted : Mounted fs vfs) {device : Device} (healthy : device.Healthy)
    (sound : (fs.view device).Sound fs) {path : Path} {dir : Nat}
    (live : (fs.view device).LiveDir fs dir) (resolved : vfs.resolvePath path device = .ok dir device) :
    vfs.listDir path device =
      .ok (((fs.view device).listing ((fs.view device).slotsOf fs dir)).map nodeOf) device := by
  have opened := mounted.opened device
  obtain ⟨_, clusters, chain⟩ := live.chain sound
  have ran := readDirEntries_answers geometry healthy chain
  rw [VfsManager.listDir, Disk.bind_ok opened, Disk.bind_ok resolved, Disk.bind_ok ran]
  rfl

/-- All operations agree on all relative paths just when the working directory is the root. -/
theorem relative_paths_agree_iff {fs : Fat32Fs} (geometry : fs.Geometry) {vfs : VfsManager}
    (mounted : Mounted fs vfs) {device : Device} (healthy : device.Healthy)
    (sound : (fs.view device).Sound fs) (rooted : vfs.cwd.head? = some slash) {dir : Nat}
    (proper : (fs.view device).throughDirs fs (pathComponents vfs.cwd) vfs.rootCluster = true)
    (current : (fs.view device).walk fs (pathComponents vfs.cwd) vfs.rootCluster = .ok dir) :
    (∀ path : Path, path.head? ≠ some slash → Agrees vfs device path (absolute vfs.cwd path)) ↔
      dir = vfs.rootCluster := by
  rw [mounted.rootCluster] at proper current
  have followed : Follows fs vfs device vfs.rootCluster (pathComponents vfs.cwd) dir := by
    rw [mounted.rootCluster]
    exact walk_followed geometry mounted healthy sound Volume.liveDir_root proper current
  have fronted : ∀ {front : Path}, vfs.cwd = front ∨ vfs.cwd = front ++ [slash] →
      Follows fs vfs device vfs.rootCluster (components front) dir := by
    intro front ended
    rw [Follows, ← resolve_components] at followed
    rcases ended with same | same
    · rw [same] at followed
      exact followed
    · rw [same, components_trailing, resolve_trailing] at followed
      exact followed
  constructor
  · intro agree
    by_contra left
    rw [mounted.rootCluster] at left
    obtain ⟨component, info, found, directory⟩ := Volume.walk_leaves_root proper current left
    have live := Volume.walk_liveDir geometry sound Volume.liveDir_root proper current
    have listed := List.mem_of_find?_eq_some found
    -- the listings of `.` in the two directories
    have here : vfs.resolvePath [0x2E] device = .ok fs.bpb.rootCluster.toNat device := by
      rw [mounted.resolvePath_eq, mounted.rootCluster]
      rfl
    have there : vfs.resolvePath (absolute vfs.cwd [0x2E]) device = .ok dir device := by
      obtain ⟨before, joined, ended⟩ := absolute_eq vfs.cwd [0x2E]
      rw [joined, mounted.resolvePath_eq, ← resolve_components, components_slash,
        resolve_append (fronted ended)]
      exact resolve_stay (.inr rfl) [] dir
    have dot := (agree [0x2E] (by decide)).listDir
    rw [listDir_resolved geometry mounted healthy sound Volume.liveDir_root here,
      listDir_resolved geometry mounted healthy sound live there] at dot
    injection dot with nodes
    rw [nodeOf_injective.list_map.eq_iff] at nodes
    have listedThere := listed
    rw [nodes] at listedThere
    exact left (Volume.listed_apart geometry sound live Volume.liveDir_root directory listedThere
      listed)
  · rintro rfl path relative
    obtain ⟨front, joined, ended⟩ := absolute_eq vfs.cwd path
    have rootedFront := fronted ended
    refine agrees_of_alike mounted ?_ ?_ ?_
    · rw [joined, resolve_front mounted rootedFront]
    · rw [joined, parent_front mounted rootedFront relative]
    · rw [canonicalize_absolute vfs rooted, canonicalize_relative vfs relative]

theorem relative_paths_agree_root : nestedSession.vfs.cwd = [slash] ∧
    ((∀ path : Path, path.head? ≠ some slash →
        Agrees nestedSession.vfs nestedSession.device path (absolute nestedSession.vfs.cwd path)) ↔
      nestedSession.vfs.rootCluster = nestedSession.vfs.rootCluster) := by
  obtain ⟨⟨mounted, healthy, sound⟩, same, _⟩ := nested_ready
  have cwd : nestedSession.vfs.cwd = [slash] := by
    rw [same]
    rfl
  have top : pathComponents nestedSession.vfs.cwd = [] := by
    rw [cwd]
    decide
  refine ⟨cwd, relative_paths_agree_iff smallFs_geometry mounted healthy sound ?_ ?_ ?_⟩
  · rw [cwd]
    decide
  · rw [top, Volume.throughDirs]
  · rw [top, Volume.walk]

theorem Mounted.moved {fs : Fat32Fs} {vfs : VfsManager} (mounted : Mounted fs vfs) (cwd : Path) :
    Mounted fs { vfs with cwd } := ⟨mounted.fatFs, mounted.rootCluster⟩

theorem Mounted.readFileContent_eq {fs : Fat32Fs} (geometry : fs.Geometry) {vfs : VfsManager}
    (mounted : Mounted fs vfs) {device : Device} (healthy : device.Healthy)
    (sound : (fs.view device).Sound fs) {path : Path} (proper : (fs.view device).ProperPath fs path) :
    vfs.readFileContent path device = outcome ((fs.view device).readContent fs path) device := by
  obtain ⟨device', ran, _, _⟩ := mounted.readFileContent_runs geometry sound proper device healthy rfl
  have same := vfs.readFileContent_readOnly path device
  rw [ran] at same ⊢
  cases answer : (fs.view device).readContent fs path with
  | ok bytes =>
      rw [answer] at same
      exact congrArg _ same
  | error reason =>
      rw [answer] at same
      exact congrArg _ same

/-- With the working directory `/A`, the path `F` reads the file `/F`, and `/A/F` does not exist. -/
theorem relative_path_reads_root :
    nestedVolume.walk smallFs (pathComponents [0x2F, 0x41]) 2 = .ok 3 ∧
      smallFs.view nestedSession.device = nestedVolume ∧
      ({ nestedSession.vfs with cwd := [0x2F, 0x41] } : VfsManager).readFileContent [0x46]
          nestedSession.device = .ok [1, 2, 3] nestedSession.device ∧
      ({ nestedSession.vfs with cwd := [0x2F, 0x41] } : VfsManager).readFileContent
          (absolute [0x2F, 0x41] [0x46]) nestedSession.device =
        .error (.error .notFound) nestedSession.device := by
  obtain ⟨⟨mounted, healthy, sound⟩, _, holds⟩ := nested_ready
  have moved := mounted.moved [0x2F, 0x41]
  have file : nestedVolume.ProperPath smallFs [0x46] ∧
      nestedVolume.readContent smallFs [0x46] = .ok [1, 2, 3] := by decide
  have missing : nestedVolume.ProperPath smallFs (absolute [0x2F, 0x41] [0x46]) ∧
      nestedVolume.readContent smallFs (absolute [0x2F, 0x41] [0x46]) = .error .notFound := by
    decide
  refine ⟨by decide, holds, ?_, ?_⟩
  · rw [← holds] at file
    rw [moved.readFileContent_eq smallFs_geometry healthy sound file.1, file.2]
    rfl
  · rw [← holds] at missing
    rw [moved.readFileContent_eq smallFs_geometry healthy sound missing.1, missing.2]
    rfl

end ArcadiaOs.Fs
