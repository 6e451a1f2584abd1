import ArcadiaOs.Fs.Ownership
import ArcadiaOs.Fs.VfsCore

/-!
Paths on the view of a volume.  The walk of a path is a function of the volume, and
the driver follows it as long as no component but the last names a regular file.
-/

namespace ArcadiaOs.Fs

open Lib

def pathComponents (path : Path) : List Path :=
  if trimStart path = [] ∨ trimStart path = [0x2E] then [] else components (trimStart path)

def parentComponents (path : Path) : List Path :=
  match rsplit (trimStart path) with
  | none => []
  | some (parent, _) => pathComponents parent

def fileName (path : Path) : Path :=
  match rsplit (trimStart path) with
  | none => trimStart path
  | some (_, name) => name

theorem components_ne_nil (path : Path) : components path ≠ [] := by
  cases path with
  | nil => simp [components]
  | cons byte rest =>
      simp only [components]
      split
      · simp
      · split <;> simp

theorem components_trailing (path : Path) : components (path ++ [slash]) = components path ++ [[]] := by
  induction path with
  | nil => rfl
  | cons byte rest ih =>
      simp only [List.cons_append, components, ih]
      split
      · rfl
      · cases pieces : components rest with
        | nil => exact absurd pieces (components_ne_nil rest)
        | cons first others => rfl

theorem split_last {path : Path} (member : slash ∈ path) :
    ∃ front name, path = front ++ slash :: name ∧ slash ∉ name := by
  obtain ⟨back, front, split, plain⟩ :=
    List.eq_append_cons_of_mem (List.mem_reverse.mpr member)
  refine ⟨front.reverse, back.reverse, ?_, fun inside => plain (List.mem_reverse.mp inside)⟩
  rw [← List.reverse_reverse path, split]
  simp

theorem rsplit_slash (front : Path) {name : Path} (plain : slash ∉ name) :
    rsplit (front ++ slash :: name) = some (front, name) := by
  have member : slash ∈ front ++ slash :: name := by simp
  have turned : (front ++ slash :: name).reverse = name.reverse ++ slash :: front.reverse := by simp
  have kept : ∀ byte ∈ name.reverse, decide (byte ≠ slash) = true := by
    intro byte inside
    rw [decide_eq_true_eq]
    rintro rfl
    exact plain (List.mem_reverse.mp inside)
  have last : ((front ++ slash :: name).reverse.takeWhile fun byte => decide (byte ≠ slash)) =
      name.reverse := by
    rw [turned, List.takeWhile_append_of_pos kept]
    simp
  simp only [rsplit, if_pos member, last, List.reverse_reverse]
  have before : (front ++ slash :: name).length - name.length - 1 = front.length := by
    simp only [List.length_append, List.length_cons]
    omega
  rw [before, List.take_left']
  rfl

theorem rsplit_some {path front last : Path} (split : rsplit path = some (front, last)) :
    path = front ++ slash :: last ∧ slash ∉ last := by
  by_cases member : slash ∈ path
  · obtain ⟨before, name, rfl, plain⟩ := split_last member
    rw [rsplit_slash before plain, Option.some.injEq, Prod.mk.injEq] at split
    obtain ⟨rfl, rfl⟩ := split
    exact ⟨rfl, plain⟩
  · rw [rsplit, if_neg member] at split
    cases split

theorem rsplit_none {path : Path} (whole : rsplit path = none) : slash ∉ path := by
  intro member
  obtain ⟨before, name, rfl, plain⟩ := split_last member
  rw [rsplit_slash before plain] at whole
  cases whole

theorem trimStart_head (path : Path) : (trimStart path).head? ≠ some slash := by
  rw [trimStart]
  intro head
  have := List.head?_dropWhile_not (fun byte => decide (byte = slash)) path
  rw [head] at this
  simp at this

theorem trimStart_eq_self {path : Path} (head : path.head? ≠ some slash) : trimStart path = path := by
  cases path with
  | nil => rfl
  | cons byte rest =>
      rw [trimStart, List.dropWhile_cons_of_neg]
      intro same
      exact head (by rw [List.head?_cons, of_decide_eq_true same])

theorem pathComponents_unnamed {path : Path} (unnamed : fileName path = []) :
    pathComponents path = parentComponents path ∨
      pathComponents path = parentComponents path ++ [[]] ∨
      pathComponents path = [[0x2E], []] ∧ parentComponents path = [] := by
  simp only [fileName] at unnamed
  simp only [parentComponents]
  cases split : rsplit (trimStart path) with
  | none =>
      rw [split] at unnamed
      left
      simp only [pathComponents, if_pos (Or.inl (a := trimStart path = []) unnamed)]
  | some parts =>
      obtain ⟨parent, name⟩ := parts
      rw [split] at unnamed
      obtain rfl : name = [] := unnamed
      have whole := (rsplit_some split).1
      have head := trimStart_head path
      have top : ¬(trimStart path = [] ∨ trimStart path = [0x2E]) := by
        rw [whole]
        rintro (empty | dot)
        · simp at empty
        · cases parent with
          | nil => exact absurd dot (by decide)
          | cons _ _ => simp at dot
      have some : parent ≠ [] := by
        rintro rfl
        rw [whole] at head
        exact head rfl
      have trimmed : trimStart parent = parent := by
        apply trimStart_eq_self
        rw [whole] at head
        cases parent with
        | nil => exact absurd rfl some
        | cons _ _ => exact head
      right
      have expanded : pathComponents path = components parent ++ [[]] := by
        rw [pathComponents, if_neg top, whole, components_trailing]
      by_cases dot : parent = [0x2E]
      · right
        subst dot
        exact ⟨expanded, by decide⟩
      · left
        have below : pathComponents parent = components parent := by
          rw [pathComponents, trimmed, if_neg (by rintro (empty | same); exacts [some empty, dot same])]
        simp only [below]
        exact expanded

namespace Volume

variable (fs : Fat32Fs) (volume : Volume)

def slotsOf (dir : Nat) : List Position := fs.positions (volume.chainOf dir)

def lookup (dir : Nat) (component : Path) : Option DirEntryInfo :=
  (volume.listing (volume.slotsOf fs dir)).find? fun info =>
    toUpper83 info.name = toUpper83 component

/-- The walk of `resolve_path`.  Directory listings leave `..` out, so it always leads to the
root. -/
def walk : List Path → Nat → Except VfsError Nat
  | [], current => .ok current
  | component :: rest, current =>
      if component = [] ∨ component = [0x2E] then walk rest current
      else if component = [0x2E, 0x2E] then walk rest fs.bpb.rootCluster.toNat
      else
        match volume.lookup fs current component with
        | none => .error .notFound
        | some info => walk rest info.cluster

def throughDirs : List Path → Nat → Bool
  | [], _ => true
  | component :: rest, current =>
      if component = [] ∨ component = [0x2E] then throughDirs rest current
      else if component = [0x2E, 0x2E] then throughDirs rest fs.bpb.rootCluster.toNat
      else
        match volume.lookup fs current component with
        | none => true
        | some info => info.isDir && throughDirs rest info.cluster

def parentOf (path : Path) : Except VfsError Nat :=
  volume.walk fs (parentComponents path) fs.bpb.rootCluster.toNat

def ProperPath (path : Path) : Prop :=
  volume.throughDirs fs (parentComponents path) fs.bpb.rootCluster.toNat = true

instance (path : Path) : Decidable (ProperPath fs volume path) :=
  inferInstanceAs (Decidable (_ = true))

/-- The start of a directory of the tree. -/
def LiveDir (dir : Nat) : Prop :=
  ∃ owner, volume.Live fs owner ∧ volume.directory owner = true ∧ volume.start fs owner = dir

section Walk

variable {fs : Fat32Fs} {volume : Volume}

theorem walk_trailing (path : List Path) (current : Nat) :
    volume.walk fs (path ++ [[]]) current = volume.walk fs path current := by
  induction path generalizing current with
  | nil => rfl
  | cons component rest ih =>
      simp only [List.cons_append, walk, ih]

theorem throughDirs_trailing (path : List Path) (current : Nat) :
    volume.throughDirs fs (path ++ [[]]) current = volume.throughDirs fs path current := by
  induction path generalizing current with
  | nil => rfl
  | cons component rest ih =>
      simp only [List.cons_append, throughDirs, ih]

theorem unnamed_walk (fs : Fat32Fs) (volume : Volume) {path : Path} (unnamed : fileName path = []) (current : Nat) :
    volume.walk fs (pathComponents path) current =
        volume.walk fs (parentComponents path) current ∧
      volume.throughDirs fs (pathComponents path) current =
        volume.throughDirs fs (parentComponents path) current := by
  rcases pathComponents_unnamed unnamed with same | trailing | ⟨dot, top⟩
  · rw [same]
    exact ⟨rfl, rfl⟩
  · rw [trailing]
    exact ⟨walk_trailing _ _, throughDirs_trailing _ _⟩
  · rw [dot, top]
    exact ⟨rfl, rfl⟩

theorem liveDir_root : volume.LiveDir fs fs.bpb.rootCluster.toNat := ⟨.root, .root, rfl, rfl⟩

theorem LiveDir.chain (sound : volume.Sound fs) {dir : Nat} (live : volume.LiveDir fs dir) :
    2 ≤ dir ∧ ∃ clusters, volume.Chain fs dir clusters := by
  obtain ⟨owner, ownerLive, directory, rfl⟩ := live
  exact ⟨sound.directories owner ownerLive directory, sound.owns owner ownerLive⟩

theorem LiveDir.preserved {volume' : Volume} (preserves : volume.Preserves fs volume')
    (geometry : fs.Geometry) (sound : volume.Sound fs) {dir : Nat} (live : volume.LiveDir fs dir) :
    volume'.LiveDir fs dir := by
  obtain ⟨owner, ownerLive, directory, rfl⟩ := live
  refine ⟨owner, (preserves.live_iff geometry sound owner).mpr ownerLive, ?_,
    preserves.start_eq ownerLive⟩
  rw [preserves.directory_eq ownerLive, directory]

theorem fullName_eq (entry : Fat32DirEntry) :
    entry.fullName = entry.fullNameUpper.map asciiLower := by
  rw [Fat32DirEntry.fullName, Fat32DirEntry.fullNameUpper]
  split
  · rw [List.map_append, List.map_cons]
    rfl
  · rw [List.append_nil, List.append_nil]

theorem mem_listing {positions : List Position} {info : DirEntryInfo}
    (listed : info ∈ volume.listing positions) :
    (info.name ≠ [0x2E] ∧ info.name ≠ [0x2E, 0x2E]) ∧
      ∃ position ∈ positions, Occupied (volume.entry position) ∧
        info = DirEntryInfo.ofEntry (volume.entry position) := by
  induction positions with
  | nil => cases listed
  | cons position rest ih =>
      have later : info ∈ volume.listing rest → (info.name ≠ [0x2E] ∧ info.name ≠ [0x2E, 0x2E]) ∧
          ∃ place ∈ position :: rest, Occupied (volume.entry place) ∧
            info = DirEntryInfo.ofEntry (volume.entry place) := by
        intro found
        obtain ⟨named, place, member, occupied, same⟩ := ih found
        exact ⟨named, place, List.mem_cons_of_mem _ member, occupied, same⟩
      simp only [listing] at listed
      split at listed
      · cases listed
      rename_i notEnd
      split at listed
      · exact later listed
      rename_i shown
      split at listed
      · exact later listed
      rename_i named
      rcases List.mem_cons.mp listed with rfl | found
      · simp only [Bool.or_eq_true, not_or, Bool.not_eq_true] at shown
        refine ⟨not_or.mp named, position, List.mem_cons_self, ?_, rfl⟩
        refine ⟨by simpa using notEnd, shown.1.1, shown.1.2, shown.2, fun dot => ?_⟩
        apply named
        simp only [DirEntryInfo.ofEntry, fullName_eq]
        rcases dot.2.2 with one | two
        · exact .inl (by rw [one]; rfl)
        · exact .inr (by rw [two]; rfl)
      · exact later found

theorem slotsOf_eq (geometry : fs.Geometry) {dir : Nat} {clusters : List Nat}
    (chain : volume.Chain fs dir clusters) : volume.slotsOf fs dir = fs.slots clusters := by
  rw [slotsOf, geometry.chainOf_eq chain, Fat32Fs.slots]

theorem slots_subset {clusters : List Nat} {position : Position}
    (member : position ∈ fs.slots clusters) : position ∈ fs.positions clusters := by
  obtain ⟨inside, bound⟩ := Fat32Fs.mem_positions.mp member
  exact Fat32Fs.mem_positions.mpr ⟨Chain.mem_visible inside, bound⟩

theorem LiveDir.slot (geometry : fs.Geometry) (sound : volume.Sound fs) {dir : Nat}
    (live : volume.LiveDir fs dir) {position : Position}
    (member : position ∈ volume.slotsOf fs dir) (occupied : Occupied (volume.entry position)) :
    volume.Live fs (.slot position) := by
  obtain ⟨_, clusters, chain⟩ := live.chain sound
  rw [slotsOf_eq geometry chain] at member
  obtain ⟨owner, ownerLive, directory, rfl⟩ := live
  exact .slot ownerLive directory chain (slots_subset member) occupied

theorem LiveDir.lookup (geometry : fs.Geometry) (sound : volume.Sound fs) {dir : Nat}
    (live : volume.LiveDir fs dir) {component : Path} {info : DirEntryInfo}
    (found : volume.lookup fs dir component = some info) :
    ∃ position ∈ volume.slotsOf fs dir, volume.Live fs (.slot position) ∧
      info = DirEntryInfo.ofEntry (volume.entry position) := by
  obtain ⟨_, position, member, occupied, same⟩ := mem_listing (List.mem_of_find?_eq_some found)
  exact ⟨position, member, live.slot geometry sound member occupied, same⟩

theorem LiveDir.down (geometry : fs.Geometry) (sound : volume.Sound fs) {dir : Nat}
    (live : volume.LiveDir fs dir) {component : Path} {info : DirEntryInfo}
    (found : volume.lookup fs dir component = some info) (directory : info.isDir = true) :
    volume.LiveDir fs info.cluster := by
  obtain ⟨position, _, slotLive, rfl⟩ := live.lookup geometry sound found
  exact ⟨.slot position, slotLive, directory, rfl⟩

theorem walk_liveDir (geometry : fs.Geometry) (sound : volume.Sound fs) {path : List Path}
    {current : Nat} (live : volume.LiveDir fs current)
    (proper : volume.throughDirs fs path current = true) {dir : Nat}
    (reached : volume.walk fs path current = .ok dir) : volume.LiveDir fs dir := by
  induction path generalizing current with
  | nil =>
      injection reached with same
      exact same ▸ live
  | cons component rest ih =>
      simp only [walk, throughDirs] at reached proper
      split at reached
      · rename_i stay
        rw [if_pos stay] at proper
        exact ih live proper reached
      rename_i named
      rw [if_neg named] at proper
      split at reached
      · rename_i up
        rw [if_pos up] at proper
        exact ih liveDir_root proper reached
      rename_i below
      rw [if_neg below] at proper
      cases found : volume.lookup fs current component with
      | none =>
          rw [found] at reached
          cases reached
      | some info =>
          rw [found] at reached proper
          rw [Bool.and_eq_true] at proper
          exact ih (live.down geometry sound found proper.1) proper.2 reached

end Walk

end Volume

/-- The file system is mounted with its own root directory. -/
structure Mounted (fs : Fat32Fs) (vfs : VfsManager) : Prop where
  fatFs : vfs.fatFs = some fs
  rootCluster : vfs.rootCluster = fs.bpb.rootCluster.toNat

namespace Mounted

variable {fs : Fat32Fs} {vfs : VfsManager} {volume : Volume} (mounted : Mounted fs vfs)
include mounted

theorem fs_runs : Runs fs vfs.fs volume (.ok fs) volume := by
  rw [VfsManager.fs, mounted.fatFs]
  exact Runs.pure _

theorem resolveComponents_runs (geometry : fs.Geometry) (sound : volume.Sound fs)
    {path : List Path} {current : Nat} (live : volume.LiveDir fs current)
    (proper : volume.throughDirs fs path current = true) :
    Runs fs (vfs.resolveComponents fs path current) volume (volume.walk fs path current)
      volume := by
  induction path generalizing current with
  | nil => exact Runs.pure _
  | cons component rest ih =>
      obtain ⟨_, clusters, chain⟩ := live.chain sound
      have listed : Runs fs ((fs.readDirEntries current).mapErr fun _ => VfsError.ioError) volume
          (.ok (volume.listing (volume.slotsOf fs current))) volume := by
        rw [Volume.slotsOf_eq geometry chain]
        exact Runs.mapErr (Fat32Fs.readDirEntries_runs geometry chain) _
      simp only [Volume.walk, Volume.throughDirs] at proper ⊢
      simp only [VfsManager.resolveComponents, VfsManager.resolveComponent]
      split
      · rename_i stay
        rw [if_pos stay] at proper
        exact Runs.bind (Runs.pure _) (ih live proper)
      rename_i named
      rw [if_neg named] at proper
      split
      · rename_i up
        rw [if_pos up] at proper
        split
        · rename_i atRoot
          rw [mounted.rootCluster] at atRoot
          rw [atRoot]
          exact Runs.bind (Runs.pure _) (ih Volume.liveDir_root proper)
        · refine Runs.bind (Runs.bind listed ?_) (ih Volume.liveDir_root proper)
          have absent : (volume.listing (volume.slotsOf fs current)).find?
              (fun entry => decide (entry.name = [0x2E, 0x2E])) = none := by
            rw [List.find?_eq_none]
            intro info member
            simpa using (Volume.mem_listing member).1.2
          rw [absent, mounted.rootCluster]
          exact Runs.pure _
      rename_i below
      rw [if_neg below] at proper
      cases found : volume.lookup fs current component with
      | none =>
          rw [Volume.lookup] at found
          refine Runs.bind_error (Runs.bind listed ?_) _
          rw [found]
          exact Runs.fail _
      | some info =>
          rw [found] at proper
          simp only [Bool.and_eq_true] at proper
          refine Runs.bind (Runs.bind listed ?_)
            (ih (live.down geometry sound found proper.1) proper.2)
          rw [Volume.lookup] at found
          rw [found]
          exact Runs.pure _

theorem resolvePath_runs (geometry : fs.Geometry) (sound : volume.Sound fs) {path : Path}
    (proper : volume.throughDirs fs (pathComponents path) fs.bpb.rootCluster.toNat = true) :
    Runs fs (vfs.resolvePath path) volume
      (volume.walk fs (pathComponents path) fs.bpb.rootCluster.toNat) volume := by
  refine Runs.bind mounted.fs_runs ?_
  simp only [pathComponents] at proper ⊢
  by_cases top : trimStart path = [] ∨ trimStart path = [0x2E]
  · simp only [if_pos top, mounted.rootCluster]
    exact Runs.pure _
  · simp only [if_neg top] at proper ⊢
    rw [mounted.rootCluster]
    exact mounted.resolveComponents_runs geometry sound Volume.liveDir_root proper

theorem resolveParent_runs (geometry : fs.Geometry) (sound : volume.Sound fs) {path : Path}
    (proper : volume.ProperPath fs path) :
    Runs fs (vfs.resolveParent path) volume
      ((volume.parentOf fs path).map fun dir => (dir, fileName path)) volume := by
  simp only [Volume.ProperPath, Volume.parentOf, parentComponents, fileName] at proper ⊢
  simp only [VfsManager.resolveParent]
  by_cases empty : trimStart path = []
  · have whole : rsplit ([] : Path) = none := rfl
    simp only [empty, if_true, whole, mounted.rootCluster]
    exact Runs.pure _
  · simp only [if_neg empty]
    cases split : rsplit (trimStart path) with
    | none =>
        simp only [mounted.rootCluster]
        exact Runs.pure _
    | some parts =>
        obtain ⟨parent, name⟩ := parts
        rw [split] at proper
        simp only at proper ⊢
        by_cases atRoot : parent = []
        · subst atRoot
          rw [if_pos rfl, mounted.rootCluster]
          exact Runs.pure _
        · rw [if_neg atRoot]
          have resolved := mounted.resolvePath_runs geometry sound proper
          cases reached : volume.walk fs (pathComponents parent) fs.bpb.rootCluster.toNat with
          | error reason =>
              rw [reached] at resolved
              exact Runs.bind_error resolved _
          | ok dir =>
              rw [reached] at resolved
              exact Runs.bind resolved (Runs.pure _)

end Mounted

end ArcadiaOs.Fs
