import ArcadiaOs.Fs.Lineage

/-!
Paths that the driver resolves as the tree has them.  Behind every `..` the driver is in the
root, so the tree walk has to be there too behind the last one.
-/

namespace ArcadiaOs.Fs

open Lib

/-- What the names below a directory lead to. -/
inductive Trace
  | missing
  | reached (cluster : Nat)
  | behindFile

namespace Volume

/-- The names followed through directories.  Behind a regular file no name is followed. -/
def trace (fs : Fat32Fs) (volume : Volume) : List Path → Nat → Trace
  | [], current => .reached current
  | component :: rest, current =>
      if component = [] ∨ component = [0x2E] then trace fs volume rest current
      else
        match volume.lookup fs current component with
        | none => .missing
        | some info =>
            if info.isDir then trace fs volume rest info.cluster
            else if ∀ later ∈ rest, later = [] ∨ later = [0x2E] then .reached info.cluster
            else .behindFile

/-- The trail on which the tree walk stands behind the last `..`. -/
def lastTrail (fs : Fat32Fs) (volume : Volume) : List (List Path) → List Nat → Option (List Nat)
  | [], trail => some trail
  | [_], trail => some trail
  | run :: later, trail =>
      match volume.treeWalk fs run trail with
      | none => none
      | some stop => lastTrail fs volume later stop.tail

/-- Behind the last `..` the tree walk stands in the root, and the names in front of each `..` are
there from the root on. -/
structure FromRoot (fs : Fat32Fs) (volume : Volume) (path : List Path) : Prop where
  stands : volume.lastTrail fs (runs path) [] = some []
  present : ∀ run ∈ (runs path).dropLast,
    ∃ cluster, volume.trace fs run fs.bpb.rootCluster.toNat = .reached cluster

variable {fs : Fat32Fs} {volume : Volume}

theorem treeWalk_stays {rest : List Path} (stays : ∀ later ∈ rest, later = [] ∨ later = [0x2E])
    (trail : List Nat) : volume.treeWalk fs rest trail = some trail := by
  induction rest with
  | nil => rfl
  | cons component rest ih =>
      rw [treeWalk_stay (stays component List.mem_cons_self)]
      exact ih fun later member => stays later (List.mem_cons_of_mem _ member)

theorem trace_treeWalk {names : List Path} (plain : up ∉ names) {trail trail' : List Nat}
    (walked : volume.treeWalk fs names trail = some trail') :
    volume.trace fs names (trailEnd fs trail) = .reached (trailEnd fs trail') := by
  induction names generalizing trail with
  | nil =>
      injection walked with same
      rw [same]
      rfl
  | cons component rest ih =>
      have later : up ∉ rest := fun member => plain (List.mem_cons_of_mem _ member)
      have other : component ≠ up := fun same => plain (same ▸ List.mem_cons_self)
      simp only [treeWalk, trace, if_neg other] at walked ⊢
      split
      · rename_i stay
        rw [if_pos stay] at walked
        exact ih later walked
      rename_i named
      rw [if_neg named] at walked
      cases found : volume.lookup fs (trailEnd fs trail) component with
      | none => simp [found] at walked
      | some info =>
          cases directory : info.isDir with
          | false => simp [found, directory] at walked
          | true =>
              simp only [found, directory, if_true] at walked ⊢
              exact ih later walked

/-- From different directories the same names lead to different clusters, when from one of them
they lead to a directory. -/
theorem trace_apart (geometry : fs.Geometry) (sound : volume.Sound fs) {names : List Path}
    (plain : up ∉ names) {trail trail' : List Nat} {right : Nat} (line : volume.Lineage fs trail)
    (live : volume.LiveDir fs right) (walked : volume.treeWalk fs names trail = some trail')
    (traced : volume.trace fs names right = .reached (trailEnd fs trail')) :
    trailEnd fs trail = right := by
  induction names generalizing trail right with
  | nil =>
      injection walked with same
      injection traced with reached
      rw [same, reached]
  | cons component rest ih =>
      have later : up ∉ rest := fun member => plain (List.mem_cons_of_mem _ member)
      have other : component ≠ up := fun same => plain (same ▸ List.mem_cons_self)
      simp only [treeWalk, trace, if_neg other] at walked traced
      by_cases stay : component = [] ∨ component = [0x2E]
      · simp only [if_pos stay] at walked traced
        exact ih later line live walked traced
      simp only [if_neg stay] at walked traced
      cases found : volume.lookup fs (trailEnd fs trail) component with
      | none => simp [found] at walked
      | some info =>
          cases foundRight : volume.lookup fs right component with
          | none => simp [foundRight] at traced
          | some infoRight =>
              cases directory : info.isDir with
              | false => simp [found, directory] at walked
              | true =>
                  simp only [found, foundRight, directory, if_true] at walked traced
                  have below : volume.Lineage fs (info.cluster :: trail) :=
                    .down line found directory
                  have same : info.cluster = infoRight.cluster := by
                    cases directoryRight : infoRight.isDir with
                    | true =>
                        rw [directoryRight, if_pos rfl] at traced
                        exact ih later below (live.down geometry sound foundRight directoryRight)
                          walked traced
                    | false =>
                        rw [directoryRight, if_neg Bool.false_ne_true] at traced
                        split at traced
                        · rename_i stays
                          rw [treeWalk_stays stays, Option.some.injEq] at walked
                          injection traced with reached
                          rw [reached, ← walked]
                          rfl
                        · cases traced
                  have upper := line.live geometry sound
                  obtain ⟨position, member, slotLive, rfl⟩ := upper.lookup geometry sound found
                  obtain ⟨place, memberRight, placeLive, rfl⟩ :=
                    live.lookup geometry sound foundRight
                  have one := owner_unique sound slotLive placeLive directory same
                  injection one with one
                  subst one
                  exact upper.of_slot geometry sound live member memberRight

end Volume

theorem runs_cases (path : List Path) : up ∉ path ∧ runs path = [path] ∨
    ∃ first rest, up ∉ first ∧ path = first ++ up :: rest ∧ runs path = first :: runs rest := by
  induction path with
  | nil => exact .inl ⟨List.not_mem_nil, rfl⟩
  | cons component rest ih =>
      by_cases upward : component = up
      · subst upward
        exact .inr ⟨[], rest, List.not_mem_nil, rfl, runs_up rest⟩
      have absent {names : List Path} (plain : up ∉ names) : up ∉ component :: names := by
        intro member
        rcases List.mem_cons.mp member with same | inside
        · exact upward same.symm
        · exact plain inside
      rcases ih with ⟨plain, single⟩ | ⟨first, back, plain, whole, split⟩
      · exact .inl ⟨absent plain, runs_other upward single⟩
      · refine .inr ⟨component :: first, back, absent plain, ?_, runs_other upward split⟩
        rw [whole]
        rfl

theorem up_absent {path run : List Path} (member : run ∈ runs path) : up ∉ run := by
  induction size : path.length using Nat.strong_induction_on generalizing path with
  | _ length ih =>
      rcases runs_cases path with ⟨plain, single⟩ | ⟨first, rest, plain, rfl, split⟩
      · rw [single, List.mem_singleton] at member
        exact member ▸ plain
      · rw [split] at member
        rcases List.mem_cons.mp member with rfl | inside
        · exact plain
        · refine ih rest.length ?_ inside rfl
          rw [← size, List.length_append, List.length_cons]
          omega

section Follow

variable {fs : Fat32Fs} (geometry : fs.Geometry) {vfs : VfsManager} (mounted : Mounted fs vfs)
  {device : Device} (healthy : device.Healthy) (sound : (fs.view device).Sound fs)
include geometry healthy sound

omit sound in
theorem resolveComponent_lookup {current : Nat} {clusters : List Nat}
    (chain : (fs.view device).Chain fs current clusters) {component : Path}
    (named : ¬(component = [] ∨ component = [0x2E])) (other : component ≠ up) :
    vfs.resolveComponent fs component current device =
      match (fs.view device).lookup fs current component with
      | some info => .ok info.cluster device
      | none => .error (.error .notFound) device := by
  rw [VfsManager.resolveComponent, if_neg named, if_neg (show ¬component = [0x2E, 0x2E] from other),
    Disk.bind_ok (readDirEntries_answers geometry healthy chain), Volume.lookup]
  cases ((fs.view device).listing ((fs.view device).slotsOf fs current)).find? _ <;> rfl

omit geometry healthy sound in
theorem follows_stays {rest : List Path} (stays : ∀ later ∈ rest, later = [] ∨ later = [0x2E])
    {current target : Nat} : Follows fs vfs device current rest target ↔ current = target := by
  induction rest with
  | nil =>
      simp only [Follows, VfsManager.resolveComponents]
      constructor
      · rintro ⟨⟩
        rfl
      · rintro rfl
        rfl
  | cons component rest ih =>
      rw [Follows, resolve_stay (stays component List.mem_cons_self)]
      exact ih fun later member => stays later (List.mem_cons_of_mem _ member)

theorem follows_iff_trace {names : List Path} (plain : up ∉ names) {current : Nat}
    (live : (fs.view device).LiveDir fs current)
    (clear : (fs.view device).trace fs names current ≠ .behindFile) (target : Nat) :
    Follows fs vfs device current names target ↔
      (fs.view device).trace fs names current = .reached target := by
  induction names generalizing current with
  | nil =>
      rw [follows_stays (by simp), Volume.trace, Trace.reached.injEq]
  | cons component rest ih =>
      have later : up ∉ rest := fun member => plain (List.mem_cons_of_mem _ member)
      have other : component ≠ up := fun same => plain (same ▸ List.mem_cons_self)
      simp only [Volume.trace] at clear ⊢
      by_cases stay : component = [] ∨ component = [0x2E]
      · simp only [if_pos stay] at clear ⊢
        rw [Follows, resolve_stay stay]
        exact ih later live clear
      simp only [if_neg stay] at clear ⊢
      obtain ⟨_, clusters, chain⟩ := live.chain sound
      rw [follows_cons, resolveComponent_lookup geometry healthy chain stay other]
      cases found : (fs.view device).lookup fs current component with
      | none => simp
      | some info =>
          simp only [found] at clear
          simp only [EStateM.Result.ok.injEq, and_true, exists_eq_left']
          cases directory : info.isDir with
          | true =>
              simp only [directory, if_true] at clear ⊢
              exact ih later (live.down geometry sound found directory) clear
          | false =>
              simp only [directory, Bool.false_eq_true, if_false] at clear ⊢
              by_cases stays : ∀ later ∈ rest, later = [] ∨ later = [0x2E]
              · rw [if_pos stays, follows_stays stays, Trace.reached.injEq]
              · exact absurd (if_neg stays) clear

include mounted

theorem follows_of_treeWalk {names : List Path} (plain : up ∉ names) {trail : List Nat}
    (walked : (fs.view device).treeWalk fs names [] = some trail) :
    Follows fs vfs device vfs.rootCluster names (trailEnd fs trail) := by
  have traced := Volume.trace_treeWalk plain walked
  rw [mounted.rootCluster]
  refine (follows_iff_trace geometry healthy sound plain Volume.liveDir_root ?_ _).mpr traced
  rw [show trailEnd fs [] = fs.bpb.rootCluster.toNat from rfl] at traced
  rw [traced]
  nofun

/-- Standing in the root behind the last `..`, the tree walk ends where the driver does. -/
theorem retraced_of_stands (path : List Path) {trail trail' : List Nat}
    (walked : (fs.view device).treeWalk fs path trail = some trail')
    (stands : (fs.view device).lastTrail fs (runs path) trail = some [])
    (present : ∀ run ∈ (runs path).dropLast,
      ∃ cluster, Follows fs vfs device vfs.rootCluster run cluster) :
    Retraced fs vfs device (trailEnd fs trail') vfs.rootCluster (runs path) := by
  induction size : path.length using Nat.strong_induction_on generalizing path trail with
  | _ length ih =>
      rcases runs_cases path with ⟨plain, single⟩ | ⟨first, rest, plain, rfl, split⟩
      · rw [single] at stands ⊢
        injection stands with root
        subst root
        exact follows_of_treeWalk geometry mounted healthy sound plain walked
      · obtain ⟨second, others, later⟩ := List.exists_cons_of_ne_nil (runs_ne_nil rest)
        rw [Volume.treeWalk_append, Option.bind_eq_some_iff] at walked
        obtain ⟨stop, walkedFirst, walkedRest⟩ := walked
        rw [split, later] at stands present ⊢
        simp only [Volume.lastTrail, walkedFirst] at stands
        rw [List.dropLast_cons_of_ne_nil (by simp)] at present
        refine ⟨present first List.mem_cons_self, ?_⟩
        rw [← later] at stands present ⊢
        refine ih rest.length ?_ rest ?_ stands ?_ rfl
        · rw [← size, List.length_append, List.length_cons]
          omega
        · exact walkedRest
        · exact fun run member => present run (List.mem_cons_of_mem _ member)

/-- Where the driver ends with the tree walk, that stands in the root behind the last `..`. -/
theorem stands_of_retraced (path : List Path) {trail trail' : List Nat}
    (line : (fs.view device).Lineage fs trail)
    (walked : (fs.view device).treeWalk fs path trail = some trail')
    (clear : ∀ run ∈ runs path,
      (fs.view device).trace fs run fs.bpb.rootCluster.toNat ≠ .behindFile)
    (retraced : Retraced fs vfs device (trailEnd fs trail') vfs.rootCluster (runs path)) :
    (fs.view device).lastTrail fs (runs path) trail = some [] ∧
      ∀ run ∈ (runs path).dropLast,
        ∃ cluster, (fs.view device).trace fs run fs.bpb.rootCluster.toNat = .reached cluster := by
  have traces {run : List Path} (plain : up ∉ run)
      (clear : (fs.view device).trace fs run fs.bpb.rootCluster.toNat ≠ .behindFile) (target : Nat)
      (followed : Follows fs vfs device vfs.rootCluster run target) :
      (fs.view device).trace fs run fs.bpb.rootCluster.toNat = .reached target := by
    rw [mounted.rootCluster] at followed
    exact (follows_iff_trace geometry healthy sound plain Volume.liveDir_root clear _).mp followed
  induction size : path.length using Nat.strong_induction_on generalizing path trail with
  | _ length ih =>
      rcases runs_cases path with ⟨plain, single⟩ | ⟨first, rest, plain, rfl, split⟩
      · rw [single] at clear retraced ⊢
        have traced := traces plain (clear path List.mem_cons_self) _ retraced
        have root := Volume.trace_apart geometry sound plain line Volume.liveDir_root walked traced
        rw [line.unique geometry sound .root root]
        exact ⟨rfl, nofun⟩
      · obtain ⟨second, others, later⟩ := List.exists_cons_of_ne_nil (runs_ne_nil rest)
        rw [Volume.treeWalk_append, Option.bind_eq_some_iff] at walked
        obtain ⟨stop, walkedFirst, walkedRest⟩ := walked
        rw [split, later] at clear retraced ⊢
        obtain ⟨⟨next, followed⟩, onward⟩ := retraced
        rw [← later] at onward
        obtain ⟨stands, present⟩ := ih rest.length
          (by rw [← size, List.length_append, List.length_cons]; omega) rest
          (Volume.treeWalk_lineage line walkedFirst).tail walkedRest
          (fun run member => clear run (List.mem_cons_of_mem _ (later ▸ member))) onward rfl
        simp only [Volume.lastTrail, walkedFirst, List.dropLast_cons_of_ne_nil (List.cons_ne_nil _ _)]
        rw [← later]
        refine ⟨stands, fun run member => ?_⟩
        rcases List.mem_cons.mp member with rfl | inside
        · exact ⟨next, traces plain (clear run List.mem_cons_self) next followed⟩
        · exact present run inside

end Follow

/-- `resolve_path` follows the tree when the tree walk stands in the root behind the last `..` and
the names in front of each `..` are there from the root on.  It follows it on no other path, unless
names go on behind a regular file. -/
theorem resolve_path_tree_iff {fs : Fat32Fs} (geometry : fs.Geometry) {vfs : VfsManager}
    (mounted : Mounted fs vfs) {device : Device} (healthy : device.Healthy)
    (sound : (fs.view device).Sound fs) {path : Path} {trail : List Nat}
    (walked : (fs.view device).treeWalk fs (pathComponents path) [] = some trail) :
    ((fs.view device).FromRoot fs (pathComponents path) →
      vfs.resolvePath path device = .ok (trailEnd fs trail) device) ∧
    ((∀ run ∈ runs (pathComponents path),
        (fs.view device).trace fs run fs.bpb.rootCluster.toNat ≠ .behindFile) →
      (vfs.resolvePath path device = .ok (trailEnd fs trail) device ↔
        (fs.view device).FromRoot fs (pathComponents path))) := by
  have resolves : vfs.resolvePath path device = .ok (trailEnd fs trail) device ↔
      Retraced fs vfs device (trailEnd fs trail) vfs.rootCluster (runs (pathComponents path)) := by
    rw [mounted.resolvePath_eq]
    exact follows_iff geometry healthy _ _ _
  have enough (fromRoot : (fs.view device).FromRoot fs (pathComponents path)) :
      vfs.resolvePath path device = .ok (trailEnd fs trail) device := by
    refine resolves.mpr (retraced_of_stands geometry mounted healthy sound _ walked fromRoot.stands
      fun run member => ?_)
    obtain ⟨cluster, traced⟩ := fromRoot.present run member
    have plain : up ∉ run := up_absent (List.dropLast_subset _ member)
    rw [mounted.rootCluster]
    refine ⟨cluster, (follows_iff_trace geometry healthy sound plain Volume.liveDir_root ?_ _).mpr
      traced⟩
    rw [traced]
    nofun
  refine ⟨enough, fun clear => ⟨fun resolved => ?_, enough⟩⟩
  obtain ⟨stands, present⟩ := stands_of_retraced geometry mounted healthy sound _ .root walked clear
    (resolves.mp resolved)
  exact ⟨stands, present⟩

/-- `/A/../A/B` resolves to the directory the tree walk ends in. -/
theorem resolve_path_tree_nested :
    nestedSession.vfs.resolvePath [0x2F, 0x41, 0x2F, 0x2E, 0x2E, 0x2F, 0x41, 0x2F, 0x42]
      nestedSession.device = .ok (trailEnd smallFs [4, 3]) nestedSession.device := by
  obtain ⟨⟨mounted, healthy, sound⟩, _, holds⟩ := nested_ready
  have components : pathComponents [0x2F, 0x41, 0x2F, 0x2E, 0x2E, 0x2F, 0x41, 0x2F, 0x42] =
      [[0x41], up, [0x41], [0x42]] := by decide
  have split : runs [[0x41], up, [0x41], [0x42]] = [[[0x41]], [[0x41], [0x42]]] := by decide
  have first : nestedVolume.trace smallFs [[0x41]] smallFs.bpb.rootCluster.toNat =
      .reached 3 := by rfl
  have second : nestedVolume.trace smallFs [[0x41], [0x42]] smallFs.bpb.rootCluster.toNat =
      .reached 4 := by rfl
  refine ((resolve_path_tree_iff smallFs_geometry mounted healthy sound ?_).2 ?_).mpr ?_
  · rw [holds, components]
    decide
  · rw [holds, components, split]
    simp [first, second]
  · rw [holds, components]
    refine ⟨by decide, ?_⟩
    rw [split]
    simp [first]

/-- `/A/B/..` is the directory `/A` at cluster 3, and resolves to the root at cluster 2. -/
theorem dotdot_resolves_to_root :
    nestedVolume.treeWalk smallFs (pathComponents [0x2F, 0x41, 0x2F, 0x42, 0x2F, 0x2E, 0x2E]) [] =
        some [3] ∧
      smallFs.view nestedSession.device = nestedVolume ∧
      nestedSession.vfs.resolvePath [0x2F, 0x41, 0x2F, 0x42, 0x2F, 0x2E, 0x2E]
        nestedSession.device = .ok 2 nestedSession.device := by
  obtain ⟨⟨mounted, healthy, sound⟩, _, holds⟩ := nested_ready
  refine ⟨by decide, holds, ?_⟩
  have rooted : nestedSession.vfs.rootCluster = 2 := mounted.rootCluster
  have walked : nestedVolume.treeWalk smallFs [[0x41], [0x42]] [] = some [4, 3] := by decide
  rw [← holds] at walked
  have first : up ∉ [[0x41], [(0x42 : UInt8)]] := by decide
  have split : runs (pathComponents [0x2F, 0x41, 0x2F, 0x42, 0x2F, 0x2E, 0x2E]) =
      [[[0x41], [0x42]], []] := by decide
  rw [mounted.resolvePath_eq]
  refine (follows_iff smallFs_geometry healthy _ _ _).mpr ?_
  rw [split]
  refine ⟨⟨_, follows_of_treeWalk smallFs_geometry mounted healthy sound first walked⟩, ?_⟩
  rw [Retraced, Follows, rooted]
  rfl

end ArcadiaOs.Fs
