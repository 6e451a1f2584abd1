import ArcadiaOs.Fs.RelativePaths

/-!
The trails of the tree.  A walk from the root leads along a line of directories, each of them
listed in the one before, and in a sound volume a directory has one such line.
-/

namespace ArcadiaOs.Fs

open Lib

namespace Volume

/-- Directories up to the root, each of them listed in the next one. -/
inductive Lineage (fs : Fat32Fs) (volume : Volume) : List Nat → Prop
  | root : Lineage fs volume []
  | down {trail : List Nat} {component : Path} {info : DirEntryInfo} : Lineage fs volume trail →
      volume.lookup fs (trailEnd fs trail) component = some info → info.isDir = true →
      Lineage fs volume (info.cluster :: trail)

variable {fs : Fat32Fs} {volume : Volume}

theorem Lineage.tail {trail : List Nat} (lineage : volume.Lineage fs trail) :
    volume.Lineage fs trail.tail := by
  cases lineage with
  | root => exact .root
  | down upper _ _ => exact upper

section Sound

variable (geometry : fs.Geometry) (sound : volume.Sound fs)
include geometry sound

theorem Lineage.live {trail : List Nat} (lineage : volume.Lineage fs trail) :
    volume.LiveDir fs (trailEnd fs trail) := by
  induction lineage with
  | root => exact liveDir_root
  | down _ found directory ih => exact ih.down geometry sound found directory

theorem Lineage.not_root {trail : List Nat} (lineage : volume.Lineage fs trail) {component : Path}
    {info : DirEntryInfo} (found : volume.lookup fs (trailEnd fs trail) component = some info) :
    info.cluster ≠ fs.bpb.rootCluster.toNat := by
  obtain ⟨position, _, slotLive, rfl⟩ := (lineage.live geometry sound).lookup geometry sound found
  intro same
  have one := owner_unique sound .root slotLive rfl same.symm
  cases one

theorem Lineage.unique {trail other : List Nat} (left : volume.Lineage fs trail)
    (right : volume.Lineage fs other) (same : trailEnd fs trail = trailEnd fs other) :
    trail = other := by
  induction left generalizing other with
  | root =>
      cases right with
      | root => rfl
      | down upper found _ => exact absurd same.symm (upper.not_root geometry sound found)
  | down upper found directory ih =>
      cases right with
      | root => exact absurd same (upper.not_root geometry sound found)
      | down upperRight foundRight _ =>
          have live := upper.live geometry sound
          have liveRight := upperRight.live geometry sound
          obtain ⟨position, member, slotLive, rfl⟩ := live.lookup geometry sound found
          obtain ⟨place, memberRight, placeLive, rfl⟩ := liveRight.lookup geometry sound foundRight
          have one := owner_unique sound slotLive placeLive directory same
          injection one with one
          subst one
          rw [ih upperRight (live.of_slot geometry sound liveRight member memberRight)]

end Sound

theorem treeWalk_append (front back : List Path) (trail : List Nat) :
    volume.treeWalk fs (front ++ back) trail =
      (volume.treeWalk fs front trail).bind (volume.treeWalk fs back) := by
  induction front generalizing trail with
  | nil => rfl
  | cons component rest ih =>
      simp only [List.cons_append, treeWalk, ih]
      split
      · rfl
      split
      · rfl
      cases volume.lookup fs (trailEnd fs trail) component with
      | none => rfl
      | some info =>
          simp only
          split
          · rfl
          · rfl

theorem treeWalk_lineage {path : List Path} {trail trail' : List Nat}
    (lineage : volume.Lineage fs trail) (walked : volume.treeWalk fs path trail = some trail') :
    volume.Lineage fs trail' := by
  induction path generalizing trail with
  | nil =>
      injection walked with same
      exact same ▸ lineage
  | cons component rest ih =>
      simp only [treeWalk] at walked
      split at walked
      · exact ih lineage walked
      split at walked
      · exact ih lineage.tail walked
      · cases found : volume.lookup fs (trailEnd fs trail) component with
        | none =>
            rw [found] at walked
            cases walked
        | some info =>
            rw [found] at walked
            simp only at walked
            split at walked
            · rename_i directory
              exact ih (.down lineage found directory) walked
            · cases walked

theorem treeWalk_stay {component : Path} (stay : component = [] ∨ component = [0x2E])
    (rest : List Path) (trail : List Nat) :
    volume.treeWalk fs (component :: rest) trail = volume.treeWalk fs rest trail := by
  rw [treeWalk, if_pos stay]

theorem treeWalk_components (path : Path) (trail : List Nat) :
    volume.treeWalk fs (components path) trail = volume.treeWalk fs (pathComponents path) trail := by
  obtain ⟨stays, split, stay⟩ := components_stays path
  rw [split]
  clear split
  induction stays with
  | nil => rfl
  | cons component rest ih =>
      rw [List.cons_append, treeWalk_stay (stay component List.mem_cons_self)]
      exact ih fun other member => stay other (List.mem_cons_of_mem _ member)

theorem treeWalk_trailing (path : Path) (trail : List Nat) :
    volume.treeWalk fs (components (path ++ [slash])) trail =
      volume.treeWalk fs (components path) trail := by
  rw [components_trailing, treeWalk_append]
  cases volume.treeWalk fs (components path) trail with
  | none => rfl
  | some trail' => exact treeWalk_stay (.inl rfl) [] trail'

theorem treeWalk_extends {path : List Path} (names : up ∉ path) {trail trail' : List Nat}
    (walked : volume.treeWalk fs path trail = some trail') : ∃ below, trail' = below ++ trail := by
  induction path generalizing trail with
  | nil =>
      injection walked with same
      exact ⟨[], same.symm⟩
  | cons component rest ih =>
      have later : up ∉ rest := fun member => names (List.mem_cons_of_mem _ member)
      have other : component ≠ up := fun same => names (same ▸ List.mem_cons_self)
      simp only [treeWalk, if_neg other] at walked
      split at walked
      · exact ih later walked
      · split at walked
        · cases walked
        · split at walked
          · rename_i info _ _
            obtain ⟨below, rfl⟩ := ih later walked
            exact ⟨below ++ [info.cluster], by rw [List.append_assoc, List.singleton_append]⟩
          · cases walked

/-- A walk by names does not look into the directory it ends in, so it leads there whatever becomes
of that directory. -/
theorem treeWalk_undisturbed (geometry : fs.Geometry) (sound : volume.Sound fs) {volume' : Volume}
    {path : List Path} (names : up ∉ path) {trail trail' : List Nat}
    (lineage : volume.Lineage fs trail) (walked : volume.treeWalk fs path trail = some trail')
    (kept : ∀ other component, volume.LiveDir fs other → other ≠ trailEnd fs trail' →
      volume'.lookup fs other component = volume.lookup fs other component) :
    volume'.treeWalk fs path trail = some trail' := by
  induction path generalizing trail with
  | nil => exact walked
  | cons component rest ih =>
      have later : up ∉ rest := fun member => names (List.mem_cons_of_mem _ member)
      have other : component ≠ up := fun same => names (same ▸ List.mem_cons_self)
      simp only [treeWalk, if_neg other] at walked ⊢
      split
      · rename_i stay
        rw [if_pos stay] at walked
        exact ih later lineage walked
      rename_i down
      rw [if_neg down] at walked
      cases found : volume.lookup fs (trailEnd fs trail) component with
      | none =>
          rw [found] at walked
          cases walked
      | some info =>
          rw [found] at walked
          simp only at walked
          split at walked
          · rename_i directory
            have lineage' := treeWalk_lineage (.down lineage found directory) walked
            have apart : trailEnd fs trail ≠ trailEnd fs trail' := by
              intro same
              obtain ⟨below, rfl⟩ := treeWalk_extends later walked
              have looped := congrArg List.length (lineage.unique geometry sound lineage' same)
              simp only [List.length_append, List.length_cons] at looped
              omega
            rw [kept _ component (lineage.live geometry sound) apart, found]
            simp only [directory, if_true]
            exact ih later (.down lineage found directory) walked
          · cases walked

end Volume

end ArcadiaOs.Fs
