import ArcadiaOs.Fs.MakeDirectory
import ArcadiaOs.Fs.RoundTrip
import ArcadiaOs.Fs.TreePaths

/-!
Edits of the file tree.  A call that changes what one directory has under one name, and no other
directory and no other file, changes the tree at one path: no directory is reached by two.
-/

namespace ArcadiaOs.Fs

open Lib

namespace Volume

/-- The directories have what they had, and the files hold what they held, but for the names that may
have changed. -/
structure SameBut (fs : Fat32Fs) (volume volume' : Volume) (changed : Nat → Path → Prop) : Prop where
  child : ∀ dir name, volume.LiveDir fs dir → ¬changed dir name →
    volume'.child fs dir name = volume.child fs dir name
  bytes : ∀ dir name entry, volume.LiveDir fs dir → ¬changed dir name →
    volume.child fs dir name = some entry → entry.isDirectory = false →
    volume'.bytesOf entry = volume.bytesOf entry

variable {fs : Fat32Fs} {volume volume' : Volume} {changed : Nat → Path → Prop}

section Frame

variable (same : volume.SameBut fs volume' changed) (geometry : fs.Geometry)
  (sound : volume.Sound fs)
include same geometry sound

theorem SameBut.kept {path : List Path} {dir : Nat} (live : volume.LiveDir fs dir)
    (avoids : ∀ front name back other, path = front ++ name :: back →
      volume.dirAt fs front dir = some other → ¬changed other name) :
    volume'.nodeAt fs path dir = volume.nodeAt fs path dir ∧
      volume'.dirAt fs path dir = volume.dirAt fs path dir := by
  induction path generalizing dir with
  | nil => exact ⟨rfl, rfl⟩
  | cons name rest ih =>
      have unchanged := avoids [] name rest dir rfl rfl
      simp only [nodeAt, dirAt, same.child dir name live unchanged]
      cases found : volume.child fs dir name with
      | none => exact ⟨rfl, rfl⟩
      | some entry =>
          cases directory : entry.isDirectory with
          | true =>
              simp only [directory, if_true]
              refine ih (live.childDir geometry sound found directory) ?_
              intro front key back other split led
              refine avoids (name :: front) key back other (by rw [split]; rfl) ?_
              simp only [dirAt, found, directory, if_true, led]
          | false =>
              simp only [directory, Bool.false_eq_true, if_false, and_true]
              rw [same.bytes dir name entry live unchanged found directory]

theorem SameBut.tree_eq (none : ∀ dir name, ¬changed dir name) :
    volume'.tree fs = volume.tree fs := by
  refine FileTree.ext (funext fun path => ?_)
  exact (same.kept geometry sound liveDir_root fun _ name _ other _ _ => none other name).1

end Frame

def Only (dir : Nat) (name : Path) : Nat → Path → Prop :=
  fun other key => other = dir ∧ key = name

section Turn

variable {dir : Nat} {name : Path} (same : volume.SameBut fs volume' (Only dir name))
  (geometry : fs.Geometry) (sound : volume.Sound fs) {path : List Path}
  (led : volume.dirAt fs path fs.bpb.rootCluster.toNat = some dir)
  (leaf : ∀ entry, volume.child fs dir name = some entry → entry.isDirectory = false)
include same geometry sound led leaf

theorem SameBut.leads : volume'.dirAt fs path fs.bpb.rootCluster.toNat = some dir := by
  rw [(same.kept geometry sound liveDir_root ?_).2, led]
  rintro front key back other rfl led' ⟨rfl, rfl⟩
  rw [dirAt_below led', dirAt] at led
  cases found : volume.child fs other key with
  | none =>
      rw [found] at led
      cases led
  | some entry =>
      simp only [found, leaf entry found, Bool.false_eq_true, if_false] at led
      cases led

theorem SameBut.turns
    (empty : ∀ entry, volume'.child fs dir name = some entry → entry.isDirectory = true →
      ∀ key, volume'.child fs entry.firstCluster key = none) :
    (volume.tree fs).Turns (volume'.tree fs) (path ++ [name])
      ((volume'.child fs dir name).map volume'.recorded) := by
  have led' := same.leads geometry sound led leaf
  refine ⟨(nodeAt_below led' _).trans (nodeAt_child dir name), fun other apart => ?_⟩
  by_cases through : ∃ back, other = path ++ name :: back
  · -- nothing stood behind the name, and nothing does
    obtain ⟨back, rfl⟩ := through
    have proper : back ≠ [] := by
      rintro rfl
      exact apart rfl
    obtain ⟨key, rest, rfl⟩ := List.exists_cons_of_ne_nil proper
    have before : volume.nodeAt fs (name :: key :: rest) dir = none := by
      rw [nodeAt]
      cases found : volume.child fs dir name with
      | none => rfl
      | some entry => simp [leaf entry found]
    have after : volume'.nodeAt fs (name :: key :: rest) dir = none := by
      rw [nodeAt]
      cases found : volume'.child fs dir name with
      | none => rfl
      | some entry =>
          cases directory : entry.isDirectory with
          | true => simp [directory, nodeAt, empty entry found directory key]
          | false => simp [directory]
    exact (nodeAt_below led' _).trans (after.trans (before.symm.trans (nodeAt_below led _).symm))
  · refine (same.kept geometry sound liveDir_root ?_).1
    rintro front key back reached rfl led'' ⟨rfl, rfl⟩
    rw [dirAt_unique geometry sound led'' led] at through
    exact through ⟨back, rfl⟩

end Turn

/-! What a change around one directory keeps. -/

/-- Whatever starts elsewhere is kept, but for the chains of some regular files. -/
structure Around (fs : Fat32Fs) (volume volume' : Volume) (dir : Nat) (own : Owner → Prop) :
    Prop where
  kept : ∀ owner clusters, volume.Live fs owner → volume.start fs owner ≠ dir → ¬own owner →
    volume.Owns fs owner clusters → ∀ cluster ∈ clusters, volume.Kept volume' cluster
  regular : ∀ owner, own owner → volume.directory owner = false

theorem child_kept (geometry : fs.Geometry) {dir : Nat} {clusters : List Nat}
    (chain : volume.Chain fs dir clusters)
    (kept : ∀ cluster ∈ clusters, volume.Kept volume' cluster) (name : Path) :
    volume'.child fs dir name = volume.child fs dir name := by
  have entries : (fs.slots clusters).map volume'.entry = (fs.slots clusters).map volume.entry := by
    refine List.map_congr_left fun position member => ?_
    exact (kept position.1 (Fat32Fs.mem_positions.mp (slots_subset member)).1).entry
  rw [child, child, slotsOf_eq geometry (chain.kept kept), slotsOf_eq geometry chain, find_live,
    find_live, entries]

theorem sameBut_of_kept (geometry : fs.Geometry) (sound : volume.Sound fs)
    (kept : ∀ cluster, volume.Claimed fs cluster → volume.Kept volume' cluster) :
    volume.SameBut fs volume' fun _ _ => False := by
  constructor
  · intro dir name live _
    obtain ⟨_, clusters, chain⟩ := live.chain sound
    exact child_kept geometry chain (fun cluster member => kept cluster (live.claimed chain member))
      name
  · intro dir name entry live _ found _
    obtain ⟨position, _, slotLive, rfl, _⟩ := live.child geometry sound found
    obtain ⟨clusters, owned⟩ := sound.owns _ slotLive
    exact bytesOf_kept geometry owned fun cluster member =>
      kept cluster ⟨_, clusters, slotLive, owned, member⟩

theorem wellFormed_of_kept (geometry : fs.Geometry) (formed : WellFormed fs volume)
    (kept : ∀ cluster, volume.Claimed fs cluster → volume.Kept volume' cluster) :
    WellFormed fs volume' := by
  have sound := formed.sound
  have preserves : volume.Preserves fs volume' := Preserves.of_agree kept
  have owns {owner : Owner} {clusters : List Nat} (live' : volume'.Live fs owner)
      (owned : volume'.Owns fs owner clusters) : volume.Live fs owner ∧
        volume.Owns fs owner clusters := by
    have live := (preserves.live_iff geometry sound owner).mp live'
    exact ⟨live, (preserves.owns_iff geometry sound live).mp owned⟩
  refine ⟨⟨preserves.sound geometry sound, ?_⟩, fun owner clusters live' owned => ?_⟩
  · rintro dir clusters ⟨owner, live', directory, rfl⟩ chain
    obtain ⟨live, owned⟩ := owns live' chain
    rw [preserves.directory_eq live] at directory
    rw [slotEntries_kept fun cluster member => kept cluster ⟨owner, clusters, live, owned, member⟩]
    exact formed.inOrder _ clusters ⟨owner, live, directory, rfl⟩ owned
  · obtain ⟨live, before⟩ := owns live' owned
    exact formed.short owner clusters live before

namespace Around

variable {dir : Nat} {own : Owner → Prop} (around : volume.Around fs volume' dir own)
  (geometry : fs.Geometry)
include around geometry

theorem child (sound : volume.Sound fs) {other : Nat} (live : volume.LiveDir fs other)
    (apart : other ≠ dir) (name : Path) :
    volume'.child fs other name = volume.child fs other name := by
  obtain ⟨owner, ownerLive, directory, rfl⟩ := live
  obtain ⟨clusters, owned⟩ := sound.owns owner ownerLive
  refine child_kept geometry owned (around.kept owner clusters ownerLive apart ?_ owned) name
  intro mine
  exact Bool.false_ne_true ((around.regular owner mine).symm.trans directory)

theorem sameBut (sound : volume.Sound fs) (dirLive : volume.LiveDir fs dir) {name : Path}
    (here : ∀ key, key ≠ name → volume'.child fs dir key = volume.child fs dir key)
    (mine : ∀ position, own (.slot position) → position ∈ volume.slotsOf fs dir ∧
      (volume.entry position).fullNameUpper = name) : volume.SameBut fs volume' (Only dir name) := by
  constructor
  · intro other key live unchanged
    by_cases same : other = dir
    · subst same
      exact here key fun same => unchanged ⟨rfl, same⟩
    · exact around.child geometry sound live same key
  · intro other key entry live unchanged found regular
    obtain ⟨position, member, slotLive, rfl, rfl⟩ := live.child geometry sound found
    obtain ⟨clusters, owned⟩ := sound.owns _ slotLive
    refine bytesOf_kept geometry owned (around.kept _ clusters slotLive ?_ ?_ owned)
    · obtain ⟨owner, ownerLive, directory, start⟩ := dirLive
      intro same
      obtain rfl := owner_unique sound ownerLive slotLive directory (start.trans same.symm)
      exact Bool.false_ne_true (regular.symm.trans directory)
    · intro own
      obtain ⟨inside, named⟩ := mine position own
      exact unchanged ⟨live.of_slot geometry sound dirLive member inside, named⟩

/-- The volume stays well-formed when no directory is new, every new chain is short, and the
directory is in order. -/
theorem wellFormed (formed : WellFormed fs volume) (sound' : volume'.Sound fs)
    (old : ∀ owner, volume'.Live fs owner →
      (volume'.directory owner = false ∧
        ∀ clusters, volume'.Owns fs owner clusters → clusters.length ≤ Fat32Fs.maxChain) ∨
      volume.Live fs owner ∧ ¬own owner ∧ volume'.start fs owner = volume.start fs owner ∧
        volume'.directory owner = volume.directory owner)
    (here : ∀ clusters, volume'.Chain fs dir clusters →
      InOrder (volume'.slotEntries fs clusters) ∧ clusters.length ≤ Fat32Fs.maxChain) :
    WellFormed fs volume' := by
  have kept {owner : Owner} {clusters : List Nat} (live : volume.Live fs owner) (other : ¬own owner)
      (apart : volume.start fs owner ≠ dir)
      (chain : volume'.Chain fs (volume.start fs owner) clusters) : volume.Owns fs owner clusters ∧
        volume'.slotEntries fs clusters = volume.slotEntries fs clusters := by
    obtain ⟨held, owned⟩ := formed.sound.owns owner live
    have same := around.kept owner held live apart other owned
    obtain rfl := chain.unique geometry (Chain.kept owned same)
    exact ⟨owned, slotEntries_kept same⟩
  refine ⟨⟨sound', ?_⟩, fun owner clusters live' owned => ?_⟩
  · rintro _ clusters ⟨owner, live', directory, rfl⟩ chain
    rcases old owner live' with ⟨regular, _⟩ | ⟨live, other, start, kind⟩
    · exact absurd (regular.symm.trans directory) Bool.false_ne_true
    · rw [start] at chain
      by_cases same : volume.start fs owner = dir
      · exact (here clusters (same ▸ chain)).1
      · obtain ⟨before, slots⟩ := kept live other same chain
        rw [slots]
        exact formed.inOrder _ clusters ⟨owner, live, kind ▸ directory, rfl⟩ before
  · rcases old owner live' with ⟨_, short⟩ | ⟨live, other, start, _⟩
    · exact short clusters owned
    · rw [Owns, start] at owned
      by_cases same : volume.start fs owner = dir
      · exact (here clusters (same ▸ owned)).2
      · exact formed.short owner clusters live (kept live other same owned).1

end Around

end Volume

end ArcadiaOs.Fs
