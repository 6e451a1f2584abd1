import ArcadiaOs.Fs.WellFormed
import ArcadiaOs.Lib.FileTree
import Mathlib.Data.List.Induction

/-!
A volume as a file tree.  What stands at a path is told by the first entries that the lookups of its
names find; on a well-formed volume the walk of a path goes where its names lead, and no directory
is reached by two paths.
-/

namespace ArcadiaOs.Fs

open Lib

namespace Volume

section Tree

variable (fs : Fat32Fs) (volume : Volume)

/-- The entry that a directory has under a name, the dots aside. -/
def child (dir : Nat) (name : Path) : Option Fat32DirEntry :=
  if IsDotName name then none
  else (volume.find name (volume.slotsOf fs dir)).map volume.entry

def recorded (entry : Fat32DirEntry) : Node (List UInt8) :=
  if entry.isDirectory then .directory else .file (volume.bytesOf entry)

/-- What stands at a path below a directory. -/
def nodeAt : List Path → Nat → Option (Node (List UInt8))
  | [], _ => some .directory
  | name :: rest, dir =>
      match volume.child fs dir name with
      | none => none
      | some entry =>
          if entry.isDirectory then nodeAt rest entry.firstCluster
          else if rest = [] then some (.file (volume.bytesOf entry)) else none

def dirAt : List Path → Nat → Option Nat
  | [], dir => some dir
  | name :: rest, dir =>
      match volume.child fs dir name with
      | none => none
      | some entry => if entry.isDirectory then dirAt rest entry.firstCluster else none

end Tree

variable {fs : Fat32Fs} {volume volume' : Volume}

theorem nodeAt_below {front : List Path} {dir target : Nat}
    (led : volume.dirAt fs front dir = some target) (rest : List Path) :
    volume.nodeAt fs (front ++ rest) dir = volume.nodeAt fs rest target := by
  induction front generalizing dir with
  | nil => rw [List.nil_append, Option.some.inj led]
  | cons name front ih =>
      simp only [dirAt, List.cons_append, nodeAt] at led ⊢
      cases found : volume.child fs dir name with
      | none =>
          rw [found] at led
          cases led
      | some entry =>
          simp only [found] at led ⊢
          split at led
          · rename_i directory
            rw [if_pos directory]
            exact ih led
          · cases led

theorem dirAt_below {front : List Path} {dir target : Nat}
    (led : volume.dirAt fs front dir = some target) (rest : List Path) :
    volume.dirAt fs (front ++ rest) dir = volume.dirAt fs rest target := by
  induction front generalizing dir with
  | nil => rw [List.nil_append, Option.some.inj led]
  | cons name front ih =>
      simp only [dirAt, List.cons_append] at led ⊢
      cases found : volume.child fs dir name with
      | none =>
          rw [found] at led
          cases led
      | some entry =>
          simp only [found] at led ⊢
          split at led
          · rename_i directory
            rw [if_pos directory]
            exact ih led
          · cases led

theorem nodeAt_directory {path : List Path} {dir : Nat} :
    volume.nodeAt fs path dir = some .directory ↔ ∃ target, volume.dirAt fs path dir = some target := by
  induction path generalizing dir with
  | nil => exact iff_of_true rfl ⟨dir, rfl⟩
  | cons name rest ih =>
      simp only [nodeAt, dirAt]
      cases volume.child fs dir name with
      | none => simp
      | some entry =>
          simp only
          split
          · exact ih
          · split <;> simp

theorem nodeAt_child (dir : Nat) (name : Path) :
    volume.nodeAt fs [name] dir = (volume.child fs dir name).map volume.recorded := by
  simp only [nodeAt]
  cases volume.child fs dir name with
  | none => rfl
  | some entry =>
      simp only [Option.map_some, recorded]
      split <;> rfl

theorem nodeAt_closed {path : List Path} {name : Path} {dir : Nat}
    (present : volume.nodeAt fs (path ++ [name]) dir ≠ none) :
    volume.nodeAt fs path dir = some .directory := by
  induction path generalizing dir with
  | nil => rfl
  | cons first rest ih =>
      simp only [List.cons_append, nodeAt] at present ⊢
      cases found : volume.child fs dir first with
      | none =>
          rw [found] at present
          exact absurd rfl present
      | some entry =>
          simp only [found] at present ⊢
          split at present
          · rename_i directory
            rw [if_pos directory]
            exact ih present
          · rw [if_neg (List.append_ne_nil_of_right_ne_nil _ (List.cons_ne_nil _ _))] at present
            exact absurd rfl present

/-- The file tree of a volume. -/
def tree (fs : Fat32Fs) (volume : Volume) : FileTree Path (List UInt8) where
  node path := volume.nodeAt fs path fs.bpb.rootCluster.toNat
  root := rfl
  closed _ _ present := nodeAt_closed present

theorem dirAt_last {path : List Path} {name : Path} {target : Nat}
    (led : volume.dirAt fs (path ++ [name]) fs.bpb.rootCluster.toNat = some target) :
    ∃ dir entry, volume.dirAt fs path fs.bpb.rootCluster.toNat = some dir ∧
      volume.child fs dir name = some entry ∧ entry.isDirectory = true ∧
      entry.firstCluster = target := by
  have present : volume.nodeAt fs (path ++ [name]) fs.bpb.rootCluster.toNat ≠ none := by
    rw [nodeAt_directory.mpr ⟨target, led⟩]
    exact Option.some_ne_none _
  obtain ⟨dir, led'⟩ := nodeAt_directory.mp (nodeAt_closed present)
  rw [dirAt_below led', Volume.dirAt] at led
  cases found : volume.child fs dir name with
  | none =>
      rw [found] at led
      cases led
  | some entry =>
      simp only [found] at led
      split at led
      · rename_i directory
        exact ⟨dir, entry, led', found, directory, Option.some.inj led⟩
      · cases led

/-! The entries behind the names. -/

theorem child_slot {dir : Nat} {name : Path} {entry : Fat32DirEntry}
    (found : volume.child fs dir name = some entry) : ¬IsDotName name ∧
      ∃ position ∈ volume.slotsOf fs dir,
        volume.find name (volume.slotsOf fs dir) = some position ∧
        volume.entry position = entry ∧ Occupied entry ∧ entry.fullNameUpper = name := by
  rw [child] at found
  split at found
  · cases found
  rename_i named
  obtain ⟨position, search, rfl⟩ := Option.map_eq_some_iff.mp found
  obtain ⟨front, back, split, _, taken⟩ :=
    (scan_taken_iff _ _).mp (find_eq_some.mp search)
  have member : position ∈ volume.slotsOf fs dir := by
    rw [split]
    exact List.mem_append_right _ List.mem_cons_self
  obtain ⟨notEnd, shown⟩ := take_name taken
  rw [judgeName_shown name notEnd shown] at taken
  have named' : (volume.entry position).fullNameUpper = name := by
    by_contra other
    rw [if_neg other] at taken
    cases taken
  simp only [Fat32DirEntry.isHidden, Bool.or_eq_false_iff] at shown
  refine ⟨named, position, member, search, rfl, ⟨notEnd, shown.1.1, shown.1.2, shown.2, ?_⟩, named'⟩
  exact fun dot => named (named' ▸ dot.2.2)

section Sound

variable (geometry : fs.Geometry) (sound : volume.Sound fs)
include geometry sound

theorem LiveDir.child {dir : Nat} (live : volume.LiveDir fs dir) {name : Path}
    {entry : Fat32DirEntry} (found : volume.child fs dir name = some entry) :
    ∃ position ∈ volume.slotsOf fs dir, volume.Live fs (.slot position) ∧
      volume.entry position = entry ∧ entry.fullNameUpper = name := by
  obtain ⟨_, position, member, _, rfl, occupied, named⟩ := child_slot found
  exact ⟨position, member, live.slot geometry sound member occupied, rfl, named⟩

theorem LiveDir.childDir {dir : Nat} (live : volume.LiveDir fs dir) {name : Path}
    {entry : Fat32DirEntry} (found : volume.child fs dir name = some entry)
    (directory : entry.isDirectory = true) : volume.LiveDir fs entry.firstCluster := by
  obtain ⟨position, _, slotLive, rfl, _⟩ := live.child geometry sound found
  exact ⟨.slot position, slotLive, directory, rfl⟩

theorem LiveDir.dirAt {path : List Path} {dir target : Nat} (live : volume.LiveDir fs dir)
    (led : volume.dirAt fs path dir = some target) : volume.LiveDir fs target := by
  induction path generalizing dir with
  | nil => exact Option.some.inj led ▸ live
  | cons name rest ih =>
      simp only [Volume.dirAt] at led
      cases found : volume.child fs dir name with
      | none =>
          rw [found] at led
          cases led
      | some entry =>
          simp only [found] at led
          split at led
          · rename_i directory
            exact ih (live.childDir geometry sound found directory) led
          · cases led

theorem dirAt_not_root {path : List Path} {name : Path} :
    volume.dirAt fs (path ++ [name]) fs.bpb.rootCluster.toNat ≠ some fs.bpb.rootCluster.toNat := by
  intro led
  obtain ⟨dir, entry, led', found, directory, same⟩ := dirAt_last led
  have live := liveDir_root.dirAt geometry sound led'
  obtain ⟨position, _, slotLive, rfl, _⟩ := live.child geometry sound found
  cases owner_unique sound .root slotLive rfl same.symm

theorem dirAt_unique {path other : List Path} {target : Nat}
    (led : volume.dirAt fs path fs.bpb.rootCluster.toNat = some target)
    (otherLed : volume.dirAt fs other fs.bpb.rootCluster.toNat = some target) : path = other := by
  induction path using List.reverseRecOn generalizing other target with
  | nil =>
      obtain rfl := Option.some.inj led
      rcases List.eq_nil_or_concat other with rfl | ⟨front, name, rfl⟩
      · rfl
      · rw [List.concat_eq_append] at otherLed
        exact absurd otherLed (dirAt_not_root geometry sound)
  | append_singleton path name ih =>
      rcases List.eq_nil_or_concat other with rfl | ⟨front, last, rfl⟩
      · obtain rfl := Option.some.inj otherLed
        exact absurd led (dirAt_not_root geometry sound)
      · rw [List.concat_eq_append] at otherLed ⊢
        obtain ⟨dir, entry, led', found, directory, start⟩ := dirAt_last led
        obtain ⟨dirRight, entryRight, ledRight, foundRight, _, startRight⟩ :=
          dirAt_last otherLed
        have live := liveDir_root.dirAt geometry sound led'
        have liveRight := liveDir_root.dirAt geometry sound ledRight
        obtain ⟨position, member, slotLive, rfl, rfl⟩ := live.child geometry sound found
        obtain ⟨place, memberRight, placeLive, rfl, rfl⟩ :=
          liveRight.child geometry sound foundRight
        have one := owner_unique sound slotLive placeLive directory (start.trans startRight.symm)
        injection one with one
        subst one
        obtain rfl := live.of_slot geometry sound liveRight member memberRight
        rw [ih led' ledRight]

end Sound

end Volume

end ArcadiaOs.Fs
