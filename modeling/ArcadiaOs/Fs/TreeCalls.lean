import ArcadiaOs.Fs.Stat
import ArcadiaOs.Fs.TreeReplacement

/-!
The calls as requests to the file tree.  A path without `..` that goes through directories names one
place of the tree, and each call answers for that place and changes no other.
-/

namespace ArcadiaOs.Fs

open Lib

abbrev Tree := FileTree Path (List UInt8)

abbrev TreeRequest := Request Path (List UInt8)

abbrev TreeReply := Lib.Reply Path (List UInt8) VfsError

def Orphan (tree : Tree) (path : List Path) : Prop :=
  ∃ front name, path = front ++ [name] ∧ tree.node front = none

/-- What has to hold of the tree for a request to fail for a reason.  The tree does not say how much
space there is. -/
def Explains (tree : Tree) : TreeRequest → VfsError → Prop
  | .ask path, .notFound | .read path, .notFound | .list path, .notFound => tree.node path = none
  | .read path, .notAFile | .store path _, .notAFile => tree.node path = some .directory
  | .store path _, .notFound | .make path, .notFound | .remove path, .notFound => Orphan tree path
  | .make path, .alreadyExists => tree.node path ≠ none
  | .remove path, .ioError => tree.node path = none
  | .store _ _, .noSpace | .store _ _, .ioError | .make _, .noSpace | .make _, .ioError => True
  | _, _ => False

def replyOf : Except VfsError Unit → TreeReply
  | .ok _ => .done
  | .error reason => .refused reason

theorem explains_read {tree : Tree} {path : List Path} {reason : VfsError} {content : List UInt8}
    (explained : Explains tree (.read path) reason) : tree.node path ≠ some (.file content) := by
  intro found
  cases reason with
  | notFound => exact nomatch found.symm.trans explained
  | notAFile => exact nomatch found.symm.trans explained
  | _ => exact explained

namespace Volume

variable {fs : Fat32Fs} {volume : Volume}

structure Served (fs : Fat32Fs) (volume : Volume) (request : TreeRequest)
    (effect : Except VfsError Unit × Volume) : Prop where
  formed : WellFormed fs effect.2
  served : FileTree.Serves Explains (volume.tree fs) request (replyOf effect.1) (effect.2.tree fs)

theorem sparesDots_of_named {path : Path} (named : EndsInName path) :
    volume.SparesDots fs path := by
  intro _ _ _ found dot
  have key := (find_spec found).2.2.2.2.2
  exact absurd ((toUpper83_dots _).mp (key ▸ dot.2.2)) named.2

section Calls

variable (geometry : fs.Geometry) (formed : WellFormed fs volume)
include formed

theorem Served.kept {request : TreeRequest} {reason : VfsError}
    (explained : Explains (volume.tree fs) request reason) :
    volume.Served fs request (.error reason, volume) :=
  ⟨formed, .refused explained⟩

include geometry

theorem Refuses.served {request : TreeRequest} {effect : Except VfsError Unit × Volume}
    (refuses : volume.Refuses fs effect)
    (explained : ∀ reason, reason = .noSpace ∨ reason = .ioError →
      Explains (volume.tree fs) request reason) : volume.Served fs request effect := by
  have same := refuses.same.tree_eq geometry formed.sound fun _ _ => not_false
  obtain ⟨reason, answer, short⟩ : ∃ reason, effect.1 = .error reason ∧
      (reason = .noSpace ∨ reason = .ioError) := by
    rcases refuses.answer with answer | answer
    · exact ⟨_, answer, .inl rfl⟩
    · exact ⟨_, answer, .inr rfl⟩
  refine ⟨refuses.formed, ?_⟩
  rw [same, answer]
  exact .refused (explained reason short)

variable {path : Path} (located : volume.Located fs path)

section Named

include located

theorem parent_cases : (∃ dir, volume.Targets fs path dir ∧
      volume.dirAt fs (parentKeys path) fs.bpb.rootCluster.toNat = some dir) ∨
    volume.parentOf fs path = .error .notFound ∧ Orphan (volume.tree fs) (keys path) := by
  have proper := located.proper geometry formed
  have parent := parentOf_tree geometry formed located.down proper
  cases led : volume.dirAt fs (parentKeys path) fs.bpb.rootCluster.toNat with
  | some dir =>
      rw [led] at parent
      exact .inl ⟨dir, ⟨proper, parent, located.named.1⟩, rfl⟩
  | none =>
      rw [led] at parent
      exact .inr ⟨parent, parentKeys path, _, located.named.keys, node_lost located.through led⟩

omit geometry formed

theorem node_found {dir : Nat}
    (led : volume.dirAt fs (parentKeys path) fs.bpb.rootCluster.toNat = some dir) :
    (volume.tree fs).node (keys path) =
      ((volume.findIn fs dir path).map volume.entry).map volume.recorded := by
  rw [node_named located.named, led, Option.bind_some, findIn_child located.named]

include geometry formed

theorem Puts.served {request : TreeRequest} {effect : Except VfsError Unit × Volume} {dir : Nat}
    {node : Option (Node (List UInt8))}
    (led : volume.dirAt fs (parentKeys path) fs.bpb.rootCluster.toNat = some dir)
    (leaf : (volume.tree fs).node (keys path) ≠ some .directory)
    (puts : volume.Puts fs effect dir (toUpper83 (fileName path)) node)
    (allowed : ∀ tree' : Tree, (volume.tree fs).Turns tree' (keys path) node →
      FileTree.Serves Explains (volume.tree fs) request .done tree') :
    volume.Served fs request effect := by
  have regular : ∀ entry, volume.child fs dir (toUpper83 (fileName path)) = some entry →
      entry.isDirectory = false := by
    intro entry found
    by_contra directory
    refine leaf ?_
    rw [node_named located.named, led, Option.bind_some, found, Option.map_some, recorded,
      if_pos (Bool.not_eq_false _ ▸ directory)]
  have turns := puts.same.turns geometry formed.sound led regular puts.empty
  rw [puts.here, ← located.named.keys] at turns
  refine ⟨puts.formed, ?_⟩
  rw [puts.answer]
  exact allowed _ turns

end Named

variable (shaped : volume.Shaped fs) (valid : Valid83 (fileName path))
  (roomy : ∀ dir, volume.parentOf fs path = .ok dir → volume.Roomy fs dir)

omit formed in
theorem one_cluster {data : List UInt8} (fits : data.length ≤ fs.bpb.clusterSizeBytes) :
    data.length < 2 ^ 32 ∧ Survives fs data ∧ demand fs data = 1 := by
  have size := geometry.clusterSize
  have sectors := fs.bpb.sectorsPerCluster.toNat_lt
  have needed : fs.clustersNeeded data ≤ 1 := Fat32Fs.needed_of_length geometry (by omega)
  refine ⟨?_, .inl (by omega), if_pos needed⟩
  rw [size] at fits
  omega

include located shaped

omit shaped in
theorem file_found {content : List UInt8}
    (file : (volume.tree fs).node (keys path) = some (.file content)) :
    ∃ dir position, volume.Targets fs path dir ∧
      volume.dirAt fs (parentKeys path) fs.bpb.rootCluster.toNat = some dir ∧
      volume.findIn fs dir path = some position ∧
      (volume.entry position).isDirectory = false := by
  rcases parent_cases geometry formed located with ⟨dir, targets, led⟩ | ⟨_, front, name, same, lost⟩
  · have node := node_found located led
    rw [file] at node
    cases found : volume.findIn fs dir path with
    | none =>
        rw [found] at node
        cases node
    | some position =>
        rw [found, Option.map_some, Option.map_some, Option.some.injEq] at node
        rcases recorded_eq.mp node.symm with ⟨_, kind⟩ | ⟨regular, _⟩
        · cases kind
        · exact ⟨dir, position, targets, led, found, regular⟩
  · have present : (volume.tree fs).node (front ++ [name]) ≠ none := by
      rw [← same, file]
      exact Option.some_ne_none _
    cases lost.symm.trans ((volume.tree fs).closed front name present)

theorem createFile_over_served {content data : List UInt8}
    (file : (volume.tree fs).node (keys path) = some (.file content))
    (fits : data.length ≤ fs.bpb.clusterSizeBytes) :
    volume.Served fs (.store (keys path) data) (volume.createFile fs path data) := by
  obtain ⟨bound, survives, one⟩ := one_cluster geometry fits
  obtain ⟨dir, position, targets, led, found, regular⟩ := file_found geometry formed located file
  have leaf : (volume.tree fs).node (keys path) ≠ some .directory := by
    rw [file]
    exact fun same => nomatch same
  rcases createFile_over_effect geometry shaped formed targets located.named found regular bound
    survives one with refuses | puts
  · refine refuses.served geometry formed fun reason short => ?_
    rcases short with rfl | rfl <;> exact trivial
  · exact puts.served geometry formed located led leaf fun _ turns => .stored leaf turns

include valid roomy

/-- `create_file` with data for one cluster at most stores it, or refuses with a reason. -/
theorem createFile_served {data : List UInt8} (fits : data.length ≤ fs.bpb.clusterSizeBytes) :
    volume.Served fs (.store (keys path) data) (volume.createFile fs path data) := by
  rcases parent_cases geometry formed located with ⟨dir, targets, led⟩ | ⟨missing, orphan⟩
  · have node := node_found located led
    cases found : volume.findIn fs dir path with
    | none =>
        obtain ⟨bound, survives, _⟩ := one_cluster geometry fits
        rw [found] at node
        have leaf : (volume.tree fs).node (keys path) ≠ some .directory := by
          rw [node]
          exact fun same => nomatch same
        rcases createFile_new_effect geometry shaped formed targets valid found
          (roomy dir targets.parent) bound survives with refuses | puts
        · refine refuses.served geometry formed fun reason short => ?_
          rcases short with rfl | rfl <;> exact trivial
        · exact puts.served geometry formed located led leaf fun _ turns => .stored leaf turns
    | some position =>
        rw [found, Option.map_some, Option.map_some, recorded] at node
        cases directory : (volume.entry position).isDirectory with
        | true =>
            rw [if_pos directory] at node
            have answer : volume.createFile fs path data = (.error .notAFile, volume) := by
              simp only [createFile, targets.parent, if_neg targets.named, found, if_pos directory]
            rw [answer]
            exact .kept formed node
        | false =>
            rw [if_neg (by rw [directory]; exact Bool.false_ne_true)] at node
            exact createFile_over_served geometry formed located shaped node fits
  · have answer : volume.createFile fs path data = (.error .notFound, volume) := by
      simp only [createFile, missing]
    rw [answer]
    exact .kept formed orphan

theorem mkdir_served : volume.Served fs (.make (keys path)) (volume.mkdir fs path) := by
  rcases parent_cases geometry formed located with ⟨dir, targets, led⟩ |
    ⟨missing, orphan⟩
  · have node := node_found located led
    cases found : volume.findIn fs dir path with
    | none =>
        rw [found] at node
        have leaf : (volume.tree fs).node (keys path) ≠ some .directory := by
          rw [node]
          exact fun same => nomatch same
        rcases mkdir_effect geometry shaped formed targets valid found
          (roomy dir targets.parent) with refuses | puts
        · refine refuses.served geometry formed fun reason short => ?_
          rcases short with rfl | rfl <;> exact trivial
        · exact puts.served geometry formed located led leaf fun _ turns => .made node turns
    | some position =>
        rw [found] at node
        have answer : volume.mkdir fs path = (.error .alreadyExists, volume) := by
          simp only [mkdir, targets.parent, if_neg targets.named, found]
        rw [answer]
        refine .kept formed fun absent => ?_
        cases node.symm.trans absent
  · have answer : volume.mkdir fs path = (.error .notFound, volume) := by
      simp only [mkdir, missing]
    rw [answer]
    exact .kept formed orphan

omit valid roomy

theorem delete_served (leaf : (volume.tree fs).node (keys path) ≠ some .directory) :
    volume.Served fs (.remove (keys path)) (volume.delete fs path) := by
  rcases parent_cases geometry formed located with ⟨dir, targets, led⟩ |
    ⟨missing, orphan⟩
  · have node := node_found located led
    cases found : volume.findIn fs dir path with
    | none =>
        rw [found] at node
        have answer : volume.delete fs path = (.error .ioError, volume) := by
          simp only [delete, targets.parent, if_neg targets.named, found]
        rw [answer]
        exact .kept formed node
    | some position =>
        rw [found, Option.map_some, Option.map_some, recorded] at node
        have regular : (volume.entry position).isDirectory = false := by
          by_contra directory
          rw [if_pos (Bool.not_eq_false _ ▸ directory)] at node
          exact leaf node
        rw [if_neg (by rw [regular]; exact Bool.false_ne_true)] at node
        have puts := delete_effect geometry shaped formed targets located.named found regular
        exact puts.served geometry formed located led leaf fun _ turns => .removed node turns
  · have answer : volume.delete fs path = (.error .notFound, volume) := by
      simp only [delete, missing]
    rw [answer]
    exact .kept formed orphan

end Calls

end Volume

end ArcadiaOs.Fs
