import ArcadiaOs.Fs.TreePaths

/-!
`stat`.  It resolves the text from the root directory and then looks the entry up behind the working
directory, so the two are the same path only for a text from the root or in the root directory.
-/

namespace ArcadiaOs.Fs

open Lib

/-- The working directory makes no difference to the text. -/
def Anchored (vfs : VfsManager) (path : Path) : Prop := path.head? = some slash ∨ vfs.cwd = [slash]

instance (vfs : VfsManager) (path : Path) : Decidable (Anchored vfs path) :=
  inferInstanceAs (Decidable (_ ∨ _))

theorem Anchored.trimmed {vfs : VfsManager} {path : Path} (anchored : Anchored vfs path) :
    trimStart (vfs.canonicalize path) = trimStart path := by
  rw [VfsManager.canonicalize]
  split
  · rfl
  · rename_i relative
    rcases anchored with rooted | root
    · exact absurd rooted relative
    · rw [root]
      exact trimStart_slash path

theorem Anchored.same {vfs : VfsManager} {path : Path} (anchored : Anchored vfs path) :
    parentComponents (vfs.canonicalize path) = parentComponents path ∧
      fileName (vfs.canonicalize path) = fileName path := by
  simp only [parentComponents, fileName, anchored.trimmed, and_self]

theorem Anchored.keys {vfs : VfsManager} {path : Path} (anchored : Anchored vfs path) :
    keys (vfs.canonicalize path) = keys path := by
  rw [Fs.keys, pathComponents, anchored.trimmed]
  rfl

theorem downward_iff {path : Path} : Downward path ↔ up ∉ pathComponents path := by
  obtain ⟨stays, split, stay⟩ := components_stays path
  rw [Downward, split, List.mem_append, not_or, and_iff_right]
  intro member
  rcases stay up member with same | same <;> exact absurd same (by decide)

namespace Volume

variable (fs : Fat32Fs) (volume : Volume)

def statAt (vfs : VfsManager) (path : Path) : Except VfsError VfsNode :=
  match volume.walk fs (pathComponents path) fs.bpb.rootCluster.toNat with
  | .error reason => .error reason
  | .ok cluster =>
      let pathClean := vfs.canonicalize path
      match volume.parentOf fs pathClean with
      | .error reason => .error reason
      | .ok dir =>
          if fileName pathClean = [] then .ok ⟨pathClean, true, 0, cluster⟩
          else
            match volume.findIn fs dir pathClean with
            | none => .error .notFound
            | some position =>
                let entry := volume.entry position
                .ok ⟨pathClean, entry.isDirectory, entry.fileSize.toNat, entry.firstCluster⟩

variable {fs volume}

theorem walk_append (front back : List Path) (current : Nat) :
    volume.walk fs (front ++ back) current =
      match volume.walk fs front current with
      | .error reason => .error reason
      | .ok middle => volume.walk fs back middle := by
  induction front generalizing current with
  | nil => rfl
  | cons component rest ih =>
      simp only [List.cons_append, walk, ih]
      split
      · rfl
      · split
        · rfl
        · cases volume.lookup fs current component <;> rfl

theorem walk_components (path : Path) (current : Nat) :
    volume.walk fs (components path) current = volume.walk fs (pathComponents path) current := by
  obtain ⟨stays, split, stay⟩ := components_stays path
  rw [split]
  clear split
  induction stays with
  | nil => rfl
  | cons component rest ih =>
      rw [List.cons_append, walk, if_pos (stay component List.mem_cons_self)]
      exact ih fun other member => stay other (List.mem_cons_of_mem _ member)

theorem walk_named {path : Path} (named : EndsInName path) :
    volume.walk fs (pathComponents path) fs.bpb.rootCluster.toNat =
      match volume.parentOf fs path with
      | .error reason => .error reason
      | .ok dir =>
          match volume.lookup fs dir (fileName path) with
          | none => .error .notFound
          | some info => .ok info.cluster := by
  have last (dir : Nat) : volume.walk fs [fileName path] dir =
      match volume.lookup fs dir (fileName path) with
      | none => .error .notFound
      | some info => .ok info.cluster := by
    rw [walk, if_neg (not_or.mpr ⟨named.1, fun dot => named.2 (.inl dot)⟩),
      if_neg fun dots => named.2 (.inr dots)]
    rfl
  rw [← pathComponents_trim, ← walk_components, parentOf]
  rcases parent_split path with ⟨none, single⟩ | ⟨front, parent, split⟩
  · rw [single, none]
    exact last _
  · rw [split, walk_append, walk_components, parent]
    simp only [last]

theorem Located.anchored {vfs : VfsManager} {path : Path} (located : volume.Located fs path)
    (anchored : Anchored vfs path) : volume.Located fs (vfs.canonicalize path) := by
  refine ⟨?_, ?_, ?_⟩
  · rw [downward_iff, pathComponents, anchored.trimmed]
    exact downward_iff.mp located.down
  · rw [EndsInName, anchored.same.2]
    exact located.named
  · rw [parentKeys, anchored.same.1]
    exact located.through

/-- `stat` finds something at the path from the root, and answers for what stands at the path behind
the working directory. -/
theorem statAt_tree (geometry : fs.Geometry) (formed : WellFormed fs volume) {vfs : VfsManager}
    {path : Path} (located : volume.Located fs path)
    (clean : volume.Located fs (vfs.canonicalize path)) :
    (((volume.tree fs).node (keys path) = none ∨
        (volume.tree fs).node (keys (vfs.canonicalize path)) = none) ∧
      volume.statAt fs vfs path = .error .notFound) ∨
    ∃ node info, (volume.tree fs).node (keys path) ≠ none ∧
      (volume.tree fs).node (keys (vfs.canonicalize path)) = some node ∧
      volume.statAt fs vfs path = .ok info ∧ (info.isDir = true ↔ node = .directory) := by
  have parent := parentOf_tree geometry formed clean.down (clean.proper geometry formed)
  simp only [statAt, parent]
  rw [walk_named located.named, node_named located.named, node_named clean.named,
    parentOf_tree geometry formed located.down (located.proper geometry formed)]
  cases led : volume.dirAt fs (parentKeys path) fs.bpb.rootCluster.toNat with
  | none => exact .inl ⟨.inl rfl, rfl⟩
  | some dir =>
      have live := liveDir_root.dirAt geometry formed.sound led
      simp only [Option.bind_some, lookup_child geometry formed live located.named.2]
      cases volume.child fs dir (toUpper83 (fileName path)) with
      | none => exact .inl ⟨.inl rfl, rfl⟩
      | some first =>
          cases volume.dirAt fs (parentKeys (vfs.canonicalize path)) fs.bpb.rootCluster.toNat with
          | none => exact .inl ⟨.inr rfl, rfl⟩
          | some other =>
              simp only [Option.bind_some, Option.map_some, ← findIn_child clean.named,
                if_neg clean.named.1]
              cases volume.findIn fs other (vfs.canonicalize path) with
              | none => exact .inl ⟨.inr rfl, rfl⟩
              | some position =>
                  refine .inr ⟨_, _, Option.some_ne_none _, rfl, rfl, ?_⟩
                  rw [recorded_eq]
                  cases (volume.entry position).isDirectory <;> simp

end Volume

section Driver

variable {fs : Fat32Fs} (geometry : fs.Geometry) {vfs : VfsManager} (mounted : Mounted fs vfs)
  {volume : Volume} (sound : volume.Sound fs)
include geometry mounted sound

theorem Mounted.resolvePath_named_runs {path : Path} (proper : volume.ProperPath fs path)
    (named : EndsInName path) : Runs fs (vfs.resolvePath path) volume
      (volume.walk fs (pathComponents path) fs.bpb.rootCluster.toNat) volume := by
  intro device healthy holds
  rw [mounted.resolvePath_parent, mounted.rootCluster, Volume.walk_named named, Volume.parentOf]
  have parent := mounted.resolveComponents_runs geometry sound Volume.liveDir_root proper
  cases reached : volume.walk fs (parentComponents path) fs.bpb.rootCluster.toNat with
  | error reason =>
      rw [reached] at parent
      exact Runs.bind_error parent _ device healthy holds
  | ok dir =>
      rw [reached] at parent
      have live := Volume.walk_liveDir geometry sound Volume.liveDir_root proper reached
      obtain ⟨_, clusters, chain⟩ := live.chain sound
      refine Runs.bind parent ?_ device healthy holds
      rw [VfsManager.resolveComponent,
        if_neg (not_or.mpr ⟨named.1, fun dot => named.2 (.inl dot)⟩),
        if_neg fun dots => named.2 (.inr dots)]
      have listed : Runs fs ((fs.readDirEntries dir).mapErr fun _ => VfsError.ioError) volume
          (.ok (volume.listing (volume.slotsOf fs dir))) volume := by
        rw [Volume.slotsOf_eq geometry chain]
        exact Runs.mapErr (Fat32Fs.readDirEntries_runs geometry chain) _
      refine Runs.bind listed ?_
      simp only [Volume.lookup]
      cases (volume.listing (volume.slotsOf fs dir)).find? fun info =>
          decide (toUpper83 info.name = toUpper83 (fileName path)) with
      | none => exact Runs.fail _
      | some info => exact Runs.pure _

theorem Mounted.stat_runs {path : Path} (proper : volume.ProperPath fs path)
    (named : EndsInName path) (properClean : volume.ProperPath fs (vfs.canonicalize path))
    (namedClean : EndsInName (vfs.canonicalize path)) :
    Runs fs (vfs.stat path) volume (volume.statAt fs vfs path) volume := by
  have resolved := mounted.resolvePath_named_runs geometry sound proper named
  have unnamed := namedClean.1
  refine Runs.bind mounted.fs_runs ?_
  rw [Volume.statAt]
  cases reached : volume.walk fs (pathComponents path) fs.bpb.rootCluster.toNat with
  | error reason =>
      rw [reached] at resolved
      exact Runs.bind_error resolved _
  | ok cluster =>
      rw [reached] at resolved
      refine Runs.bind resolved ?_
      have parent := mounted.resolveParent_runs geometry sound properClean
      simp only [if_neg unnamed]
      cases led : volume.parentOf fs (vfs.canonicalize path) with
      | error reason =>
          rw [led] at parent
          exact Runs.bind_error parent _
      | ok dir =>
          rw [led] at parent
          refine Runs.bind parent ?_
          simp only [if_neg unnamed]
          have live := Mounted.parent_live geometry sound properClean led
          refine Runs.bind (Mounted.findEntry_runs geometry sound live _) ?_
          cases volume.findIn fs dir (vfs.canonicalize path) with
          | none => exact Runs.fail _
          | some position => exact Runs.pure _

end Driver

end ArcadiaOs.Fs
