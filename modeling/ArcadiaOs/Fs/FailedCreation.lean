import ArcadiaOs.Fs.Bystanders
import ArcadiaOs.Fs.WellFormed

/-!
Creations that fail.  Clusters are taken one after the other and none is given back, so a call that
fails leaves the volume alone only when there was nothing to take.
-/

namespace ArcadiaOs.Fs

open Lib

namespace Volume

/-- The clusters are there, and one more for a full directory, or there is none at all. -/
def AllOrNone (fs : Fat32Fs) (volume : Volume) (dir count : Nat) : Prop :=
  volume.freeCount fs = 0 ∨ count + volume.slotDemand fs dir ≤ volume.freeCount fs

/-- The clusters are there once the chain of the old file is freed, or there is none at all; or the
only one is that of the old file, which reads as zeros. -/
def Replaceable (fs : Fat32Fs) (volume : Volume) (position : Position) (data : List UInt8) : Prop :=
  let entry := volume.entry position
  let freed := volume.freeCount fs + (volume.chainOf entry.firstCluster).length
  demand fs data ≤ freed ∨ freed = 0 ∨
    volume.freeCount fs = 0 ∧ ∀ byte ∈ volume.bytesOf entry, byte = 0

/-- The directories, what paths through them read, and the free clusters are as before. -/
structure SameTree (fs : Fat32Fs) (volume volume' : Volume) : Prop where
  dirs : volume.KeepsDirs fs volume'
  reads : ∀ path, volume.ProperPath fs path →
    volume'.readContent fs path = volume.readContent fs path
  free : volume'.freeSet fs = volume.freeSet fs

variable {fs : Fat32Fs} {volume volume' : Volume}

theorem SameTree.refl (fs : Fat32Fs) (volume : Volume) : volume.SameTree fs volume :=
  ⟨fun _ _ _ _ _ _ => ⟨rfl, rfl⟩, fun _ _ => rfl, rfl⟩

theorem error_ne_ok {reason : VfsError} : Except.error reason ≠ Except.ok () := nofun

theorem freeSet_ne {taken : Nat} (less : volume'.freeCount fs + taken = volume.freeCount fs)
    (some : 1 ≤ taken) : volume'.freeSet fs ≠ volume.freeSet fs := by
  intro same
  rw [freeCount, freeCount, same] at less
  omega

theorem bytesOf_reserve (geometry : fs.Geometry) {entry : Fat32DirEntry}
    (valid : fs.Valid entry.firstCluster) :
    (volume.reserve fs entry.firstCluster).bytesOf entry = zeros entry.fileSize.toNat := by
  have chain : (volume.reserve fs entry.firstCluster).Chain fs entry.firstCluster
      [entry.firstCluster] := reserve_chain valid
  have blank : (volume.reserve fs entry.firstCluster).contents [entry.firstCluster] =
      fs.clusterZeros := by
    simp only [contents, List.flatMap_cons, List.flatMap_nil, List.append_nil, reserve,
      setFat_data, setData_data_same]
  have shown : Fat32Fs.visible [entry.firstCluster] = [entry.firstCluster] :=
    Fat32Fs.visible_short (Nat.le_add_left 1 _)
  refine bytes_ext (by rw [bytesOf, length_fit, length_zeros]) fun index inside => ?_
  rw [byteAt_bytesOf geometry chain, shown, blank, Fat32Fs.clusterZeros, byteAt_zeros, byteAt_zeros,
    ite_self]

theorem dirs_kept (keeps : ∀ cluster, volume.fat cluster ≠ 0 → volume.Kept volume' cluster) :
    volume.KeepsDirs fs volume' :=
  fun _ _ _ chain cluster member => keeps cluster (chain.not_free member)

section Calls

variable (geometry : fs.Geometry) (sound : volume.Sound fs) {path : Path} {dir : Nat}
  (targets : volume.Targets fs path dir)
include geometry sound targets

omit geometry sound in
/-- `open` of a new name works like `create_file` without data. -/
theorem Targets.openFile_new {vfs : VfsManager} {given : Path} {mode : FileMode}
    (creates : mode = .create ∨ mode = .createNew) (same : vfs.canonicalize given = path)
    (missing : volume.findIn fs dir path = none) :
    ((∃ reason, (volume.openFile fs vfs given mode).1 = .error reason) ↔
        (volume.placeNew fs dir (toUpper83 (fileName path)) []).1 ≠ .ok ()) ∧
      (volume.openFile fs vfs given mode).2 =
        (volume.placeNew fs dir (toUpper83 (fileName path)) []).2 := by
  subst same
  have named := targets.named
  have parent := targets.parent
  cases placed : volume.place fs [] with
  | mk answer volume' =>
      cases answer with
      | none =>
          have nothing : volume.placeNew fs dir (toUpper83 (fileName (vfs.canonicalize given))) [] =
              (.error .noSpace, volume') := by simp only [placeNew, placed]
          rw [nothing]
          rcases creates with rfl | rfl
          · simp [openFile, parent, named, missing, placed]
          · simp [openFile, parent, named, missing, placed]
      | some cluster =>
          cases entered : volume'.enter fs dir
              (VfsManager.newEntry (toUpper83 (fileName (vfs.canonicalize given))) 0x20 cluster 0) with
          | mk result volume'' =>
              have effect : volume.placeNew fs dir (toUpper83 (fileName (vfs.canonicalize given))) [] =
                  (result, volume'') := by simp only [placeNew, placed, List.length_nil, entered]
              rw [effect]
              cases result with
              | error reason =>
                  rcases creates with rfl | rfl
                  · simp [openFile, parent, named, missing, placed, entered]
                  · simp [openFile, parent, named, missing, placed, entered]
              | ok done =>
                  rcases creates with rfl | rfl
                  · simp [openFile, parent, named, missing, placed, entered]
                  · simp [openFile, parent, named, missing, placed, entered]

theorem Targets.placeNew_leaves (nameUpper : Path) (data : List UInt8) :
    ((volume.placeNew fs dir nameUpper data).1 ≠ .ok () →
        volume.KeepsDirs fs (volume.placeNew fs dir nameUpper data).2) ∧
      (((volume.placeNew fs dir nameUpper data).1 ≠ .ok () →
          volume.SameTree fs (volume.placeNew fs dir nameUpper data).2) ↔
        volume.AllOrNone fs dir (demand fs data)) := by
  obtain ⟨present, clusters, chain⟩ := (targets.live geometry sound).chain sound
  have some := demand_pos fs data
  rcases placeNew_cases geometry chain sound.used present nameUpper data with ⟨none, outcome⟩ |
    ⟨one, two, cluster, found, outcome⟩ |
    ⟨cluster, tail, stored, ⟨short, outcome⟩ | ⟨enough, _, outcome⟩⟩
  · rw [outcome]
    exact ⟨fun _ => (SameTree.refl fs volume).dirs, iff_of_true (fun _ => SameTree.refl fs volume) (.inl none)⟩
  · rw [outcome]
    refine ⟨fun _ => dirs_kept fun other taken => reserve_kept ?_, iff_of_false (fun leaves => ?_) ?_⟩
    · rintro rfl
      exact taken (firstFree_some found).2
    · exact freeSet_ne (freeCount_reserve found) (Nat.le_refl 1) (leaves error_ne_ok).free
    · rw [AllOrNone]
      omega
  · rw [outcome]
    refine ⟨fun _ => dirs_kept fun other taken => place_kept fs volume data taken,
      iff_of_false (fun leaves => ?_) ?_⟩
    · exact freeSet_ne stored.count.1 some.1 (leaves error_ne_ok).free
    · have count := stored.count.1
      rw [AllOrNone]
      omega
  · rw [outcome]
    exact ⟨fun failed => absurd rfl failed, iff_of_true (fun failed => absurd rfl failed) (.inr enough)⟩

theorem Targets.mkdir_leaves (missing : volume.findIn fs dir path = none) :
    ((volume.mkdir fs path).1 ≠ .ok () → volume.KeepsDirs fs (volume.mkdir fs path).2) ∧
      (((volume.mkdir fs path).1 ≠ .ok () → volume.SameTree fs (volume.mkdir fs path).2) ↔
        volume.AllOrNone fs dir 1) := by
  obtain ⟨present, clusters, chain⟩ := (targets.live geometry sound).chain sound
  rcases mkdir_cases geometry chain sound.used present targets.parent targets.named missing with
    ⟨none, outcome⟩ | ⟨cluster, found, count, ⟨short, outcome⟩ | ⟨enough, done⟩⟩
  · rw [outcome]
    exact ⟨fun _ => (SameTree.refl fs volume).dirs, iff_of_true (fun _ => SameTree.refl fs volume) (.inl none)⟩
  · rw [outcome]
    refine ⟨fun _ => dirs_kept fun other taken => marked_kept ?_ _, iff_of_false (fun leaves => ?_) ?_⟩
    · rintro rfl
      exact taken (firstFree_some found).2
    · exact freeSet_ne count (Nat.le_refl 1) (leaves error_ne_ok).free
    · rw [AllOrNone]
      omega
  · exact ⟨fun failed => absurd done failed,
      iff_of_true (fun failed => absurd done failed) (.inr enough)⟩

omit targets in
/-- Where the directories are kept and the chains of all files but one, paths read as before when
that file does. -/
theorem reads_but {position : Position} (dirs : volume.KeepsDirs fs volume')
    (others : ∀ place, volume.Live fs (.slot place) → place ≠ position →
      ∀ held, volume.Owns fs (.slot place) held → ∀ cluster ∈ held, volume.Kept volume' cluster)
    (bytes : volume'.bytesOf (volume.entry position) = volume.bytesOf (volume.entry position))
    {other : Path} (proper : volume.ProperPath fs other) :
    volume'.readContent fs other = volume.readContent fs other := by
  refine readContent_kept geometry sound (SameDirs.of_kept dirs) proper fun place names => ?_
  obtain ⟨_, parent, _, found⟩ := names.parent geometry sound
  refine ⟨dirs.slots geometry sound parent (find_spec found).1, fun regular => ?_⟩
  by_cases same : place = position
  · rw [same, bytes]
  · have live := names.live geometry sound regular
    obtain ⟨held, owned⟩ := sound.owns _ live
    exact bytesOf_kept geometry owned (others place live same held owned)

section Over

variable {position : Position} (found : volume.findIn fs dir path = some position)
  (regular : (volume.entry position).isDirectory = false)
include found regular

theorem Targets.over_others (data : List UInt8) (place : Position)
    (live : volume.Live fs (.slot place)) (apart : place ≠ position) (held : List Nat)
    (owns : volume.Owns fs (.slot place) held) : ∀ cluster ∈ held, volume.Kept
      ((volume.free (volume.entry position).firstCluster).place fs data).2 cluster := by
  have slot := targets.slot geometry sound found regular
  obtain ⟨clusters, owned⟩ := sound.owns _ slot
  intro cluster member
  refine overwrite_kept geometry owned data (owns.not_free member) ?_
  exact sound.apart _ _ live slot (fun same => apart (Owner.slot.inj same)) _ _ owns owned member

theorem Targets.over_dirs (data : List UInt8) : volume.KeepsDirs fs
    ((volume.free (volume.entry position).firstCluster).place fs data).2 :=
  fun _ _ live chain _ member =>
    live.kept geometry sound (targets.slot geometry sound found regular) regular data chain member

/-- With no other free cluster, the one that is reserved is the only one of the file. -/
theorem Targets.reserved_bytes {cluster : Nat}
    (free : (volume.free (volume.entry position).firstCluster).firstFree fs = some cluster)
    (full : ((volume.free (volume.entry position).firstCluster).reserve fs cluster).freeCount fs = 0)
    (none : volume.freeCount fs = 0) :
    ((volume.free (volume.entry position).firstCluster).reserve fs cluster).bytesOf
      (volume.entry position) = zeros (volume.entry position).fileSize.toNat := by
  have slot := targets.slot geometry sound found regular
  obtain ⟨clusters, owned⟩ := sound.owns _ slot
  have chain : volume.Chain fs (volume.entry position).firstCluster clusters := owned
  have count := freeCount_free geometry chain
  have last := freeCount_reserve free
  have present : 2 ≤ (volume.entry position).firstCluster := by
    by_contra absent
    rw [chain.none (by omega)] at count
    simp only [Fat32Fs.visible, List.take_nil, List.length_nil] at count
    omega
  obtain ⟨_, same⟩ := freed_short geometry chain present free
    ((firstFree_none_iff ((free_used geometry sound slot).reserve cluster)).mpr full)
  rw [← same]
  exact bytesOf_reserve geometry (chain.valid _ (chain.mem_start present))

/-- The file is gone and its only cluster, or the only free one, is reserved: the tree is the same
when nothing was free before and the file was blank. -/
theorem Targets.reserved_leaves {cluster : Nat} {data : List UInt8} {answer : Option Nat}
    (free : (volume.free (volume.entry position).firstCluster).firstFree fs = some cluster)
    (full : ((volume.free (volume.entry position).firstCluster).reserve fs cluster).freeCount fs = 0)
    (outcome : (volume.free (volume.entry position).firstCluster).place fs data =
      (answer, (volume.free (volume.entry position).firstCluster).reserve fs cluster)) :
    volume.SameTree fs ((volume.free (volume.entry position).firstCluster).reserve fs cluster) ↔
      volume.freeCount fs = 0 ∧ ∀ byte ∈ volume.bytesOf (volume.entry position), byte = 0 := by
  have dirs := targets.over_dirs geometry sound found regular data
  have others := targets.over_others geometry sound found regular data
  have bytes := targets.reserved_bytes geometry sound found regular free full
  rw [outcome] at dirs others
  have names : volume.Names fs path position :=
    ⟨targets.proper, targets.named, dir, targets.parent, found⟩
  have slotKept : ((volume.free (volume.entry position).firstCluster).reserve fs cluster).entry
      position = volume.entry position :=
    dirs.slots geometry sound (targets.live geometry sound) (find_spec found).1
  constructor
  · intro leaves
    have none : volume.freeCount fs = 0 := by
      rw [freeCount, ← leaves.free]
      exact full
    have after := readContent_names ((SameDirs.of_kept dirs).names geometry sound names)
      (by rw [slotKept, regular])
    rw [leaves.reads path targets.proper, readContent_names names regular, slotKept, bytes none,
      Except.ok.injEq] at after
    refine ⟨none, fun byte member => ?_⟩
    rw [after] at member
    exact List.eq_of_mem_replicate member
  · rintro ⟨none, blank⟩
    refine ⟨dirs, fun other proper => reads_but geometry sound dirs others ?_ proper, ?_⟩
    · rw [bytes none]
      exact (List.eq_replicate_iff.mpr ⟨length_fit _ _, blank⟩).symm
    · rw [Finset.card_eq_zero.mp full, Finset.card_eq_zero.mp none]

theorem Targets.over_leaves (data : List UInt8) :
    ((volume.createFile fs path data).1 ≠ .ok () →
        volume.KeepsDirs fs (volume.createFile fs path data).2) ∧
      (((volume.createFile fs path data).1 ≠ .ok () →
          volume.SameTree fs (volume.createFile fs path data).2) ↔
        volume.Replaceable fs position data) := by
  have slot := targets.slot geometry sound found regular
  obtain ⟨clusters, owned⟩ := sound.owns _ slot
  have chain : volume.Chain fs (volume.entry position).firstCluster clusters := owned
  have count := freeCount_free geometry chain
  have some := demand_pos fs data
  rw [targets.createFile_over found regular, Replaceable]
  simp only [geometry.chainOf_eq chain, ← count]
  rcases place_outcome (free_used geometry sound slot) data with ⟨none, outcome⟩ |
    ⟨one, two, cluster, free, outcome⟩ | ⟨enough, cluster, tail, stored⟩
  · -- nothing was freed and nothing is free
    have nothing : volume.free (volume.entry position).firstCluster = volume := by
      have empty : Fat32Fs.visible clusters = [] := List.eq_nil_of_length_eq_zero (by omega)
      rw [Volume.free, geometry.chainOf_eq chain, empty, release]
      simp only [List.not_mem_nil, if_false]
    rw [outcome]
    simp only [nothing]
    exact ⟨fun _ => (SameTree.refl fs volume).dirs,
      iff_of_true (fun _ => SameTree.refl fs volume) (.inr (.inl (nothing ▸ none)))⟩
  · have dirs := targets.over_dirs geometry sound found regular data
    have last := freeCount_reserve free
    have full : ((volume.free (volume.entry position).firstCluster).reserve fs cluster).freeCount fs =
        0 := by omega
    have leaves := targets.reserved_leaves geometry sound found regular free full outcome
    rw [outcome] at dirs ⊢
    simp only at dirs ⊢
    refine ⟨fun _ => dirs, fun same => .inr (.inr (leaves.mp (same error_ne_ok))), fun fits _ => ?_⟩
    rcases fits with enough | nothing | blank
    · omega
    · omega
    · exact leaves.mpr blank
  · rw [stored.placed]
    exact ⟨fun failed => absurd rfl failed, iff_of_true (fun failed => absurd rfl failed) (.inl enough)⟩

end Over

end Calls

theorem Targets.forall_iff {path : Path} {dir : Nat} (targets : volume.Targets fs path dir)
    {holds : Nat → Prop} : (∀ other, volume.Targets fs path other → holds other) ↔ holds dir := by
  constructor
  · exact fun all => all dir targets
  · intro here other otherTargets
    obtain rfl : dir = other := Except.ok.inj (targets.parent.symm.trans otherTargets.parent)
    exact here

theorem targets_or {path : Path} (proper : volume.ProperPath fs path) :
    (∃ dir, volume.Targets fs path dir) ∨
      (∃ reason, volume.parentOf fs path = .error reason) ∨
      (∃ dir, volume.parentOf fs path = .ok dir) ∧ fileName path = [] := by
  cases parent : volume.parentOf fs path with
  | error reason => exact .inr (.inl ⟨reason, rfl⟩)
  | ok dir =>
      by_cases unnamed : fileName path = []
      · exact .inr (.inr ⟨⟨dir, rfl⟩, unnamed⟩)
      · exact .inl ⟨dir, proper, parent, unnamed⟩

/-- What a failing call has to find: clusters for all of a new name or for none of it, and a file
that can be replaced. -/
def CreateFits (fs : Fat32Fs) (volume : Volume) (dir : Nat) (path : Path) (data : List UInt8) : Prop :=
  match volume.findIn fs dir path with
  | none => volume.AllOrNone fs dir (demand fs data)
  | some position => (volume.entry position).isDirectory = false →
      volume.Replaceable fs position data

section Refused

variable (geometry : fs.Geometry) (sound : volume.Sound fs) {path : Path}
  (proper : volume.ProperPath fs path)
include geometry sound proper

theorem createFile_leaves (data : List UInt8) :
    ((volume.createFile fs path data).1 ≠ .ok () →
        volume.KeepsDirs fs (volume.createFile fs path data).2) ∧
      (((volume.createFile fs path data).1 ≠ .ok () →
          volume.SameTree fs (volume.createFile fs path data).2) ↔
        ∀ dir, volume.Targets fs path dir → volume.CreateFits fs dir path data) := by
  have same := SameTree.refl fs volume
  rcases targets_or proper with ⟨dir, targets⟩ | ⟨reason, parent⟩ | ⟨⟨dir, parent⟩, unnamed⟩
  · rw [targets.forall_iff, CreateFits]
    cases found : volume.findIn fs dir path with
    | none =>
        rw [targets.createFile_new found]
        exact targets.placeNew_leaves geometry sound _ data
    | some position =>
        cases regular : (volume.entry position).isDirectory with
        | false =>
            simp only [regular, forall_const]
            exact targets.over_leaves geometry sound found regular data
        | true =>
            have refused : volume.createFile fs path data = (.error .notAFile, volume) := by
              simp only [createFile, targets.parent, if_neg targets.named, found, regular, if_true]
            rw [refused]
            exact ⟨fun _ => same.dirs, iff_of_true (fun _ => same)
              fun file => absurd (file.symm.trans regular) Bool.false_ne_true⟩
  · have refused : volume.createFile fs path data = (.error reason, volume) := by
      simp only [createFile, parent]
    rw [refused]
    refine ⟨fun _ => same.dirs, iff_of_true (fun _ => same) fun dir targets => ?_⟩
    cases parent.symm.trans targets.parent
  · have refused : volume.createFile fs path data = (.error .invalidPath, volume) := by
      simp only [createFile, parent, if_pos unnamed]
    rw [refused]
    exact ⟨fun _ => same.dirs, iff_of_true (fun _ => same)
      fun dir targets => absurd unnamed targets.named⟩

theorem mkdir_leaves : ((volume.mkdir fs path).1 ≠ .ok () →
        volume.KeepsDirs fs (volume.mkdir fs path).2) ∧
      (((volume.mkdir fs path).1 ≠ .ok () → volume.SameTree fs (volume.mkdir fs path).2) ↔
        ∀ dir, volume.Targets fs path dir → volume.findIn fs dir path = none →
          volume.AllOrNone fs dir 1) := by
  have same := SameTree.refl fs volume
  rcases targets_or proper with ⟨dir, targets⟩ | ⟨reason, parent⟩ | ⟨⟨dir, parent⟩, unnamed⟩
  · rw [targets.forall_iff]
    cases found : volume.findIn fs dir path with
    | none =>
        simp only [forall_const]
        exact targets.mkdir_leaves geometry sound found
    | some position =>
        have refused : volume.mkdir fs path = (.error .alreadyExists, volume) := by
          simp only [mkdir, targets.parent, if_neg targets.named, found]
        rw [refused]
        exact ⟨fun _ => same.dirs, iff_of_true (fun _ => same)
          fun missing => absurd missing (Option.some_ne_none position)⟩
  · have refused : volume.mkdir fs path = (.error reason, volume) := by
      simp only [mkdir, parent]
    rw [refused]
    refine ⟨fun _ => same.dirs, iff_of_true (fun _ => same) fun dir targets => ?_⟩
    cases parent.symm.trans targets.parent
  · have refused : volume.mkdir fs path = (.error .invalidPath, volume) := by
      simp only [mkdir, parent, if_pos unnamed]
    rw [refused]
    exact ⟨fun _ => same.dirs, iff_of_true (fun _ => same)
      fun dir targets => absurd unnamed targets.named⟩

theorem openFile_leaves {vfs : VfsManager} {given : Path} (given_path : vfs.canonicalize given = path)
    {mode : FileMode} (creates : mode = .create ∨ mode = .createNew) :
    ((∃ reason, (volume.openFile fs vfs given mode).1 = .error reason) →
        volume.KeepsDirs fs (volume.openFile fs vfs given mode).2) ∧
      (((∃ reason, (volume.openFile fs vfs given mode).1 = .error reason) →
          volume.SameTree fs (volume.openFile fs vfs given mode).2) ↔
        ∀ dir, volume.Targets fs path dir → volume.findIn fs dir path = none →
          volume.AllOrNone fs dir 1) := by
  have same := SameTree.refl fs volume
  have writing : mode ≠ .read := by
    rcases creates with rfl | rfl
    · decide
    · decide
  rcases targets_or proper with ⟨dir, targets⟩ | ⟨reason, parent⟩ | ⟨⟨dir, parent⟩, unnamed⟩
  · rw [targets.forall_iff]
    cases found : volume.findIn fs dir path with
    | none =>
        obtain ⟨failed, effect⟩ := targets.openFile_new creates given_path found
        simp only [forall_const]
        rw [failed, effect]
        have one : demand fs [] = 1 := if_pos (Nat.zero_le 1)
        rw [← one]
        exact targets.placeNew_leaves geometry sound _ []
    | some position =>
        have kept : (volume.openFile fs vfs given mode).2 = volume := by
          subst given_path
          rcases creates with rfl | rfl
          · simp only [openFile, targets.parent, if_neg targets.named, found]
            split
            · rfl
            · rfl
          · simp only [openFile, targets.parent, if_neg targets.named, found]
        rw [kept]
        exact ⟨fun _ => same.dirs, iff_of_true (fun _ => same)
          fun missing => absurd missing (Option.some_ne_none position)⟩
  · have kept : (volume.openFile fs vfs given mode).2 = volume := by
      simp only [openFile, given_path, parent]
    rw [kept]
    refine ⟨fun _ => same.dirs, iff_of_true (fun _ => same) fun dir targets => ?_⟩
    cases parent.symm.trans targets.parent
  · have kept : (volume.openFile fs vfs given mode).2 = volume := by
      simp only [openFile, given_path, parent, if_pos unnamed, if_neg writing]
    rw [kept]
    exact ⟨fun _ => same.dirs, iff_of_true (fun _ => same)
      fun dir targets => absurd unnamed targets.named⟩

end Refused

end Volume

theorem mapError_inj {ε α : Type} {left right : Except ε α}
    (same : left.mapError Halt.error = right.mapError Halt.error) : left = right := by
  cases left with
  | ok value =>
      cases right with
      | ok other => exact congrArg Except.ok (Except.ok.inj same)
      | error reason => cases same
  | error reason =>
      cases right with
      | ok other => cases same
      | error other => exact congrArg Except.error (Halt.error.inj (Except.error.inj same))

namespace Session

def Creates : Call → Prop
  | .createFile _ _ => True
  | .mkdir _ => True
  | .openFile _ mode => mode = .create ∨ mode = .createNew
  | _ => False

/-- Every path through directories lists and reads as before, and the same clusters are free. -/
structure Unchanged (fs : Fat32Fs) (session session' : Session) : Prop where
  lists : ∀ path, (fs.view session.device).throughDirs fs (pathComponents path)
      fs.bpb.rootCluster.toNat = true →
    (session'.vfs.listDir path).answer session'.device =
      (session.vfs.listDir path).answer session.device
  reads : ∀ path, (fs.view session.device).ProperPath fs path →
    (session'.vfs.readFileContent path).answer session'.device =
      (session.vfs.readFileContent path).answer session.device
  free : (fs.view session'.device).freeSet fs = (fs.view session.device).freeSet fs

def FailsCleanly (fs : Fat32Fs) (session : Session) (call : Call) : Prop :=
  ∀ halt session', session.step call = (.error halt, session') → Unchanged fs session session'

/-- Where a creation can stop halfway, it has all the clusters it takes or none. -/
def NothingToLose (fs : Fat32Fs) (vfs : VfsManager) (volume : Volume) : Call → Prop
  | .createFile path data =>
      ∀ dir, volume.Targets fs path dir → volume.CreateFits fs dir path data
  | .mkdir path => ∀ dir, volume.Targets fs path dir → volume.findIn fs dir path = none →
      volume.AllOrNone fs dir 1
  | .openFile path _ => ∀ dir, volume.Targets fs (vfs.canonicalize path) dir →
      volume.findIn fs dir (vfs.canonicalize path) = none → volume.AllOrNone fs dir 1
  | _ => True

def Refused (fs : Fat32Fs) (vfs : VfsManager) (volume : Volume) : Call → Prop
  | .createFile path data => (volume.createFile fs path data).1 ≠ .ok ()
  | .mkdir path => (volume.mkdir fs path).1 ≠ .ok ()
  | .openFile path mode => ∃ reason, (volume.openFile fs vfs path mode).1 = .error reason
  | _ => False

variable {fs : Fat32Fs}

theorem FailsCleanly.unchanged {session : Session} {call : Call}
    (cleanly : FailsCleanly fs session call) {halt : Halt VfsError}
    (failed : (session.step call).1 = .error halt) : Unchanged fs session (session.step call).2 :=
  cleanly halt _ (Prod.ext failed rfl)

theorem settle_fails {action : Disk VfsError Unit} {volume volume' : Volume}
    {result : Except VfsError Unit} (ran : Runs fs action volume result volume') {device : Device}
    (healthy : device.Healthy) (holds : fs.view device = volume) (vfs : VfsManager)
    (reply : Unit → Reply) :
    (∃ halt, (settle vfs reply (action device)).1 = .error halt) ↔ result ≠ .ok () := by
  rw [settle_answer ran healthy holds vfs reply]
  cases result with
  | ok value => simp [Except.map, Except.mapError]
  | error reason => simp [Except.map, Except.mapError]

section Steps

variable (geometry : fs.Geometry) {session : Session} (ready : session.Ready fs) {call : Call}
  (careful : Careful fs session.vfs (fs.view session.device) call) (creates : Creates call)
include geometry ready careful creates

theorem creation_fails : (∃ halt, (session.step call).1 = .error halt) ↔
    Refused fs session.vfs (fs.view session.device) call := by
  obtain ⟨mounted, healthy, sound⟩ := ready
  cases call with
  | createFile path data =>
      exact settle_fails (mounted.createFile_runs geometry sound careful data) healthy rfl _ _
  | mkdir path =>
      exact settle_fails (mounted.mkdir_runs geometry sound careful) healthy rfl _ _
  | openFile path mode =>
      obtain ⟨device', ran, _, _⟩ :=
        mounted.openFile_runs geometry sound careful mode session.device healthy rfl
      simp only [step, Refused, ran]
      cases ((fs.view session.device).openFile fs session.vfs path mode).1 with
      | ok opened => simp [outcome]
      | error reason => simp [outcome]
  | read fd room => exact creates.elim
  | write fd data => exact creates.elim
  | close fd => exact creates.elim
  | delete path => exact creates.elim

theorem creation_leaves : (Refused fs session.vfs (fs.view session.device) call →
      (fs.view session.device).KeepsDirs fs
        (after fs session.vfs (fs.view session.device) call).2) ∧
    ((Refused fs session.vfs (fs.view session.device) call →
        (fs.view session.device).SameTree fs
          (after fs session.vfs (fs.view session.device) call).2) ↔
      NothingToLose fs session.vfs (fs.view session.device) call) := by
  have sound := ready.sound
  cases call with
  | createFile path data => exact Volume.createFile_leaves geometry sound careful data
  | mkdir path => exact Volume.mkdir_leaves geometry sound careful
  | openFile path mode =>
      rw [after_openFile]
      exact Volume.openFile_leaves geometry sound careful rfl creates
  | read fd room => exact creates.elim
  | write fd data => exact creates.elim
  | close fd => exact creates.elim
  | delete path => exact creates.elim

omit geometry ready careful in
theorem refused_vfs {vfs : VfsManager} {volume : Volume} (refused : Refused fs vfs volume call) :
    (after fs vfs volume call).1 = vfs := by
  cases call with
  | createFile path data => rfl
  | mkdir path => rfl
  | openFile path mode =>
      obtain ⟨reason, failed⟩ := refused
      simp only [after]
      split
      · rename_i opened
        rw [opened] at failed
        cases failed
      · rfl
  | read fd room => exact creates.elim
  | write fd data => exact creates.elim
  | close fd => exact creates.elim
  | delete path => exact creates.elim

theorem unchanged_iff (refused : Refused fs session.vfs (fs.view session.device) call) :
    Unchanged fs session (session.step call).2 ↔
      (fs.view session.device).SameTree fs
        (after fs session.vfs (fs.view session.device) call).2 := by
  have dirs := (creation_leaves geometry ready careful creates).1 refused
  have ready' := step_ready geometry ready careful
  obtain ⟨sameVfs, _, holds⟩ := step_shows geometry ready careful
  rw [refused_vfs creates refused] at sameVfs
  have sound' := ready'.sound
  have mounted' := ready'.mounted
  have healthy' := ready'.healthy
  rw [holds] at sound'
  rw [sameVfs] at mounted'
  have same := Volume.SameDirs.of_kept dirs
  have sound := ready.sound
  have reads (path : Path) (proper : (fs.view session.device).ProperPath fs path) :
      (session.vfs.readFileContent path).answer (session.step call).2.device =
          (session.vfs.readFileContent path).answer session.device ↔
        (after fs session.vfs (fs.view session.device) call).2.readContent fs path =
          (fs.view session.device).readContent fs path := by
    rw [(mounted'.readFileContent_runs geometry sound'
      (same.properPath geometry sound proper)).answer_eq healthy' holds,
      (ready.mounted.readFileContent_runs geometry sound proper).answer_eq ready.healthy rfl]
    exact ⟨mapError_inj, congrArg _⟩
  constructor
  · rintro ⟨_, readsSame, free⟩
    rw [sameVfs] at readsSame
    rw [holds] at free
    exact ⟨dirs, fun path proper => (reads path proper).mp (readsSame path proper), free⟩
  · intro tree
    refine ⟨fun path proper => ?_, fun path proper => ?_, ?_⟩
    · have proper' := (same.walk geometry sound Volume.liveDir_root proper).2
      rw [sameVfs, (mounted'.listDir_runs geometry sound' proper').answer_eq healthy' holds,
        (ready.mounted.listDir_runs geometry sound proper).answer_eq ready.healthy rfl,
        Volume.listAt_kept geometry sound same
          (fun _ live _ member => dirs.slots geometry sound live member) proper]
    · rw [sameVfs]
      exact (reads path proper).mpr (tree.reads path proper)
    · rw [holds]
      exact tree.free

/-- A creation leaves the volume intact when it fails exactly when, where it can stop halfway, it
finds all the clusters it takes or none; or the file it replaces has the last one and holds
zeros. -/
theorem fails_cleanly_iff : FailsCleanly fs session call ↔
    NothingToLose fs session.vfs (fs.view session.device) call := by
  rw [← (creation_leaves geometry ready careful creates).2]
  constructor
  · intro cleanly refused
    obtain ⟨halt, failed⟩ := (creation_fails geometry ready careful creates).mpr refused
    exact (unchanged_iff geometry ready careful creates refused).mp (cleanly.unchanged failed)
  · intro leaves halt session' stepped
    have refused := (creation_fails geometry ready careful creates).mp
      ⟨halt, congrArg Prod.fst stepped⟩
    have unchanged := (unchanged_iff geometry ready careful creates refused).mpr (leaves refused)
    rw [stepped] at unchanged
    exact unchanged

end Steps

end Session

/-! The blank volume with fewer clusters. -/

def crampedFs (clusters : UInt32) : Fat32Fs where
  bpb := { smallFs.bpb with totalSectors32 := 2 + clusters }
  partitionLba := 0

def crampedSession (clusters : UInt32) : Session where
  vfs := { blankSession.vfs with fatFs := some (crampedFs clusters) }
  device := blankDevice

theorem cramped_root {clusters : UInt32} (root : (crampedFs clusters).Valid 2) :
    ((crampedFs clusters).view blankDevice).fat 2 = fat32Eoc ∧
      ((crampedFs clusters).view blankDevice).data 2 = zeros 512 := by
  have marked : smallFs.fatWord blankDevice 2 % 2 ^ 28 = fat32Eoc := by decide
  have cleared : smallFs.clusterBytes blankDevice 2 = zeros 512 := by decide +kernel
  exact ⟨(if_pos root).trans marked, (if_pos root).trans cleared⟩

theorem cramped_wellFormed {clusters : UInt32} (geometry : (crampedFs clusters).Geometry)
    (root : (crampedFs clusters).Valid 2) :
    WellFormed (crampedFs clusters) ((crampedFs clusters).view blankDevice) := by
  obtain ⟨ended, cleared⟩ := cramped_root root
  have zeroed : ∀ position ∈ (crampedFs clusters).positions [2],
      ((crampedFs clusters).view blankDevice).entry position = Fat32DirEntry.zeroed := by
    intro position inside
    rw [Volume.entry, List.mem_singleton.mp (Fat32Fs.mem_positions.mp inside).1, cleared,
      slotAt_zeros]
  have blank : ((crampedFs clusters).view blankDevice).slotEntries (crampedFs clusters) [2] =
      List.replicate _ Fat32DirEntry.zeroed :=
    List.eq_replicate_of_mem (List.forall_mem_map.mpr zeroed)
  have chain : ((crampedFs clusters).view blankDevice).Chain (crampedFs clusters)
      (crampedFs clusters).bpb.rootCluster.toNat [2] := Volume.chain_single root ended.ge
  refine wellFormed_of_blank geometry (Nat.le_refl 2) chain (by decide)
    (fun position inside => ?_) ?_ ?_
  · rw [zeroed position inside]
    decide
  · rw [blank]
    exact zeroTail_zeros _
  · rw [blank, liveOf_zeros]

theorem cramped_ready {clusters : UInt32} (geometry : (crampedFs clusters).Geometry)
    (root : (crampedFs clusters).Valid 2) : (crampedSession clusters).Ready (crampedFs clusters) :=
  ⟨⟨rfl, rfl⟩, fun _ => ⟨rfl, rfl⟩, (cramped_wellFormed geometry root).sound⟩

theorem fails_cleanly_full : ((crampedSession 1).step (.mkdir [0x2F, 0x41])).1 =
      .error (.error .noSpace) ∧
    Session.FailsCleanly (crampedFs 1) (crampedSession 1) (.mkdir [0x2F, 0x41]) := by
  have geometry : (crampedFs 1).Geometry := by constructor <;> decide
  have proper : ((crampedFs 1).view blankDevice).ProperPath (crampedFs 1) [0x2F, 0x41] := by
    decide
  have careful : Session.Careful (crampedFs 1) (crampedSession 1).vfs
      ((crampedFs 1).view (crampedSession 1).device) (.mkdir [0x2F, 0x41]) := proper
  have full : ((crampedFs 1).view blankDevice).freeCount (crampedFs 1) = 0 := by decide
  refine ⟨by decide +kernel, ?_⟩
  exact (Session.fails_cleanly_iff geometry (cramped_ready geometry (by decide)) careful trivial).mpr
    fun _ _ _ => .inl full

/-- `create_file` with data for two clusters takes the only free one and fails. -/
theorem failed_creation_leaks : WellFormed (crampedFs 2) ((crampedFs 2).view blankDevice) ∧
    (crampedSession 2).Ready (crampedFs 2) ∧
    ((crampedFs 2).view blankDevice).ProperPath (crampedFs 2) [0x2F, 0x41] ∧
    ¬Session.FailsCleanly (crampedFs 2) (crampedSession 2)
      (.createFile [0x2F, 0x41] (List.replicate 600 7)) := by
  have geometry : (crampedFs 2).Geometry := by constructor <;> decide
  have root : (crampedFs 2).Valid 2 := by decide
  refine ⟨cramped_wellFormed geometry root, cramped_ready geometry root, by decide,
    fun cleanly => ?_⟩
  have failed : ((crampedSession 2).step (.createFile [0x2F, 0x41] (List.replicate 600 7))).1 =
      .error (.error .noSpace) := by decide +kernel
  have free : 3 ∈ ((crampedFs 2).view blankDevice).freeSet (crampedFs 2) := by decide
  have taken : ((crampedFs 2).view ((crampedSession 2).step
      (.createFile [0x2F, 0x41] (List.replicate 600 7))).2.device).fat 3 = fat32Eoc := by
    decide +kernel
  have kept := Volume.mem_freeSet.mp ((cleanly.unchanged failed).free.symm ▸ free)
  rw [taken] at kept
  exact absurd kept.2 (by decide)

end ArcadiaOs.Fs
