import ArcadiaOs.Fs.TreeView

/-!
Path texts in the file tree.  A text without `..` names a path of the tree, and what the calls that
only read answer about it is told by what stands there.
-/

namespace ArcadiaOs.Fs

open Lib

def keysOf (path : List Path) : List Path :=
  (path.filter fun component => ¬(component = [] ∨ component = [0x2E])).map toUpper83

def keys (path : Path) : List Path := keysOf (pathComponents path)

def parentKeys (path : Path) : List Path := keysOf (parentComponents path)

/-- No component of the text is `..`. -/
def Downward (path : Path) : Prop := up ∉ components path

instance (path : Path) : Decidable (Downward path) := inferInstanceAs (Decidable (_ ∉ _))

def EndsInName (path : Path) : Prop := fileName path ≠ [] ∧ ¬IsDotName (fileName path)

instance (path : Path) : Decidable (EndsInName path) := inferInstanceAs (Decidable (_ ∧ _))

theorem keysOf_stay {component : Path} (stay : component = [] ∨ component = [0x2E])
    (rest : List Path) : keysOf (component :: rest) = keysOf rest := by
  rw [keysOf, List.filter_cons_of_neg (by rw [decide_eq_true_eq, not_not]; exact stay), keysOf]

theorem keysOf_name {component : Path} (named : ¬(component = [] ∨ component = [0x2E]))
    (rest : List Path) : keysOf (component :: rest) = toUpper83 component :: keysOf rest := by
  rw [keysOf, List.filter_cons_of_pos (by simpa using named), List.map_cons, keysOf]

theorem keysOf_append (front back : List Path) :
    keysOf (front ++ back) = keysOf front ++ keysOf back := by
  rw [keysOf, List.filter_append, List.map_append, keysOf, keysOf]

theorem keysOf_components (path : Path) : keysOf (components path) = keys path := by
  obtain ⟨stays, split, stay⟩ := components_stays path
  rw [split, keysOf_append, keys]
  have none : keysOf stays = [] := by
    rw [keysOf, List.filter_eq_nil_iff.mpr, List.map_nil]
    intro component member
    rw [decide_eq_true_eq, not_not]
    exact stay component member
  rw [none, List.nil_append]

theorem parent_split (path : Path) :
    (parentComponents path = [] ∧ components (trimStart path) = [fileName path]) ∨
      ∃ front, parentComponents path = pathComponents front ∧
        components (trimStart path) = components front ++ [fileName path] := by
  simp only [parentComponents, fileName]
  cases split : rsplit (trimStart path) with
  | none => exact .inl ⟨rfl, components_single (rsplit_none split)⟩
  | some parts =>
      obtain ⟨front, name⟩ := parts
      obtain ⟨whole, plain⟩ := rsplit_some split
      refine .inr ⟨front, rfl, ?_⟩
      rw [whole, components_slash, components_single plain]

theorem Downward.components {path : Path} (down : Downward path) :
    up ∉ pathComponents path ∧ up ∉ parentComponents path := by
  obtain ⟨_, whole, _⟩ := components_stays path
  rw [Downward, whole, List.mem_append, not_or] at down
  refine ⟨down.2, fun member => ?_⟩
  obtain ⟨stays, trimmed, stay⟩ := components_stays (trimStart path)
  have absent : up ∉ Fs.components (trimStart path) := by
    rw [trimmed, pathComponents_trim, List.mem_append, not_or]
    refine ⟨fun inside => ?_, down.2⟩
    rcases stay up inside with empty | dot
    · cases empty
    · cases dot
  rcases parent_split path with ⟨none, _⟩ | ⟨front, parent, split⟩
  · rw [none] at member
    cases member
  · obtain ⟨_, frontSplit, _⟩ := components_stays front
    rw [parent] at member
    rw [split, frontSplit, List.append_assoc] at absent
    exact absent (List.mem_append_right _ (List.mem_append_left _ member))

theorem EndsInName.keys {path : Path} (named : EndsInName path) :
    keys path = parentKeys path ++ [toUpper83 (fileName path)] := by
  have stays : ¬(fileName path = [] ∨ fileName path = [0x2E]) :=
    not_or.mpr ⟨named.1, fun dot => named.2 (.inl dot)⟩
  have last : keysOf [fileName path] = [toUpper83 (fileName path)] := keysOf_name stays []
  have whole : Fs.keys path = keysOf (Fs.components (trimStart path)) := by
    rw [keysOf_components, Fs.keys, Fs.keys, pathComponents_trim]
  rw [whole, parentKeys]
  rcases parent_split path with ⟨none, single⟩ | ⟨front, parent, split⟩
  · rw [single, none, last]
    rfl
  · rw [split, keysOf_append, keysOf_components, parent, last, Fs.keys]

namespace Volume

variable {fs : Fat32Fs} {volume : Volume}

section Walk

variable (geometry : fs.Geometry) (formed : WellFormed fs volume)
include geometry formed

theorem lookup_child {dir : Nat} (live : volume.LiveDir fs dir) {component : Path}
    (named : ¬IsDotName component) : volume.lookup fs dir component =
      (volume.child fs dir (toUpper83 component)).map DirEntryInfo.ofEntry := by
  obtain ⟨clusters, chain, _, records⟩ := records_of_formed formed live
  have order := formed.inOrder dir clusters live chain
  have upper : ¬IsDotName (toUpper83 component) :=
    fun dot => named ((toUpper83_dots component).mp dot)
  rw [records.lookup geometry order.plainName named, child, if_neg upper, find_live,
    records.slots geometry]

/-- The walk of names goes to the directory at their path, as long as no file stands on the way. -/
theorem walk_names {path : List Path} (names : up ∉ path) {dir : Nat}
    (live : volume.LiveDir fs dir) :
    (volume.throughDirs fs path dir = true ↔ ∀ front, front <+: keysOf path → ∀ content,
      volume.nodeAt fs front dir ≠ some (.file content)) ∧
    (volume.throughDirs fs path dir = true → volume.walk fs path dir =
      match volume.dirAt fs (keysOf path) dir with
      | some target => .ok target
      | none => .error .notFound) := by
  induction path generalizing dir with
  | nil =>
      refine ⟨iff_of_true rfl fun front before content => ?_, fun _ => rfl⟩
      obtain rfl := List.prefix_nil.mp before
      simp [nodeAt]
  | cons component rest ih =>
      rw [List.mem_cons, not_or] at names
      have later := fun {other : Nat} (alive : volume.LiveDir fs other) => ih names.2 alive
      simp only [throughDirs, walk]
      by_cases stay : component = [] ∨ component = [0x2E]
      · simp only [if_pos stay, keysOf_stay stay]
        exact later live
      have below : ¬component = [0x2E, 0x2E] := fun same => names.1 same.symm
      have named : ¬IsDotName component := by
        rintro (one | two)
        · exact stay (.inr one)
        · exact below two
      simp only [if_neg stay, if_neg below, keysOf_name stay,
        lookup_child geometry formed live named, List.prefix_cons_iff, dirAt]
      cases found : volume.child fs dir (toUpper83 component) with
      | none =>
          refine ⟨iff_of_true rfl ?_, fun _ => rfl⟩
          rintro front (rfl | ⟨back, rfl, _⟩) content
          · simp [nodeAt]
          · simp [nodeAt, found]
      | some entry =>
          simp only [Option.map_some, Bool.and_eq_true, DirEntryInfo.ofEntry]
          cases directory : entry.isDirectory with
          | true =>
              obtain ⟨through, walked⟩ :=
                later (live.childDir geometry formed.sound found directory)
              refine ⟨?_, fun proper => walked proper.2⟩
              simp only [true_and, through]
              constructor
              · rintro all front (rfl | ⟨back, rfl, before⟩) content
                · simp [nodeAt]
                · simp only [nodeAt, found, directory, if_true]
                  exact all back before content
              · intro all front before content
                have here := all (toUpper83 component :: front) (.inr ⟨front, rfl, before⟩) content
                simpa only [nodeAt, found, directory, if_true] using here
          | false =>
              refine ⟨iff_of_false (fun proper => Bool.false_ne_true proper.1) fun all => ?_,
                fun proper => absurd proper.1 Bool.false_ne_true⟩
              refine all [toUpper83 component] (.inr ⟨[], rfl, List.nil_prefix⟩)
                (volume.bytesOf entry) ?_
              simp only [nodeAt, found, directory, Bool.false_eq_true, if_false, if_true]

theorem properPath_iff {path : Path} (down : Downward path) :
    volume.ProperPath fs path ↔ (volume.tree fs).Through (parentKeys path) :=
  (walk_names geometry formed down.components.2 liveDir_root).1

theorem parentOf_tree {path : Path} (down : Downward path) (proper : volume.ProperPath fs path) :
    volume.parentOf fs path =
      match volume.dirAt fs (parentKeys path) fs.bpb.rootCluster.toNat with
      | some dir => .ok dir
      | none => .error .notFound :=
  (walk_names geometry formed down.components.2 liveDir_root).2 proper

end Walk

theorem node_lost {path : List Path} (through : (volume.tree fs).Through path)
    (lost : volume.dirAt fs path fs.bpb.rootCluster.toNat = none) :
    (volume.tree fs).node path = none := by
  match node : (volume.tree fs).node path with
  | none => rfl
  | some (.file content) => exact absurd node (through _ List.prefix_rfl content)
  | some .directory =>
      obtain ⟨dir, led⟩ := nodeAt_directory.mp node
      cases lost.symm.trans led

/-! What stands at the path of a text that ends in a name. -/

theorem findIn_child {path : Path} (named : EndsInName path) (dir : Nat) :
    (volume.findIn fs dir path).map volume.entry =
      volume.child fs dir (toUpper83 (fileName path)) := by
  rw [child, if_neg fun dot => named.2 ((toUpper83_dots _).mp dot), findIn]

theorem node_named {path : Path} (named : EndsInName path) :
    (volume.tree fs).node (keys path) =
      (volume.dirAt fs (parentKeys path) fs.bpb.rootCluster.toNat).bind fun dir =>
        (volume.child fs dir (toUpper83 (fileName path))).map volume.recorded := by
  rw [named.keys]
  cases led : volume.dirAt fs (parentKeys path) fs.bpb.rootCluster.toNat with
  | some dir => exact (nodeAt_below led _).trans (nodeAt_child dir _)
  | none =>
      by_contra present
      obtain ⟨dir, led'⟩ := nodeAt_directory.mp (nodeAt_closed present)
      rw [led] at led'
      cases led'

def readAnswer : Option (Node (List UInt8)) → Except VfsError (List UInt8)
  | none => .error .notFound
  | some .directory => .error .notAFile
  | some (.file content) => .ok content

/-- The path names a place, and no file stands on the way to it. -/
structure Located (fs : Fat32Fs) (volume : Volume) (path : Path) : Prop where
  down : Downward path
  named : EndsInName path
  through : (volume.tree fs).Through (parentKeys path)

theorem located_of_led {path : Path} (down : Downward path) (named : EndsInName path) {dir : Nat}
    (led : volume.dirAt fs (parentKeys path) fs.bpb.rootCluster.toNat = some dir) :
    volume.Located fs path := by
  refine ⟨down, named, fun front inside content file => ?_⟩
  obtain ⟨rest, split⟩ := inside
  have directory : (volume.tree fs).node (front ++ rest) = some .directory := by
    rw [split]
    exact nodeAt_directory.mpr ⟨dir, led⟩
  by_cases whole : rest = []
  · rw [whole, List.append_nil, file] at directory
    cases directory
  · cases file.symm.trans
      ((volume.tree fs).directory_above (directory ▸ Option.some_ne_none _) whole)

section Answers

variable (geometry : fs.Geometry) (formed : WellFormed fs volume) {path : Path}
  (located : volume.Located fs path)
include geometry formed located

theorem Located.proper : volume.ProperPath fs path :=
  (properPath_iff geometry formed located.down).mpr located.through

theorem readContent_tree :
    volume.readContent fs path = readAnswer ((volume.tree fs).node (keys path)) := by
  rw [readContent, parentOf_tree geometry formed located.down (located.proper geometry formed),
    node_named located.named]
  cases volume.dirAt fs (parentKeys path) fs.bpb.rootCluster.toNat with
  | none => rfl
  | some dir =>
      simp only [if_neg located.named.1, Option.bind_some, ← findIn_child located.named]
      cases volume.findIn fs dir path with
      | none => rfl
      | some position =>
          simp only [Option.map_some, recorded]
          split <;> rfl

end Answers

/-! Listings. -/

/-- What the listing shows of a node. -/
def ShownAs (info : DirEntryInfo) (pair : Path × Node (List UInt8)) : Prop :=
  info.name = pair.1.map asciiLower ∧
    match pair.2 with
    | .directory => info.isDir = true
    | .file content => info.isDir = false ∧ info.size = content.length

theorem recorded_eq {entry : Fat32DirEntry} {node : Node (List UInt8)} :
    volume.recorded entry = node ↔ (entry.isDirectory = true ∧ node = .directory) ∨
      entry.isDirectory = false ∧ node = .file (volume.bytesOf entry) := by
  rw [recorded]
  cases entry.isDirectory with
  | true => simp [eq_comm]
  | false => simp [eq_comm]

section Listing

variable (geometry : fs.Geometry) (formed : WellFormed fs volume)
include geometry formed

theorem listing_tree {path : List Path} {dir : Nat}
    (led : volume.dirAt fs path fs.bpb.rootCluster.toNat = some dir) :
    ∃ entries, (volume.tree fs).Lists path entries ∧
      List.Forall₂ ShownAs (volume.listing (volume.slotsOf fs dir)) entries := by
  have live := liveDir_root.dirAt geometry formed.sound led
  obtain ⟨clusters, chain, _, records⟩ := records_of_formed formed live
  have order := formed.inOrder dir clusters live chain
  generalize slots : liveOf (volume.slotEntries fs clusters) = recordedEntries at records
  have unique := order.unique
  have plain := order.plainName
  rw [slots] at unique plain
  have found (name : Path) (named : ¬IsDotName name) : volume.child fs dir name =
      Lib.lookup Fat32DirEntry.fullNameUpper (shownEntries recordedEntries) name := by
    rw [child, if_neg named, find_live, records.slots geometry, lookup_shownEntries _ named]
  have uniqueShown : UniqueKeys Fat32DirEntry.fullNameUpper (shownEntries recordedEntries) :=
    List.Nodup.sublist (List.Sublist.map _ List.filter_sublist) unique
  have pairs : ∀ name node, (name, node) ∈ (shownEntries recordedEntries).map
      (fun entry => (entry.fullNameUpper, volume.recorded entry)) ↔
      (volume.tree fs).node (path ++ [name]) = some node := by
    intro name node
    have here : (volume.tree fs).node (path ++ [name]) =
        (volume.child fs dir name).map volume.recorded :=
      (nodeAt_below led _).trans (nodeAt_child dir name)
    rw [here, List.mem_map, Option.map_eq_some_iff]
    constructor
    · rintro ⟨entry, member, same⟩
      obtain ⟨rfl, rfl⟩ := Prod.mk.inj same
      refine ⟨entry, ?_, rfl⟩
      rw [found _ (mem_shownEntries.mp member).2]
      exact (lookup_eq_some_iff uniqueShown).mpr ⟨member, rfl⟩
    · rintro ⟨entry, search, rfl⟩
      rw [found name (child_slot search).1] at search
      obtain ⟨member, rfl⟩ := lookup_mem search
      exact ⟨entry, member, rfl⟩
  refine ⟨_, ⟨nodeAt_directory.mpr ⟨dir, led⟩, ?_, pairs⟩, ?_⟩
  · rw [List.map_map]
    exact uniqueShown
  · rw [records.listing geometry, shownOf_eq, List.forall₂_map_left_iff,
      List.forall₂_map_right_iff, List.forall₂_same]
    intro entry member
    have lossless := (plain entry member).1
    refine ⟨?_, ?_⟩
    · rw [DirEntryInfo.ofEntry, fullName_eq, asciiLower_map.fromUtf8Lossy, lossless]
    · cases directory : entry.isDirectory with
      | true => simp only [recorded, directory, if_true, DirEntryInfo.ofEntry]
      | false =>
          simp only [recorded, directory, Bool.false_eq_true, if_false, DirEntryInfo.ofEntry,
            bytesOf, length_fit, and_self]

theorem listAt_tree {path : Path} (down : Downward path)
    (through : (volume.tree fs).Through (keys path)) :
    ((volume.tree fs).node (keys path) = none ∧ volume.listAt fs path = .error .notFound) ∨
      ∃ infos entries, volume.listAt fs path = .ok infos ∧
        (volume.tree fs).Lists (keys path) entries ∧ List.Forall₂ ShownAs infos entries := by
  obtain ⟨proper, walked⟩ := walk_names geometry formed down.components.1 liveDir_root
  rw [listAt, walked (proper.mpr through), ← keys]
  cases led : volume.dirAt fs (keys path) fs.bpb.rootCluster.toNat with
  | none =>
      exact .inl ⟨node_lost through led, rfl⟩
  | some dir =>
      obtain ⟨entries, lists, shown⟩ := listing_tree geometry formed led
      exact .inr ⟨_, entries, rfl, lists, shown⟩

end Listing

end Volume

end ArcadiaOs.Fs
