import ArcadiaOs.Lib.Simulation

/-!
Trees of named nodes, given by what stands at each path, and what a server of such a tree may
answer.  A change touches the node at one path; it never turns a directory into something else.
-/

namespace ArcadiaOs.Lib

universe u v w

inductive Node (Content : Type v)
  | directory
  | file (content : Content)
  deriving DecidableEq

/-- Everything but the root stands in a directory. -/
@[ext] structure FileTree (Name : Type u) (Content : Type v) where
  node : List Name → Option (Node Content)
  root : node [] = some .directory
  closed : ∀ path name, node (path ++ [name]) ≠ none → node path = some .directory

inductive Request (Name : Type u) (Content : Type v)
  | ask (path : List Name)
  | read (path : List Name)
  | list (path : List Name)
  | store (path : List Name) (content : Content)
  | make (path : List Name)
  | remove (path : List Name)

inductive Reply (Name : Type u) (Content : Type v) (Reason : Type w)
  | found (node : Node Content)
  | content (content : Content)
  | entries (entries : List (Name × Node Content))
  | done
  | refused (reason : Reason)

/-- The request may change the node at the path. -/
def Request.Alters {Name : Type u} {Content : Type v} (path : List Name)
    (node : Option (Node Content)) : Request Name Content → Prop
  | .ask _ | .read _ | .list _ => False
  | .store target _ => target = path ∧ node ≠ some .directory
  | .make target => target = path ∧ node = none
  | .remove target => target = path ∧ ∃ content, node = some (.file content)

namespace FileTree

variable {Name : Type u} {Content : Type v}

/-- The trees differ in what stands at the path at most. -/
structure Turns (tree tree' : FileTree Name Content) (path : List Name)
    (node : Option (Node Content)) : Prop where
  here : tree'.node path = node
  elsewhere : ∀ other, other ≠ path → tree'.node other = tree.node other

/-- All that stands in a directory, each name once. -/
structure Lists (tree : FileTree Name Content) (path : List Name)
    (entries : List (Name × Node Content)) : Prop where
  directory : tree.node path = some .directory
  once : (entries.map Prod.fst).Nodup
  entry : ∀ name node, (name, node) ∈ entries ↔ tree.node (path ++ [name]) = some node

/-- No file stands on the way to the path, or at it. -/
def Through (tree : FileTree Name Content) (path : List Name) : Prop :=
  ∀ front, front <+: path → ∀ content, tree.node front ≠ some (.file content)

section Below

variable (tree : FileTree Name Content) {path below : List Name}

theorem directory_above (present : tree.node (path ++ below) ≠ none) (proper : below ≠ []) :
    tree.node path = some .directory := by
  induction below generalizing path with
  | nil => exact absurd rfl proper
  | cons name rest ih =>
      rw [List.append_cons] at present
      by_cases last : rest = []
      · rw [last, List.append_nil] at present
        exact tree.closed path name present
      · have next : tree.node (path ++ [name]) = some .directory := ih present last
        exact tree.closed path name (next ▸ Option.some_ne_none _)

end Below

theorem Turns.refl (tree : FileTree Name Content) (path : List Name) :
    tree.Turns tree path (tree.node path) := ⟨rfl, fun _ _ => rfl⟩

theorem Lists.unique {tree : FileTree Name Content} {path : List Name}
    {entries others : List (Name × Node Content)} (left : tree.Lists path entries)
    (right : tree.Lists path others) : ∀ pair, pair ∈ entries ↔ pair ∈ others :=
  fun pair => (left.entry pair.1 pair.2).trans (right.entry pair.1 pair.2).symm

/-! Answers. -/

variable {Reason : Type w} (explains : FileTree Name Content → Request Name Content → Reason → Prop)

/-- An answer that a tree allows, and the tree it leaves. -/
inductive Serves : FileTree Name Content → Request Name Content → Reply Name Content Reason →
    FileTree Name Content → Prop
  | found {tree : FileTree Name Content} {path : List Name} {node : Node Content} :
      tree.node path = some node → Serves tree (.ask path) (.found node) tree
  | content {tree : FileTree Name Content} {path : List Name} {content : Content} :
      tree.node path = some (.file content) → Serves tree (.read path) (.content content) tree
  | entries {tree : FileTree Name Content} {path : List Name}
      {entries : List (Name × Node Content)} :
      tree.Lists path entries → Serves tree (.list path) (.entries entries) tree
  | stored {tree tree' : FileTree Name Content} {path : List Name} {content : Content} :
      tree.node path ≠ some .directory → tree.Turns tree' path (some (.file content)) →
      Serves tree (.store path content) .done tree'
  | made {tree tree' : FileTree Name Content} {path : List Name} :
      tree.node path = none → tree.Turns tree' path (some .directory) →
      Serves tree (.make path) .done tree'
  | removed {tree tree' : FileTree Name Content} {path : List Name} {content : Content} :
      tree.node path = some (.file content) → tree.Turns tree' path none →
      Serves tree (.remove path) .done tree'
  | refused {tree : FileTree Name Content} {request : Request Name Content} {reason : Reason} :
      explains tree request reason → Serves tree request (.refused reason) tree

abbrev Serving : FileTree Name Content → List (Request Name Content × Reply Name Content Reason) →
    FileTree Name Content → Prop := Performance (Serves explains)

variable {explains} {tree next last : FileTree Name Content} {request : Request Name Content}
  {reply : Reply Name Content Reason}
  {trace : List (Request Name Content × Reply Name Content Reason)} {path : List Name}

/-- A request changes no node but the one it names, and no directory at all. -/
theorem Serves.keeps (served : Serves explains tree request reply next)
    (safe : ¬request.Alters path (tree.node path)) : next.node path = tree.node path := by
  have apart {target : List Name} {node : Option (Node Content)} (turns : tree.Turns next target node)
      (other : target ≠ path) : next.node path = tree.node path :=
    turns.elsewhere path other.symm
  cases served with
  | found | content | entries | refused => rfl
  | stored regular turns => exact apart turns fun same => safe ⟨same, same ▸ regular⟩
  | made absent turns => exact apart turns fun same => safe ⟨same, same ▸ absent⟩
  | removed file turns => exact apart turns fun same => safe ⟨same, _, same ▸ file⟩

theorem Serving.keeps (serving : Serving explains tree trace last)
    (safe : ∀ pair ∈ trace, ¬pair.1.Alters path (tree.node path)) :
    last.node path = tree.node path := by
  refine serving.invariant (fun other => other.node path = tree.node path) ?_ rfl
  intro other request reply next member served same
  exact (served.keeps (same ▸ safe _ member)).trans same

end FileTree

end ArcadiaOs.Lib
