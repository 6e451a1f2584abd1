import ArcadiaOs.Fs.FileAsDirectory
import ArcadiaOs.Fs.Lineage
import Mathlib.Data.List.Induction

/-!
The `cd` command of `terminal/mod.rs`.  The working directory is kept as a text: a bare `..` cuts
its last component off, whatever that is, and any other argument is put behind it.
-/

namespace ArcadiaOs.Terminal

open Lib Fs

def trimEnd (path : Path) : Path := (trimStart path.reverse).reverse

def parentText (cwd : Path) : Path :=
  match rsplit (trimEnd cwd) with
  | none => [slash]
  | some (front, _) => if front = [] then [slash] else front

def newPath (cwd target : Path) : Path :=
  if target.head? = some slash then target
  else if target = up then parentText cwd
  else absolute cwd target

/-- The text printed, or the reason of the `cd error`. -/
def cmdCd (session : Session) (args : List Path) : Except (Halt VfsError) Path × Session :=
  match args with
  | [] => (.ok session.vfs.cwd, session)
  | target :: _ =>
      let path := newPath session.vfs.cwd target
      match session.vfs.resolvePath path session.device with
      | .ok _ device => (.ok path, ⟨{ session.vfs with cwd := path }, device⟩)
      | .error halt device => (.error halt, ⟨session.vfs, device⟩)

def shell : Machine Session (List Path) (Except (Halt VfsError) Path) := ⟨cmdCd⟩

/-- The walk of the text from the root ends in the directory of the trail. -/
def Denotes (fs : Fat32Fs) (volume : Volume) (text : Path) (trail : List Nat) : Prop :=
  volume.treeWalk fs (pathComponents text) [] = some trail

def argumentWalk (fs : Fat32Fs) (volume : Volume) (trail : List Nat) (target : Path) :
    Option (List Nat) :=
  volume.treeWalk fs (pathComponents target) (if target.head? = some slash then [] else trail)

/-- When `cd` is accepted, the working directory denotes the directory that the walk of the argument
reaches from the one it denoted before.  Without an argument it stays. -/
def Moves (fs : Fat32Fs) (session : Session) (args : List Path) : Prop :=
  ∀ text, (cmdCd session args).1 = .ok text → ∃ trail reached left,
    Denotes fs (fs.view session.device) session.vfs.cwd trail ∧
    argumentWalk fs (fs.view session.device) trail (args.headD []) = some reached ∧
    Denotes fs (fs.view (cmdCd session args).2.device) (cmdCd session args).2.vfs.cwd left ∧
    trailEnd fs left = trailEnd fs reached

/-- The names of the text are all there, from the root and again from the root behind each `..`. -/
def Resolves (fs : Fat32Fs) (session : Session) (text : Path) : Prop :=
  ∃ target, Retraced fs session.vfs session.device target session.vfs.rootCluster
    (runs (pathComponents text))

def Ascends (fs : Fat32Fs) (volume : Volume) (cwd : Path) : Prop :=
  ∀ front last, rsplit (trimEnd cwd) = some (front, last) →
    (last ≠ [0x2E] ∧ last ≠ up) ∨ Denotes fs volume front []

/-- The new text does not resolve; or the argument is `..` and the old text ends in a name or in the
root; or the argument is another one and its walk stays in the tree. -/
def SafeCd (fs : Fat32Fs) (session : Session) (args : List Path) : Prop :=
  Resolves fs session (newPath session.vfs.cwd (args.headD [])) →
    if args.headD [] = up then Ascends fs (fs.view session.device) session.vfs.cwd
    else ∃ trail, Denotes fs (fs.view session.device) session.vfs.cwd trail ∧
      (argumentWalk fs (fs.view session.device) trail (args.headD [])).isSome

theorem trimEnd_slash (path : Path) : trimEnd (path ++ [slash]) = trimEnd path := by
  rw [trimEnd, trimEnd, List.reverse_append, List.reverse_singleton, List.singleton_append,
    trimStart_slash]

theorem trimEnd_other (path : Path) {byte : UInt8} (other : byte ≠ slash) :
    trimEnd (path ++ [byte]) = path ++ [byte] := by
  have head : (path ++ [byte]).reverse.head? ≠ some slash := by
    rw [List.reverse_append]
    exact fun same => other (Option.some.inj same)
  rw [trimEnd, trimStart_eq_self head, List.reverse_reverse]

theorem trimEnd_last (path front : Path) : trimEnd path ≠ front ++ [slash] := by
  intro ended
  have head := trimStart_head path.reverse
  rw [trimEnd, List.reverse_eq_iff, List.reverse_append] at ended
  rw [ended] at head
  exact head rfl

section Texts

variable {fs : Fat32Fs} {volume : Volume}

theorem treeWalk_trimEnd (text : Path) (trail : List Nat) :
    volume.treeWalk fs (components (trimEnd text)) trail =
      volume.treeWalk fs (components text) trail := by
  induction text using List.reverseRecOn with
  | nil => rfl
  | append_singleton front byte ih =>
      by_cases same : byte = slash
      · subst same
        rw [trimEnd_slash, ih, Volume.treeWalk_trailing]
      · rw [trimEnd_other front same]

theorem denotes_iff {text : Path} {trail : List Nat} : Denotes fs volume text trail ↔
    volume.treeWalk fs (components text) [] = some trail := by
  rw [Denotes, Volume.treeWalk_components]

theorem step_cases {last : Path} {left trail : List Nat}
    (walked : volume.treeWalk fs [last] left = some trail) :
    (last = [] ∨ last = [0x2E]) ∧ trail = left ∨ last = up ∧ trail = left.tail ∨
      (last ≠ [0x2E] ∧ last ≠ up) ∧ ∃ cluster, trail = cluster :: left := by
  simp only [Volume.treeWalk] at walked
  split at walked
  · rename_i stay
    exact .inl ⟨stay, (Option.some.inj walked).symm⟩
  split at walked
  · rename_i upward
    exact .inr (.inl ⟨upward, (Option.some.inj walked).symm⟩)
  · rename_i notStay notUp
    right
    right
    refine ⟨⟨fun dot => notStay (.inr dot), notUp⟩, ?_⟩
    split at walked
    · cases walked
    · split at walked
      · exact ⟨_, (Option.some.inj walked).symm⟩
      · cases walked

theorem eq_tail_iff {left : List Nat} : left = left.tail ↔ left = [] := by
  cases left with
  | nil => simp
  | cons first rest => simp

theorem eq_tail_tail_iff {left : List Nat} : left = left.tail.tail ↔ left = [] := by
  constructor
  · intro same
    have length := congrArg List.length same
    simp only [List.length_tail] at length
    exact List.eq_nil_of_length_eq_zero (by omega)
  · rintro rfl
    rfl

theorem denotes_parentText {cwd : Path} {trail : List Nat} (denotes : Denotes fs volume cwd trail) :
    ∃ left, Denotes fs volume (parentText cwd) left ∧ (left = trail.tail ↔ Ascends fs volume cwd) := by
  rw [denotes_iff, ← treeWalk_trimEnd] at denotes
  rw [parentText]
  cases split : rsplit (trimEnd cwd) with
  | none =>
      rw [components_single (rsplit_none split)] at denotes
      have ascends : Ascends fs volume cwd := by
        intro front last again
        rw [split] at again
        cases again
      -- one component reaches no further than below the root
      refine ⟨[], rfl, iff_of_true ?_ ascends⟩
      rcases step_cases denotes with ⟨_, rfl⟩ | ⟨_, rfl⟩ | ⟨_, _, rfl⟩
      · rfl
      · rfl
      · rfl
  | some parts =>
      obtain ⟨front, last⟩ := parts
      obtain ⟨whole, plain⟩ := rsplit_some split
      rw [whole, components_slash, components_single plain, Volume.treeWalk_append,
        Option.bind_eq_some_iff] at denotes
      obtain ⟨left, walked, denotes⟩ := denotes
      have named : last ≠ [] := by
        rintro rfl
        exact trimEnd_last cwd front whole
      have root : Denotes fs volume front [] ↔ left = [] := by
        rw [denotes_iff, walked, Option.some.injEq]
      have ascends : Ascends fs volume cwd ↔ (last ≠ [0x2E] ∧ last ≠ up) ∨ left = [] := by
        rw [← root]
        constructor
        · exact fun all => all front last split
        · intro one other name again
          rw [split, Option.some.injEq, Prod.mk.injEq] at again
          obtain ⟨rfl, rfl⟩ := again
          exact one
      refine ⟨left, ?_, ?_⟩
      · simp only
        split
        · rename_i empty
          rw [empty] at walked
          exact walked
        · exact denotes_iff.mpr walked
      · rw [ascends]
        rcases step_cases denotes with ⟨stay, rfl⟩ | ⟨rfl, rfl⟩ | ⟨proper, _, rfl⟩
        · rw [eq_tail_iff, or_iff_right fun proper => proper.1 (stay.resolve_left named)]
        · rw [eq_tail_tail_iff, or_iff_right fun proper => proper.2 rfl]
        · exact iff_of_true rfl (.inl proper)

theorem argumentWalk_up (trail : List Nat) : argumentWalk fs volume trail up = some trail.tail := rfl

theorem walk_newPath {cwd target : Path} {trail : List Nat} (denotes : Denotes fs volume cwd trail)
    (other : target ≠ up) : volume.treeWalk fs (pathComponents (newPath cwd target)) [] =
      argumentWalk fs volume trail target := by
  rw [newPath, argumentWalk]
  split
  · rfl
  · obtain ⟨front, joined, ended⟩ := absolute_eq cwd target
    have before : volume.treeWalk fs (components front) [] = some trail := by
      rw [denotes_iff] at denotes
      rcases ended with rfl | rfl
      · exact denotes
      · rw [Volume.treeWalk_trailing] at denotes
        exact denotes
    rw [joined, ← Volume.treeWalk_components, components_slash, Volume.treeWalk_append,
      before, Option.bind_some, Volume.treeWalk_components]

end Texts

section Commands

variable {fs : Fat32Fs} (geometry : fs.Geometry) {session : Session} (ready : session.Ready fs)
include geometry ready

theorem cmdCd_cases (target : Path) (others : List Path) :
    Resolves fs session (newPath session.vfs.cwd target) ∧
      cmdCd session (target :: others) = (.ok (newPath session.vfs.cwd target),
        ⟨{ session.vfs with cwd := newPath session.vfs.cwd target }, session.device⟩) ∨
    ¬Resolves fs session (newPath session.vfs.cwd target) ∧
      ∃ halt, cmdCd session (target :: others) = (.error halt, session) := by
  have resolves (cluster : Nat) :
      session.vfs.resolvePath (newPath session.vfs.cwd target) session.device =
        .ok cluster session.device ↔ Retraced fs session.vfs session.device cluster
          session.vfs.rootCluster (runs (pathComponents (newPath session.vfs.cwd target))) := by
    rw [ready.mounted.resolvePath_eq]
    exact follows_iff geometry ready.healthy _ _ _
  have same := session.vfs.resolvePath_readOnly (newPath session.vfs.cwd target) session.device
  simp only [cmdCd]
  cases ran : session.vfs.resolvePath (newPath session.vfs.cwd target) session.device with
  | ok cluster device =>
      rw [ran] at same
      obtain rfl : device = session.device := same
      exact .inl ⟨⟨cluster, (resolves cluster).mp ran⟩, rfl⟩
  | error halt device =>
      rw [ran] at same
      obtain rfl : device = session.device := same
      refine .inr ⟨?_, halt, rfl⟩
      rintro ⟨cluster, retraced⟩
      rw [(resolves cluster).mpr retraced] at ran
      cases ran

theorem cmdCd_ready (args : List Path) : (cmdCd session args).2.Ready fs := by
  cases args with
  | nil => exact ready
  | cons target others =>
      rcases cmdCd_cases geometry ready target others with ⟨_, ran⟩ | ⟨_, halt, ran⟩
      · rw [ran]
        exact ⟨ready.mounted.moved _, ready.healthy, ready.sound⟩
      · rw [ran]
        exact ready

variable {trail : List Nat}
  (denotes : Denotes fs (fs.view session.device) session.vfs.cwd trail)
include denotes

theorem moves_up_iff (others : List Path) :
    Moves fs session (up :: others) ↔ SafeCd fs session (up :: others) := by
  have line : (fs.view session.device).Lineage fs trail := Volume.treeWalk_lineage .root denotes
  have text : newPath session.vfs.cwd up = parentText session.vfs.cwd := rfl
  obtain ⟨left, denotes', ascends⟩ := denotes_parentText denotes
  rw [SafeCd, List.headD_cons, if_pos rfl, ← ascends]
  rcases cmdCd_cases geometry ready up others with ⟨resolves, ran⟩ | ⟨fails, halt, ran⟩
  · rw [Moves, ran, List.headD_cons, text]
    constructor
    · intro moves _
      obtain ⟨before, reached, after, same, walked, denotes'', ended⟩ := moves _ rfl
      obtain rfl : trail = before := Option.some.inj (denotes.symm.trans same)
      obtain rfl : trail.tail = reached := Option.some.inj ((argumentWalk_up trail).symm.trans walked)
      obtain rfl : left = after := Option.some.inj (denotes'.symm.trans denotes'')
      -- the last clusters agree, and a directory has one line of directories above it
      have leftLine : (fs.view session.device).Lineage fs left :=
        Volume.treeWalk_lineage .root denotes'
      exact leftLine.unique geometry ready.sound line.tail ended
    · intro safe _ _
      have same := safe resolves
      exact ⟨trail, trail.tail, left, denotes, argumentWalk_up trail, denotes', by rw [same]⟩
  · rw [Moves, ran]
    exact iff_of_true nofun fun resolves => absurd resolves fails

theorem moves_other_iff {target : Path} (other : target ≠ up) (others : List Path) :
    Moves fs session (target :: others) ↔ SafeCd fs session (target :: others) := by
  have text := walk_newPath denotes other
  rw [SafeCd, List.headD_cons, if_neg other]
  rcases cmdCd_cases geometry ready target others with ⟨resolves, ran⟩ | ⟨fails, halt, ran⟩
  · rw [Moves, ran, List.headD_cons]
    constructor
    · intro moves _
      obtain ⟨before, reached, after, same, walked, _⟩ := moves _ rfl
      exact ⟨before, same, by rw [walked]; rfl⟩
    · intro safe _ _
      obtain ⟨before, same, stays⟩ := safe resolves
      obtain rfl : trail = before := Option.some.inj (denotes.symm.trans same)
      obtain ⟨reached, walked⟩ := Option.isSome_iff_exists.mp stays
      exact ⟨trail, reached, reached, denotes, walked, text.trans walked, rfl⟩
  · rw [Moves, ran]
    exact iff_of_true nofun fun resolves => absurd resolves fails

theorem moves_iff (args : List Path) : Moves fs session args ↔ SafeCd fs session args := by
  cases args with
  | nil =>
      have stays : argumentWalk fs (fs.view session.device) trail [] = some trail := rfl
      refine iff_of_true ?_ fun _ => ?_
      · exact fun _ _ => ⟨trail, trail, trail, denotes, stays, denotes, rfl⟩
      · exact ⟨trail, denotes, rfl⟩
  | cons target others =>
      by_cases upward : target = up
      · subst upward
        exact moves_up_iff geometry ready denotes others
      · exact moves_other_iff geometry ready denotes upward others

theorem moves_denotes {args : List Path} (moves : Moves fs session args) :
    ∃ left, Denotes fs (fs.view (cmdCd session args).2.device) (cmdCd session args).2.vfs.cwd left := by
  cases args with
  | nil => exact ⟨trail, denotes⟩
  | cons target others =>
      rcases cmdCd_cases geometry ready target others with ⟨_, ran⟩ | ⟨_, halt, ran⟩
      · obtain ⟨_, _, left, _, _, denotes', _⟩ := moves _ (by rw [ran])
        exact ⟨left, denotes'⟩
      · rw [ran]
        exact ⟨trail, denotes⟩

/-- Every `cd` of a run moves as its argument says exactly when every one of them is safe. -/
theorem cd_moves_iff (commands : List (List Path)) :
    shell.Meets (Moves fs) session commands ↔ shell.Meets (SafeCd fs) session commands := by
  refine shell.meets_congr (fun session => session.Ready fs ∧
    ∃ trail, Denotes fs (fs.view session.device) session.vfs.cwd trail) _ _ ?_ ?_ session commands
    ⟨ready, trail, denotes⟩
  · rintro session args ⟨ready, trail, denotes⟩
    exact moves_iff geometry ready denotes args
  · rintro session args ⟨ready, trail, denotes⟩ moves
    exact ⟨cmdCd_ready geometry ready args, moves_denotes geometry ready denotes moves⟩

end Commands

theorem nested_root :
    Denotes smallFs (smallFs.view nestedSession.device) nestedSession.vfs.cwd [] := by
  rw [nested_ready.2.1]
  rfl

theorem cd_moves_down : shell.Meets (Moves smallFs) nestedSession [[[0x41]]] ↔
    shell.Meets (SafeCd smallFs) nestedSession [[[0x41]]] :=
  cd_moves_iff smallFs_geometry nested_ready.1 nested_root _

def upTwice : List (List Path) := [[[0x41, 0x2F, 0x42, 0x2F, 0x2E, 0x2E]], [up]]

theorem astray_answers :
    (shell.events nestedSession upTwice).map (fun event => event.answer) =
        [.ok [0x2F, 0x41, 0x2F, 0x42, 0x2F, 0x2E, 0x2E], .ok [0x2F, 0x41, 0x2F, 0x42]] ∧
      (shell.events nestedSession [[[0x2F, 0x46]]]).map (fun event => event.answer) =
        [.ok [0x2F, 0x46]] ∧
      (cmdCd nestedSession [[0x2F, 0x46]]).1 = .ok [0x2F, 0x46] := by
  decide +kernel

theorem astray_walks : let first := (shell.step nestedSession [[0x41, 0x2F, 0x42, 0x2F, 0x2E, 0x2E]]).2
    (cmdCd first [up]).1 = .ok [0x2F, 0x41, 0x2F, 0x42] ∧
      (smallFs.view first.device).treeWalk smallFs (pathComponents first.vfs.cwd) [] = some [3] ∧
      (smallFs.view (cmdCd first [up]).2.device).treeWalk smallFs
        (pathComponents (cmdCd first [up]).2.vfs.cwd) [] = some [4, 3] := by
  decide +kernel

/-- The two lead from the root through `/A` to `/A/B`, and `cd /F` into a regular file. -/
theorem cd_goes_astray : nestedSession.Ready smallFs ∧
    Denotes smallFs (smallFs.view nestedSession.device) nestedSession.vfs.cwd [] ∧
    (shell.events nestedSession upTwice).map (fun event => event.answer) =
      [.ok [0x2F, 0x41, 0x2F, 0x42, 0x2F, 0x2E, 0x2E], .ok [0x2F, 0x41, 0x2F, 0x42]] ∧
    ¬shell.Meets (Moves smallFs) nestedSession upTwice ∧
    (shell.events nestedSession [[[0x2F, 0x46]]]).map (fun event => event.answer) =
      [.ok [0x2F, 0x46]] ∧
    ¬shell.Meets (Moves smallFs) nestedSession [[[0x2F, 0x46]]] := by
  obtain ⟨astray, intoFile, entered⟩ := astray_answers
  refine ⟨nested_ready.1, nested_root, astray, ?_, intoFile, ?_⟩
  · rintro ⟨_, second, _⟩
    obtain ⟨accepted, walkedBefore, walkedAfter⟩ := astray_walks
    obtain ⟨trail, reached, left, before, walked, after, ended⟩ := second _ accepted
    obtain rfl : [3] = trail := Option.some.inj (walkedBefore.symm.trans before)
    obtain rfl : [4, 3] = left := Option.some.inj (walkedAfter.symm.trans after)
    rw [List.headD_cons, argumentWalk_up, List.tail_cons, Option.some.injEq] at walked
    rw [← walked] at ended
    exact absurd ended (by decide)
  · rintro ⟨first, _⟩
    obtain ⟨trail, reached, _, _, walked, _⟩ := first [0x2F, 0x46] entered
    have file : smallFs.view nestedSession.device = nestedVolume := nested_ready.2.2
    have none : nestedVolume.treeWalk smallFs [[0x46]] [] = none := by decide
    rw [file] at walked
    cases none.symm.trans walked

end ArcadiaOs.Terminal
