import ArcadiaOs.Fs.TreeCalls
import ArcadiaOs.Terminal.Words

/-!
The file commands as scripts of requests to the file tree.  On a healthy device each command finds
its requests served and prints what its script says of the replies.
-/

namespace ArcadiaOs.Terminal

open Lib Fs

abbrev Exchange := TreeRequest × TreeReply

/-- What a command prints of the last reply. -/
def told (command : String) (success : Text) : TreeReply → Text
  | .refused reason => failed command reason
  | _ => success

def quietText (cwd : Path) (word : Line) : Command → List Path → Option Text
  | .echo, args => some (println (join args))
  | .hostname, _ => some (println (text "arcadia"))
  | .whoami, _ => some (println (text "root"))
  | .pwd, _ | .cd, [] => some (println cwd)
  | .cat, [] => some (println (text "Usage: cat <file>"))
  | .touch, [] => some (println (text "Usage: touch <file>"))
  | .mkdir, [] => some (println (text "Usage: mkdir <directory>"))
  | .write, [] | .write, [_] => some (println (text "Usage: write <file> <data>"))
  | .rm, [] => some (println (text "Usage: rm <file>"))
  | .unknown, _ => some (println (text "Unknown command: '" ++ encode word ++
      text "'. Type 'help' for commands."))
  | _, _ => none

/-- The requests of a command with the replies, the text it prints and the working directory it
leaves. -/
inductive Script (cwd : Path) (word : Line) :
    Command → List Path → List Exchange → Text → Path → Prop
  | quiet {command : Command} {args : List Path} {text : Text} :
      quietText cwd word command args = some text → Script cwd word command args [] text cwd
  | ls {args : List Path} {infos : List DirEntryInfo} {entries : List (Path × Node (List UInt8))} :
      List.Forall₂ ShownAs infos entries → Script cwd word .ls args
        [(.list (keys (args.headD cwd)), .entries entries)]
        (listText (args.headD cwd) (infos.map nodeOf)) cwd
  | lsFailed {args : List Path} {reason : VfsError} : Script cwd word .ls args
      [(.list (keys (args.headD cwd)), .refused reason)] (failed "ls" reason) cwd
  | cat {path : Path} {rest : List Path} {content : List UInt8} : Script cwd word .cat
      (path :: rest) [(.read (keys path), .content content)] (catText content) cwd
  | catFailed {path : Path} {rest : List Path} {reason : VfsError} : Script cwd word .cat
      (path :: rest) [(.read (keys path), .refused reason)] (failed "cat" reason) cwd
  | touchFound {path : Path} {rest : List Path} {node : Node (List UInt8)} : Script cwd word .touch
      (path :: rest) [(.ask (keys path), .found node)] (println (text "Exists: " ++ path)) cwd
  | touch {path : Path} {rest : List Path} {reply : TreeReply} : Script cwd word .touch
      (path :: rest) [(.ask (keys path), .refused .notFound), (.store (keys path) [], reply)]
      (told "touch" (println (text "Created: " ++ path)) reply) cwd
  | mkdir {path : Path} {rest : List Path} {reply : TreeReply} : Script cwd word .mkdir
      (path :: rest) [(.make (keys path), reply)]
      (told "mkdir" (println (text "Created directory: " ++ path)) reply) cwd
  | write {path first : Path} {rest : List Path} {reply : TreeReply} : Script cwd word .write
      (path :: first :: rest) [(.store (keys path) (join (first :: rest)), reply)]
      (told "write" (println (text "Wrote " ++ decimal (join (first :: rest)).length ++
        text " bytes to " ++ path)) reply) cwd
  | rmDirectory {path : Path} {rest : List Path} : Script cwd word .rm (path :: rest)
      [(.ask (keys path), .found .directory)]
      (println (text "rm error: cannot remove directory (use rmdir)")) cwd
  | rmAbsent {path : Path} {rest : List Path} : Script cwd word .rm (path :: rest)
      [(.ask (keys path), .refused .notFound)] (failed "rm" .notFound) cwd
  | rm {path : Path} {rest : List Path} {content : List UInt8} {reply : TreeReply} :
      Script cwd word .rm (path :: rest)
        [(.ask (keys path), .found (.file content)), (.remove (keys path), reply)]
        (told "rm" (println (text "Deleted: " ++ path)) reply) cwd
  | cd {target : Path} {rest : List Path} : Script cwd word .cd (target :: rest)
      [(.ask (keys (newPath cwd target)), .found .directory)] (println (newPath cwd target))
      (newPath cwd target)
  | cdFailed {target : Path} {rest : List Path} : Script cwd word .cd (target :: rest)
      [(.ask (keys (newPath cwd target)), .refused .notFound)] (failed "cd" .notFound) cwd

/-- The path may be given to a new entry. -/
structure Makes (fs : Fat32Fs) (volume : Volume) (path : Path) : Prop extends
    volume.Located fs path where
  valid : Valid83 (fileName path)
  roomy : ∀ dir, volume.parentOf fs path = .ok dir → volume.Roomy fs dir

/-- The path names a place, with no file there either. -/
structure Visits (fs : Fat32Fs) (volume : Volume) (path : Path) : Prop where
  down : Downward path
  through : (volume.tree fs).Through (keys path)

/-- What a command takes for granted of its arguments. -/
def Allowed (fs : Fat32Fs) (vfs : VfsManager) (volume : Volume) : Command → List Path → Prop
  | .ls, args => Visits fs volume (args.headD vfs.cwd)
  | .cat, path :: _ => volume.Located fs path
  | .touch, path :: _ => Makes fs volume path ∧ Anchored vfs path
  | .mkdir, path :: _ => Makes fs volume path
  | .write, path :: _ :: _ => Makes fs volume path
  | .rm, path :: _ => volume.Located fs path ∧ Anchored vfs path
  | .cd, target :: _ => Visits fs volume (newPath vfs.cwd target)
  | .foreign, _ => False
  | _, _ => True

theorem attempt_runs {fs : Fat32Fs} {ε α : Type} {action : Disk ε α} {volume volume' : Volume}
    {result : Except ε α} (ran : Runs fs action volume result volume') :
    Runs fs (attempt action) volume (.ok result) volume' := by
  intro device healthy holds
  obtain ⟨device', answered, healthy', holds'⟩ := ran device healthy holds
  refine ⟨device', ?_, healthy', holds'⟩
  rw [attempt, answered]
  cases result with
  | ok value => rfl
  | error reason => rfl

/-- The action prints what the script says of its requests, which the tree serves. -/
def Performed (fs : Fat32Fs) (volume : Volume) (action : Disk Empty Text)
    (script : List Exchange → Text → Prop) : Prop :=
  ∃ trace text volume', Runs fs action volume (.ok text) volume' ∧ WellFormed fs volume' ∧
    script trace text ∧ FileTree.Serving Explains (volume.tree fs) trace (volume'.tree fs)

theorem Performed.after {fs : Fat32Fs} {volume : Volume} {α : Type} {first : Disk Empty α} {value : α}
    (asked : Runs fs first volume (.ok value) volume) {next : α → Disk Empty Text}
    {script : List Exchange → Text → Prop} (performed : Performed fs volume (next value) script) :
    Performed fs volume (first >>= next) script := by
  obtain ⟨trace, text, volume', ran, rest⟩ := performed
  exact ⟨trace, text, volume', .bind asked ran, rest⟩

section Commands

variable {fs : Fat32Fs} (geometry : fs.Geometry) {vfs : VfsManager} (mounted : Mounted fs vfs)
  {volume : Volume} (formed : WellFormed fs volume) (word : Line) {path : Path} (rest : List Path)

include formed in
theorem quiet_performed {command : Command} {args : List Path} {text : Text}
    (quiet : quietText vfs.cwd word command args = some text) :
    Performed fs volume (pure text) (Script vfs.cwd word command args · · vfs.cwd) :=
  ⟨[], text, volume, Runs.pure _, formed, .quiet quiet, .nil⟩

theorem told_performed {action : Disk VfsError Unit} {effect : Except VfsError Unit × Volume}
    (ran : Runs fs action volume effect.1 effect.2) {request : TreeRequest}
    (served : volume.Served fs request effect) {before : List Exchange}
    (asked : FileTree.Serving Explains (volume.tree fs) before (volume.tree fs))
    {command : String} {success : Text} {script : List Exchange → Text → Prop}
    (tells : ∀ reply, script (before ++ [(request, reply)]) (told command success reply)) :
    Performed fs volume (attempt action >>= fun
      | .ok _ => pure success
      | .error reason => pure (failed command reason)) script := by
  refine ⟨_, told command success (replyOf effect.1), effect.2, .bind (attempt_runs ran) ?_,
    served.formed, tells _, asked.append (.single served.served)⟩
  cases effect.1 with
  | ok _ => exact Runs.pure _
  | error reason => exact Runs.pure _

include geometry mounted formed

theorem cat_performed (located : volume.Located fs path) :
    Performed fs volume (cmdCat vfs (path :: rest))
      (Script vfs.cwd word .cat (path :: rest) · · vfs.cwd) := by
  have proper := located.proper geometry formed
  have ran := mounted.readFileContent_runs geometry formed.sound proper
  rw [Volume.readContent_tree geometry formed located] at ran
  match node : (volume.tree fs).node (keys path) with
  | none =>
      have explained : Explains (volume.tree fs) (.read (keys path)) .notFound := node
      rw [node] at ran
      exact ⟨_, _, volume, .bind (attempt_runs ran) (Runs.pure _), formed, .catFailed,
        .single (.refused explained)⟩
  | some .directory =>
      have explained : Explains (volume.tree fs) (.read (keys path)) .notAFile := node
      rw [node] at ran
      exact ⟨_, _, volume, .bind (attempt_runs ran) (Runs.pure _), formed, .catFailed,
        .single (.refused explained)⟩
  | some (.file content) =>
      rw [node] at ran
      exact ⟨_, _, volume, .bind (attempt_runs ran) (Runs.pure _), formed, .cat,
        .single (.content node)⟩

theorem ls_performed (args : List Path) (visits : Visits fs volume (args.headD vfs.cwd)) :
    Performed fs volume (cmdLs vfs args) (Script vfs.cwd word .ls args · · vfs.cwd) := by
  have proper := (Volume.walk_names geometry formed visits.down.components.1 Volume.liveDir_root).1
  have ran := mounted.listDir_runs geometry formed.sound (proper.mpr visits.through)
  rcases Volume.listAt_tree geometry formed visits.down visits.through with ⟨node, answer⟩ |
    ⟨infos, entries, answer, lists, shown⟩
  · have explained : Explains (volume.tree fs) (.list (keys (args.headD vfs.cwd))) .notFound := node
    rw [answer] at ran
    exact ⟨_, _, volume, .bind (attempt_runs ran) (Runs.pure _), formed, .lsFailed,
      .single (.refused explained)⟩
  · rw [answer] at ran
    exact ⟨_, _, volume, .bind (attempt_runs ran) (Runs.pure _), formed, .ls shown,
      .single (.entries lists)⟩

variable (shaped : volume.Shaped fs)
include shaped

theorem mkdir_performed (makes : Makes fs volume path) :
    Performed fs volume (cmdMkdir vfs (path :: rest))
      (Script vfs.cwd word .mkdir (path :: rest) · · vfs.cwd) := by
  have proper := makes.proper geometry formed
  exact told_performed (mounted.mkdir_runs geometry formed.sound proper)
    (Volume.mkdir_served geometry formed makes.toLocated shaped makes.valid makes.roomy)
    .nil fun _ => .mkdir

theorem write_performed (makes : Makes fs volume path) (first : Path)
    (fits : (join (first :: rest)).length ≤ fs.bpb.clusterSizeBytes) :
    Performed fs volume (cmdWrite vfs (path :: first :: rest))
      (Script vfs.cwd word .write (path :: first :: rest) · · vfs.cwd) := by
  have proper := makes.proper geometry formed
  exact told_performed (mounted.createFile_runs geometry formed.sound proper _)
    (Volume.createFile_served geometry formed makes.toLocated shaped makes.valid makes.roomy fits)
    .nil fun _ => .write

theorem touch_performed (makes : Makes fs volume path) (anchored : Anchored vfs path) :
    Performed fs volume (cmdTouch vfs (path :: rest))
      (Script vfs.cwd word .touch (path :: rest) · · vfs.cwd) := by
  have proper := makes.proper geometry formed
  have clean := makes.toLocated.anchored anchored
  have asked := attempt_runs (mounted.stat_runs geometry formed.sound proper makes.named
    (clean.proper geometry formed) clean.named)
  rcases Volume.statAt_tree geometry formed makes.toLocated clean with
    ⟨node, answer⟩ | ⟨node, info, _, found, answer, _⟩
  · rw [anchored.keys, or_self] at node
    have explained : Explains (volume.tree fs) (.ask (keys path)) .notFound := node
    rw [answer] at asked
    refine .after asked ?_
    exact told_performed (mounted.createFile_runs geometry formed.sound proper [])
      (Volume.createFile_served geometry formed makes.toLocated shaped makes.valid makes.roomy
        (Nat.zero_le _)) (.single (.refused explained)) fun _ => .touch
  · rw [anchored.keys] at found
    rw [answer] at asked
    exact ⟨_, _, volume, .bind asked (Runs.pure _), formed, .touchFound, .single (.found found)⟩

theorem rm_performed (located : volume.Located fs path) (anchored : Anchored vfs path) :
    Performed fs volume (cmdRm vfs (path :: rest))
      (Script vfs.cwd word .rm (path :: rest) · · vfs.cwd) := by
  have proper := located.proper geometry formed
  have clean := located.anchored anchored
  have asked := attempt_runs (mounted.stat_runs geometry formed.sound proper located.named
    (clean.proper geometry formed) clean.named)
  rcases Volume.statAt_tree geometry formed located clean with
    ⟨node, answer⟩ | ⟨node, info, _, found, answer, directory⟩
  · rw [anchored.keys, or_self] at node
    have explained : Explains (volume.tree fs) (.ask (keys path)) .notFound := node
    rw [answer] at asked
    exact ⟨_, _, volume, .bind asked (Runs.pure _), formed, .rmAbsent,
      .single (.refused explained)⟩
  · rw [anchored.keys] at found
    rw [answer] at asked
    cases node with
    | directory =>
        refine ⟨_, _, volume, .bind asked ?_, formed, .rmDirectory, .single (.found found)⟩
        simp only [if_pos (directory.mpr rfl)]
        exact Runs.pure _
    | file content =>
        have leaf : (volume.tree fs).node (keys path) ≠ some .directory := by
          rw [found]
          exact fun same => nomatch same
        have regular : ¬info.isDir = true := fun is => nomatch directory.mp is
        refine .after asked ?_
        simp only [if_neg regular]
        refine told_performed (mounted.delete_runs geometry formed.sound proper ?_)
          (Volume.delete_served geometry formed located shaped leaf)
          (.single (.found found)) fun _ => .rm
        exact fun _ _ parent search => Mounted.chain_of_spared geometry formed.sound proper
          (Volume.sparesDots_of_named located.named) parent search

end Commands

end ArcadiaOs.Terminal
