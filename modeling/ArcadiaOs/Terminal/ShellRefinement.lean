import ArcadiaOs.Terminal.ShellAnswers

/-!
The shell as a specification on a file tree and a working directory.  A run of lines whose arguments
are proper names follows it, so that directories stay for good and a file keeps what was written to
it until it is written or removed.
-/

namespace ArcadiaOs.Terminal

open Lib Fs

def words (line : Line) : List Line := splitWhitespace (trim line)

/-- What the shell is for: a file tree, and the directory `cd` has left. -/
structure Desk where
  tree : Tree
  cwd : Path

/-- The specification of a line. -/
inductive Performs : Desk → Line → Outcome → Desk → Prop
  | blank {desk : Desk} {line : Line} : words line = [] → Performs desk line (.printed []) desk
  | command {desk desk' : Desk} {line cmd : Line} {args : List Line} {trace : List Exchange}
      {text : Text} : words line = cmd :: args →
      Script desk.cwd cmd (Command.ofWord cmd) (args.map encode) trace text desk'.cwd →
      FileTree.Serving Explains desk.tree trace desk'.tree →
      Performs desk line (.printed text) desk'

/-- A line as `read_line` takes it, with arguments the command can rely on. -/
def Gentle (fs : Fat32Fs) (session : Session) (line : Line) : Prop :=
  (encode line).length ≤ sectorSize ∧
    match words line with
    | [] => True
    | cmd :: args =>
        Allowed fs session.vfs (fs.view session.device) (Command.ofWord cmd) (args.map encode)

/-- A mounted file system on a healthy device, with a well-formed volume. -/
structure Tidy (fs : Fat32Fs) (session : Session) : Prop where
  mounted : Mounted fs session.vfs
  healthy : session.device.Healthy
  formed : WellFormed fs (fs.view session.device)

def desk (fs : Fat32Fs) (session : Session) : Desk :=
  ⟨(fs.view session.device).tree fs, session.vfs.cwd⟩

theorem Tidy.ready {fs : Fat32Fs} {session : Session} (tidy : Tidy fs session) :
    session.Ready fs := ⟨tidy.mounted, tidy.healthy, tidy.formed.sound⟩

theorem processCommand_cases (session : Session) (line : Line) :
    words line = [] ∧ processCommand session line = (.printed [], session) ∨
      ∃ cmd args, words line = cmd :: args ∧
        processCommand session line = dispatch session cmd (args.map encode) := by
  by_cases blank : trim line = []
  · exact .inl ⟨by rw [words, blank]; rfl, by simp only [processCommand, if_pos blank]⟩
  · obtain ⟨cmd, args, split⟩ := List.exists_cons_of_ne_nil (splitWhitespace_trim blank)
    exact .inr ⟨cmd, args, split, by simp only [processCommand, if_neg blank, split]⟩

section Steps

variable {fs : Fat32Fs} {session : Session} (tidy : Tidy fs session)

/-- What the specification of a line has to allow, and what holds behind it. -/
def Follows (fs : Fat32Fs) (session : Session) (word : Line) (args : List Path)
    (effect : Outcome × Session) : Prop :=
  ∃ trace text, effect.1 = .printed text ∧ Tidy fs effect.2 ∧
    Script session.vfs.cwd word (Command.ofWord word) args trace text effect.2.vfs.cwd ∧
    FileTree.Serving Explains (desk fs session).tree trace (desk fs effect.2).tree

include tidy

theorem runCommand_prints {action : Disk Empty Text} {text : Text} {volume' : Volume}
    (ran : Runs fs action (fs.view session.device) (.ok text) volume') :
    ∃ device, runCommand session action = (.printed text, ⟨session.vfs, device⟩) ∧
      device.Healthy ∧ fs.view device = volume' := by
  obtain ⟨device, answered, healthy, holds⟩ := ran session.device tidy.healthy rfl
  refine ⟨device, ?_, healthy, holds⟩
  rw [runCommand, answered]
  rfl

theorem runCommand_follows {word : Line} {args : List Path} {action : Disk Empty Text}
    (performed : Performed fs (fs.view session.device) action
      (Script session.vfs.cwd word (Command.ofWord word) args · · session.vfs.cwd)) :
    Follows fs session word args (runCommand session action) := by
  obtain ⟨trace, text, volume', ran, formed, script, serving⟩ := performed
  obtain ⟨device, effect, healthy, holds⟩ := runCommand_prints tidy ran
  rw [effect]
  refine ⟨trace, text, rfl, ⟨tidy.mounted, healthy, ?_⟩, script, ?_⟩
  · rw [holds]
    exact formed
  · rw [← holds] at serving
    exact serving

theorem quiet_follows {word : Line} {args : List Path} {text : Text}
    (quiet : quietText session.vfs.cwd word (Command.ofWord word) args = some text) :
    Follows fs session word args (.printed text, session) :=
  ⟨[], text, rfl, tidy, .quiet quiet, .nil⟩

variable (geometry : fs.Geometry)
include geometry

theorem runCd_follows {word : Line} {target : Path} (rest : List Path)
    (cd : Command.ofWord word = .cd)
    (visits : Visits fs (fs.view session.device) (newPath session.vfs.cwd target)) :
    Follows fs session word (target :: rest) (runCd session (target :: rest)) := by
  have formed := tidy.formed
  obtain ⟨proper, walked⟩ :=
    Volume.walk_names geometry formed visits.down.components.1 Volume.liveDir_root
  have ran := tidy.mounted.resolvePath_runs geometry formed.sound (proper.mpr visits.through)
  rw [walked (proper.mpr visits.through), ← keys] at ran
  cases led : (fs.view session.device).dirAt fs (keys (newPath session.vfs.cwd target))
      fs.bpb.rootCluster.toNat with
  | none =>
      rw [led] at ran
      obtain ⟨device', answered, healthy, holds⟩ := ran session.device tidy.healthy rfl
      have effect : runCd session (target :: rest) =
          (.printed (failed "cd" .notFound), ⟨session.vfs, device'⟩) := by
        simp only [runCd, cmdCd, answered, outcome]
      have explained : Explains (desk fs session).tree
          (.ask (keys (newPath session.vfs.cwd target))) .notFound :=
        Volume.node_lost visits.through led
      rw [effect, Follows, cd]
      refine ⟨_, _, rfl, ⟨tidy.mounted, healthy, holds ▸ formed⟩, .cdFailed, ?_⟩
      simp only [desk, holds]
      exact .single (.refused explained)
  | some dir =>
      rw [led] at ran
      obtain ⟨device', answered, healthy, holds⟩ := ran session.device tidy.healthy rfl
      have effect : runCd session (target :: rest) = (.printed (println (newPath session.vfs.cwd target)),
          ⟨{ session.vfs with cwd := newPath session.vfs.cwd target }, device'⟩) := by
        simp only [runCd, cmdCd, answered, outcome]
      have directory : (desk fs session).tree.node (keys (newPath session.vfs.cwd target)) =
          some .directory := Volume.nodeAt_directory.mpr ⟨dir, led⟩
      rw [effect, Follows, cd]
      refine ⟨_, _, rfl, ⟨tidy.mounted.moved _, healthy, holds ▸ formed⟩, .cd, ?_⟩
      simp only [desk, holds]
      exact .single (.found directory)

theorem dispatch_follows {word : Line} {args : List Path}
    (allowed : Allowed fs session.vfs (fs.view session.device) (Command.ofWord word) args)
    (short : ∀ path rest, args = path :: rest → (join rest).length ≤ sectorSize) :
    Follows fs session word args (dispatch session word args) := by
  have mounted := tidy.mounted
  have formed := tidy.formed
  have shaped := Fat32Fs.length_view_data geometry session.device
  rw [dispatch]
  cases command : Command.ofWord word with
  | echo => exact quiet_follows tidy (by rw [command]; rfl)
  | hostname => exact quiet_follows tidy (by rw [command]; rfl)
  | whoami => exact quiet_follows tidy (by rw [command]; rfl)
  | pwd => exact quiet_follows tidy (by rw [command]; rfl)
  | unknown => exact quiet_follows tidy (by rw [command]; rfl)
  | foreign =>
      rw [command] at allowed
      exact allowed.elim
  | ls =>
      rw [command] at allowed
      refine runCommand_follows tidy ?_
      rw [command]
      exact ls_performed geometry mounted formed word args allowed
  | cd =>
      rw [command] at allowed
      cases args with
      | nil => exact quiet_follows tidy (by rw [command]; rfl)
      | cons target rest => exact runCd_follows tidy geometry rest command allowed
  | cat =>
      rw [command] at allowed
      refine runCommand_follows tidy ?_
      rw [command]
      cases args with
      | nil => exact quiet_performed formed word rfl
      | cons path rest => exact cat_performed geometry mounted formed word rest allowed
  | touch =>
      rw [command] at allowed
      refine runCommand_follows tidy ?_
      rw [command]
      cases args with
      | nil => exact quiet_performed formed word rfl
      | cons path rest =>
          exact touch_performed geometry mounted formed word rest shaped allowed.1 allowed.2
  | mkdir =>
      rw [command] at allowed
      refine runCommand_follows tidy ?_
      rw [command]
      cases args with
      | nil => exact quiet_performed formed word rfl
      | cons path rest => exact mkdir_performed geometry mounted formed word rest shaped allowed
  | rm =>
      rw [command] at allowed
      refine runCommand_follows tidy ?_
      rw [command]
      cases args with
      | nil => exact quiet_performed formed word rfl
      | cons path rest =>
          exact rm_performed geometry mounted formed word rest shaped allowed.1 allowed.2
  | write =>
      rw [command] at allowed
      refine runCommand_follows tidy ?_
      rw [command]
      match args with
      | [] => exact quiet_performed formed word rfl
      | [_] => exact quiet_performed formed word rfl
      | path :: first :: rest =>
          have fits := short path (first :: rest) rfl
          have cluster : sectorSize ≤ fs.bpb.clusterSizeBytes := by
            rw [geometry.clusterSize]
            exact Nat.le_mul_of_pos_left _ geometry.clusterSectors
          exact write_performed geometry mounted formed word rest shaped allowed first
            (fits.trans cluster)

/-- A gentle line is answered as the specification allows, and leaves the session in order. -/
theorem processCommand_performs {line : Line} (gentle : Gentle fs session line) :
    Performs (desk fs session) line (processCommand session line).1
      (desk fs (processCommand session line).2) ∧ Tidy fs (processCommand session line).2 := by
  obtain ⟨length, allowed⟩ := gentle
  rcases processCommand_cases session line with ⟨blank, effect⟩ | ⟨cmd, args, split, effect⟩
  · rw [effect]
    exact ⟨.blank blank, tidy⟩
  · rw [split] at allowed
    obtain ⟨trace, text, printed, tidy', script, serving⟩ :=
      dispatch_follows tidy geometry allowed fun path rest same => by
        obtain ⟨first, words', rfl, rfl, rfl⟩ := List.map_eq_cons_iff.mp same
        exact (length_join_words split).trans length
    rw [effect, printed]
    exact ⟨.command split script serving, tidy'⟩

end Steps

/-! What a line can change. -/

def Alters (path : List Path) (node : Option (Node (List UInt8))) : Command → List Path → Prop
  | .write, target :: _ => keys target = path ∧ node ≠ some .directory
  | .touch, target :: _ | .mkdir, target :: _ => keys target = path ∧ node = none
  | .rm, target :: _ => keys target = path ∧ ∃ content, node = some (.file content)
  | _, _ => False

def LineAlters (path : List Path) (node : Option (Node (List UInt8))) (line : Line) : Prop :=
  match words line with
  | [] => False
  | cmd :: args => Alters path node (Command.ofWord cmd) (args.map encode)

theorem Script.keeps {cwd cwd' : Path} {word : Line} {command : Command} {args : List Path}
    {trace : List Exchange} {text : Text} (script : Script cwd word command args trace text cwd')
    {tree tree' : Tree} (serving : FileTree.Serving Explains tree trace tree') {path : List Path}
    (safe : ¬Alters path (tree.node path) command args) : tree'.node path = tree.node path := by
  have one {request : TreeRequest} {reply : TreeReply}
      (serving : FileTree.Serving Explains tree [(request, reply)] tree')
      (safe : ¬request.Alters path (tree.node path)) : tree'.node path = tree.node path :=
    serving.keeps fun pair member => by
      rw [List.mem_singleton.mp member]
      exact safe
  cases script with
  | quiet => cases serving; rfl
  | ls | lsFailed | cat | catFailed | touchFound | rmDirectory | rmAbsent | cd | cdFailed =>
      exact one serving not_false
  | mkdir | write => exact one serving safe
  | touch =>
      -- the file is stored only where nothing was found
      cases serving with
      | cons asked stored =>
          cases asked with
          | refused absent =>
              refine one stored fun alters => safe ⟨alters.1, ?_⟩
              rw [← alters.1]
              exact absent
  | rm =>
      cases serving with
      | cons asked removed =>
          cases asked with
          | found _ => exact one removed safe

theorem Performs.keeps {desk desk' : Desk} {line : Line} {outcome : Outcome}
    (performs : Performs desk line outcome desk') {path : List Path}
    (safe : ¬LineAlters path (desk.tree.node path) line) :
    desk'.tree.node path = desk.tree.node path := by
  cases performs with
  | blank => rfl
  | command split script serving =>
      rw [LineAlters, split] at safe
      exact script.keeps serving safe

theorem run_keeps {desk desk' : Desk} {trace : List (Line × Outcome)}
    (performance : Performance Performs desk trace desk') {path : List Path}
    (safe : ∀ line ∈ trace.map Prod.fst, ¬LineAlters path (desk.tree.node path) line) :
    desk'.tree.node path = desk.tree.node path := by
  refine performance.invariant (fun other => other.tree.node path = desk.tree.node path) ?_ rfl
  intro other line outcome next member performs same
  exact (performs.keeps (same ▸ safe line (List.mem_map_of_mem member))).trans same

/-! Runs. -/

section Runs

variable {fs : Fat32Fs} (geometry : fs.Geometry) {session : Session} (tidy : Tidy fs session)
  {lines : List Line} (gentle : prompt.Meets (Gentle fs) session lines)
include geometry tidy gentle

/-- A run of gentle lines is a run of the specification: no line panics, each prints what the replies
of the tree make it print, and the volume is well formed behind it. -/
theorem shell_serves_tree :
    Performance Performs (desk fs session) (prompt.answered session lines)
      (desk fs (prompt.final session lines)) ∧ Tidy fs (prompt.final session lines) :=
  prompt.simulates (desk fs) (Tidy fs) (Gentle fs)
    (fun _ _ tidy gentle => processCommand_performs tidy geometry gentle) tidy gentle

/-- A node stays through a run without a line that may change it: a directory through every run, a
file as long as it is neither written nor removed, and a free place until something is made there. -/
theorem shell_keeps_node {path : List Path}
    (safe : ∀ line ∈ lines, ¬LineAlters path ((desk fs session).tree.node path) line) :
    (desk fs (prompt.final session lines)).tree.node path = (desk fs session).tree.node path := by
  obtain ⟨performance, _⟩ := prompt.simulates (desk fs) (Tidy fs) (Gentle fs)
    (fun _ _ tidy gentle => processCommand_performs tidy geometry gentle) tidy gentle
  refine run_keeps performance ?_
  rw [prompt.answered_calls]
  exact safe

end Runs

/-! Lines for the blank volume. -/

theorem blank_tidy : Tidy smallFs blankSession :=
  ⟨⟨rfl, rfl⟩, fun _ => ⟨rfl, rfl⟩, blank_wellFormed⟩

theorem rootName_located {path : Path} (down : Downward path) (named : EndsInName path)
    (top : parentKeys path = []) {fs : Fat32Fs} (volume : Volume) : volume.Located fs path :=
  Volume.located_of_led down named (by rw [top]; rfl)

theorem makes_of_vacant {fs : Fat32Fs} {volume : Volume} {path : Path}
    (located : volume.Located fs path) (valid : Valid83 (fileName path)) {dir : Nat}
    (parent : volume.parentOf fs path = .ok dir) (vacant : ¬volume.Full fs dir) :
    Makes fs volume path := by
  refine ⟨located, valid, fun other again full => ?_⟩
  obtain rfl := Except.ok.inj (parent.symm.trans again)
  exact absurd full vacant

def fileLines : List Line :=
  ["write /F hello  world".toList, " cat /f".toList, "rm /F".toList]

theorem fileLines_gentle {session : Session}
    (parent : (smallFs.view session.device).parentOf smallFs (text "/F") = .ok 2)
    (vacant : ¬(smallFs.view session.device).Full smallFs 2) :
    prompt.Meets (Gentle smallFs) session fileLines := by
  have located : ∀ volume : Volume, volume.Located smallFs (text "/F") := fun volume =>
    rootName_located (by decide +kernel) (by decide +kernel) (by decide +kernel) volume
  have file : Valid83 (fileName (text "/F")) :=
    ⟨[0x46], [], ⟨by decide, by decide, by decide, by decide +kernel⟩, by decide⟩
  have makes := makes_of_vacant (located _) file parent vacant
  refine ⟨⟨by decide +kernel, makes⟩, ⟨by decide +kernel, ?_⟩,
    ⟨by decide +kernel, located _, .inl rfl⟩, trivial⟩
  exact rootName_located (by decide +kernel) (by decide +kernel) (by decide +kernel) _

theorem blank_gentle : prompt.Meets (Gentle smallFs) blankSession fileLines :=
  fileLines_gentle (by decide +kernel) (by decide)

theorem shell_serves_file :
    Performance Performs (desk smallFs blankSession) (prompt.answered blankSession fileLines)
      (desk smallFs (prompt.final blankSession fileLines)) ∧
    (prompt.answered blankSession fileLines).map Prod.snd =
      [.printed (text "Wrote 11 bytes to /F\n"), .printed (text "hello world\n"),
        .printed (text "Deleted: /F\n")] :=
  ⟨(shell_serves_tree smallFs_geometry blank_tidy blank_gentle).1, by decide +kernel⟩

def keptSession : Session := prompt.final blankSession ["write /G kept".toList]

theorem keptSession_tidy : Tidy smallFs keptSession := by
  have located : ∀ volume : Volume, volume.Located smallFs (text "/G") := fun volume =>
    rootName_located (by decide +kernel) (by decide +kernel) (by decide +kernel) volume
  have file : Valid83 (fileName (text "/G")) :=
    ⟨[0x47], [], ⟨by decide, by decide, by decide, by decide +kernel⟩, by decide⟩
  have parent : (smallFs.view blankDevice).parentOf smallFs (text "/G") = .ok 2 := by decide +kernel
  have makes := makes_of_vacant (located _) file parent (by decide)
  have gentle : prompt.Meets (Gentle smallFs) blankSession ["write /G kept".toList] :=
    ⟨⟨by decide +kernel, makes⟩, trivial⟩
  exact (shell_serves_tree smallFs_geometry blank_tidy gentle).2

/-- Three lines about `/F` leave the file `/G` as it is. -/
theorem shell_keeps_other :
    (desk smallFs keptSession).tree.node [[0x47]] = some (.file (text "kept")) ∧
      (desk smallFs (prompt.final keptSession fileLines)).tree.node [[0x47]] =
        some (.file (text "kept")) := by
  have there : (desk smallFs keptSession).tree.node [[0x47]] = some (.file (text "kept")) := by
    decide +kernel
  have gentle : prompt.Meets (Gentle smallFs) keptSession fileLines :=
    fileLines_gentle (by decide +kernel) (by decide +kernel)
  refine ⟨there, (shell_keeps_node smallFs_geometry keptSession_tidy gentle ?_).trans there⟩
  have apart : keys (text "/F") ≠ [[0x47]] := by decide +kernel
  intro line member
  simp only [fileLines, List.mem_cons, List.not_mem_nil, or_false] at member
  rcases member with rfl | rfl | rfl
  · exact fun alters => apart alters.1
  · exact fun alters => alters
  · exact fun alters => apart alters.1

end ArcadiaOs.Terminal
