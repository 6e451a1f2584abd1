import ArcadiaOs.Terminal.ShellRefinement

/-!
`touch` and `rm` in a working directory.  Both look a relative path up behind the working directory
and then act on the path from the root, where something else may stand.
-/

namespace ArcadiaOs.Terminal

open Lib Fs

section Volumes

variable {fs : Fat32Fs} (geometry : fs.Geometry) {vfs : VfsManager} (mounted : Mounted fs vfs)
  {volume : Volume} (formed : WellFormed fs volume) {path : Path} (rest : List Path)
  (located : volume.Located fs path) (clean : volume.Located fs (vfs.canonicalize path))
include geometry mounted formed located clean

theorem stat_asked : Runs fs (attempt (vfs.stat path)) volume (.ok (volume.statAt fs vfs path))
    volume :=
  attempt_runs (mounted.stat_runs geometry formed.sound (located.proper geometry formed)
    located.named (clean.proper geometry formed) clean.named)

theorem touch_cases :
    (((volume.tree fs).node (keys path) ≠ none ∧
        (volume.tree fs).node (keys (vfs.canonicalize path)) ≠ none) ∧
      Runs fs (cmdTouch vfs (path :: rest)) volume (.ok (println (text "Exists: " ++ path))) volume) ∨
    ((volume.tree fs).node (keys path) = none ∨
        (volume.tree fs).node (keys (vfs.canonicalize path)) = none) ∧
      ∃ text, Runs fs (cmdTouch vfs (path :: rest)) volume (.ok text)
        (volume.createFile fs path []).2 := by
  have asked := stat_asked geometry mounted formed located clean
  rcases Volume.statAt_tree geometry formed located clean with
    ⟨node, answer⟩ | ⟨node, info, here, behind, answer, _⟩
  · rw [answer] at asked
    have created := attempt_runs
      (mounted.createFile_runs geometry formed.sound (located.proper geometry formed) [])
    refine .inr ⟨node, ?_⟩
    cases answered : (volume.createFile fs path []).1 with
    | ok _ =>
        rw [answered] at created
        exact ⟨_, .bind asked (.bind created (Runs.pure _))⟩
    | error reason =>
        rw [answered] at created
        exact ⟨_, .bind asked (.bind created (Runs.pure _))⟩
  · rw [answer] at asked
    refine .inl ⟨⟨here, ?_⟩, .bind asked (Runs.pure _)⟩
    rw [behind]
    exact Option.some_ne_none _

theorem rm_cases :
    (((volume.tree fs).node (keys path) ≠ none ∧ ∃ content,
        (volume.tree fs).node (keys (vfs.canonicalize path)) = some (.file content)) ∧
      Runs fs (cmdRm vfs (path :: rest)) volume (.ok (println (text "Deleted: " ++ path)))
        (volume.delete fs path).2) ∨
    ¬((volume.tree fs).node (keys path) ≠ none ∧ ∃ content,
        (volume.tree fs).node (keys (vfs.canonicalize path)) = some (.file content)) ∧
      ∃ reply : Text, reply.head? = some 0x72 ∧
        Runs fs (cmdRm vfs (path :: rest)) volume (.ok reply) volume := by
  have asked := stat_asked geometry mounted formed located clean
  rcases Volume.statAt_tree geometry formed located clean with
    ⟨node, answer⟩ | ⟨node, info, here, behind, answer, directory⟩
  · rw [answer] at asked
    refine .inr ⟨?_, _, rfl, .bind asked (Runs.pure _)⟩
    rintro ⟨present, content, file⟩
    rcases node with absent | absent
    · exact present absent
    · cases absent.symm.trans file
  · rw [answer] at asked
    cases node with
    | directory =>
        refine .inr ⟨?_, println (text "rm error: cannot remove directory (use rmdir)"), rfl,
          .bind asked ?_⟩
        · rintro ⟨_, content, file⟩
          cases behind.symm.trans file
        · simp only [if_pos (directory.mpr rfl)]
          exact Runs.pure _
    | file content =>
        have regular : ¬info.isDir = true := fun is => nomatch directory.mp is
        have proper := located.proper geometry formed
        have deleted := attempt_runs (mounted.delete_runs geometry formed.sound proper
          fun _ _ parent search => Mounted.chain_of_spared geometry formed.sound proper
            (Volume.sparesDots_of_named located.named) parent search)
        have answered : (volume.delete fs path).1 = .ok () := by
          rcases Volume.parent_cases geometry formed located with ⟨dir, targets, led⟩ |
            ⟨_, front, name, same, lost⟩
          · have found := Volume.node_found located led
            cases search : volume.findIn fs dir path with
            | none =>
                rw [search] at found
                exact absurd found here
            | some position =>
                simp only [Volume.delete, targets.parent, if_neg targets.named, search]
          · rw [same] at here
            cases lost.symm.trans ((volume.tree fs).closed front name here)
        rw [answered] at deleted
        refine .inl ⟨⟨here, content, behind⟩, .bind asked ?_⟩
        simp only [if_neg regular]
        exact .bind deleted (Runs.pure _)

end Volumes

section Stray

variable {fs : Fat32Fs} (geometry : fs.Geometry) {session : Session} (tidy : Tidy fs session)
  {path : Path} (rest : List Path) (located : (fs.view session.device).Located fs path)
  (clean : (fs.view session.device).Located fs (session.vfs.canonicalize path))
include geometry tidy located clean

/-- `touch` leaves a file at the path from the root as it is exactly when something stands at the
path behind the working directory too, or when there is no space for the empty file. -/
theorem touch_keeps_iff {content : List UInt8} {dir : Nat}
    (file : (desk fs session).tree.node (keys path) = some (.file content))
    (nonempty : content ≠ []) (parent : (fs.view session.device).parentOf fs path = .ok dir) :
    (desk fs (runCommand session (cmdTouch session.vfs (path :: rest))).2).tree.node (keys path) =
        some (.file content) ↔
      (desk fs session).tree.node (keys (session.vfs.canonicalize path)) ≠ none ∨
        ¬(fs.view session.device).HasRoom fs dir path [] := by
  have formed := tidy.formed
  have shaped := Fat32Fs.length_view_data geometry session.device
  rcases touch_cases geometry tidy.mounted formed rest located clean with ⟨⟨_, behind⟩, ran⟩ |
    ⟨absent, text, ran⟩
  · obtain ⟨device, effect, _, holds⟩ := runCommand_prints tidy ran
    rw [effect, desk, holds]
    exact iff_of_true file (.inl behind)
  · have behind : (desk fs session).tree.node (keys (session.vfs.canonicalize path)) = none :=
      absent.resolve_left fun none => absurd (file.symm.trans none) (Option.some_ne_none _)
    obtain ⟨device, effect, _, holds⟩ := runCommand_prints tidy ran
    obtain ⟨other, position, targets, _, found, regular⟩ :=
      Volume.file_found geometry formed located file
    obtain rfl := Except.ok.inj (parent.symm.trans targets.parent)
    have created := targets.created_iff geometry formed.sound
      (fun place search => Option.some.inj (found.symm.trans search) ▸ regular) []
    obtain ⟨_, served⟩ := Volume.createFile_over_served geometry formed located shaped file
      (show [].length ≤ _ from Nat.zero_le _)
    rw [effect, desk, holds, or_iff_right (not_not.mpr behind), ← created]
    generalize ((fs.view session.device).createFile fs path []).2.tree fs = tree' at served ⊢
    cases answered : ((fs.view session.device).createFile fs path []).1 with
    | ok _ =>
        rw [answered] at served
        refine iff_of_false (fun same => ?_) (not_not.mpr rfl)
        cases served with
        | stored _ turns =>
            rw [turns.here, Option.some.injEq, Node.file.injEq] at same
            exact nonempty same.symm
    | error reason =>
        rw [answered] at served
        cases served with
        | refused _ => exact iff_of_true file (by simp)

/-- `rm` says that it deleted something exactly when a file stands at the path behind the working
directory and anything, a directory too, at the path from the root. -/
theorem rm_deletes_iff :
    (runCommand session (cmdRm session.vfs (path :: rest))).1 =
        .printed (println (text "Deleted: " ++ path)) ↔
      (desk fs session).tree.node (keys path) ≠ none ∧ ∃ content,
        (desk fs session).tree.node (keys (session.vfs.canonicalize path)) =
          some (.file content) := by
  rcases rm_cases geometry tidy.mounted tidy.formed rest located clean with ⟨both, ran⟩ |
    ⟨not, reply, first, ran⟩
  · obtain ⟨device, effect, _⟩ := runCommand_prints tidy ran
    rw [effect]
    exact iff_of_true rfl both
  · obtain ⟨device, effect, _⟩ := runCommand_prints tidy ran
    rw [effect]
    refine iff_of_false (fun same => ?_) not
    rw [Outcome.printed.inj same] at first
    have heads : (some 0x44 : Option UInt8) = some 0x72 := first
    exact absurd heads (by decide)

end Stray

/-! `/A` with `/A/A` in it, and `/F`, seen from `/A`. -/

def strayCalls : List Call :=
  [.mkdir (text "/A"), .createFile (text "/A/A") [1], .createFile (text "/F") [2]]

def strayVolume : Volume :=
  (Session.afterAll smallFs blankSession.vfs (smallFs.view blankDevice) strayCalls).2

def strayDevice : Device := (Session.machine.final blankSession strayCalls).device

def straySession : Session := ⟨{ blankSession.vfs with cwd := text "/A" }, strayDevice⟩

theorem stray_careful :
    Session.CarefulAll smallFs blankSession.vfs (smallFs.view blankDevice) strayCalls := by
  refine ⟨?_, ?_, ?_, trivial⟩
  · exact show (smallFs.view blankDevice).ProperPath smallFs (text "/A") by decide
  · exact show (Session.afterAll smallFs blankSession.vfs (smallFs.view blankDevice)
      (strayCalls.take 1)).2.ProperPath smallFs (text "/A/A") by decide
  · exact show (Session.afterAll smallFs blankSession.vfs (smallFs.view blankDevice)
      (strayCalls.take 2)).2.ProperPath smallFs (text "/F") by decide

def strayAfter (count : Nat) : Volume :=
  (Session.afterAll smallFs blankSession.vfs (smallFs.view blankDevice) (strayCalls.take count)).2

theorem stray_steps : strayAfter 1 = ((strayAfter 0).mkdir smallFs (text "/A")).2 ∧
    strayAfter 2 = ((strayAfter 1).createFile smallFs (text "/A/A") [1]).2 ∧
    strayVolume = ((strayAfter 2).createFile smallFs (text "/F") [2]).2 := ⟨rfl, rfl, rfl⟩

theorem stray_makes : Makes smallFs (strayAfter 0) (text "/A") ∧
    Makes smallFs (strayAfter 1) (text "/A/A") ∧ Makes smallFs (strayAfter 2) (text "/F") := by
  have letter : ShortName [0x41] [] := ⟨by decide, by decide, by decide, by decide +kernel⟩
  have other : ShortName [0x46] [] := ⟨by decide, by decide, by decide, by decide +kernel⟩
  refine ⟨?_, ?_, ?_⟩
  · have led : (strayAfter 0).dirAt smallFs (parentKeys (text "/A")) 2 = some 2 := by decide
    have parent : (strayAfter 0).parentOf smallFs (text "/A") = .ok 2 := by decide
    exact makes_of_vacant (Volume.located_of_led (by decide) (by decide) led)
      ⟨[0x41], [], letter, by decide⟩ parent (by decide)
  · have led : (strayAfter 1).dirAt smallFs (parentKeys (text "/A/A")) 2 = some 3 := by decide
    have parent : (strayAfter 1).parentOf smallFs (text "/A/A") = .ok 3 := by decide
    exact makes_of_vacant (Volume.located_of_led (by decide) (by decide) led)
      ⟨[0x41], [], letter, by decide⟩ parent (by decide)
  · have led : (strayAfter 2).dirAt smallFs (parentKeys (text "/F")) 2 = some 2 := by decide
    have parent : (strayAfter 2).parentOf smallFs (text "/F") = .ok 2 := by decide
    exact makes_of_vacant (Volume.located_of_led (by decide) (by decide) led)
      ⟨[0x46], [], other, by decide⟩ parent (by decide)

/-- What is known of each of the volumes: some device shows it, and it is well formed. -/
def Shown (volume : Volume) : Prop :=
  (∃ device : Device, device.Healthy ∧ smallFs.view device = volume) ∧ WellFormed smallFs volume

theorem Shown.next {volume : Volume} (shown : Shown volume) {action : Disk VfsError Unit}
    {request : TreeRequest} {effect : Except VfsError Unit × Volume}
    (ran : Runs smallFs action volume effect.1 effect.2)
    (served : volume.Shaped smallFs → volume.Served smallFs request effect) : Shown effect.2 := by
  obtain ⟨⟨device, healthy, rfl⟩, _⟩ := shown
  obtain ⟨device', _, healthy', holds'⟩ := ran device healthy rfl
  exact ⟨⟨device', healthy', holds'⟩,
    (served (Fat32Fs.length_view_data smallFs_geometry device)).formed⟩

theorem stray_wellFormed : WellFormed smallFs strayVolume := by
  have geometry := smallFs_geometry
  have mounted : Mounted smallFs blankSession.vfs := ⟨rfl, rfl⟩
  obtain ⟨one, two, three⟩ := stray_steps
  obtain ⟨first, second, third⟩ := stray_makes
  have blank : Shown (strayAfter 0) := ⟨⟨blankDevice, fun _ => ⟨rfl, rfl⟩, rfl⟩, blank_wellFormed⟩
  have made : Shown (strayAfter 1) := one ▸ blank.next
    (mounted.mkdir_runs geometry blank.2.sound (first.proper geometry blank.2))
    fun shaped => Volume.mkdir_served geometry blank.2 first.toLocated shaped first.valid first.roomy
  have below : Shown (strayAfter 2) := two ▸ made.next
    (mounted.createFile_runs geometry made.2.sound (second.proper geometry made.2) [1])
    fun shaped => Volume.createFile_served geometry made.2 second.toLocated shaped second.valid
      second.roomy (by decide)
  have beside : Shown strayVolume := three ▸ below.next
    (mounted.createFile_runs geometry below.2.sound (third.proper geometry below.2) [2])
    fun shaped => Volume.createFile_served geometry below.2 third.toLocated shaped third.valid
      third.roomy (by decide)
  exact beside.2

theorem stray_shows : strayDevice.Healthy ∧ smallFs.view strayDevice = strayVolume := by
  obtain ⟨ready, shows'⟩ := Session.final_shows smallFs_geometry blank_ready
    ⟨rfl, blank_ready.healthy, rfl⟩ stray_careful
  rw [strayDevice, strayVolume]
  exact ⟨ready.healthy, shows'.volume⟩

theorem stray_device : straySession.device = strayDevice := by
  rw [straySession]

theorem stray_tidy : Tidy smallFs straySession := by
  obtain ⟨healthy, holds⟩ := stray_shows
  refine ⟨⟨rfl, rfl⟩, ?_, ?_⟩
  · rw [stray_device]
    exact healthy
  · rw [stray_device, holds]
    exact stray_wellFormed

theorem stray_view : smallFs.view straySession.device = strayVolume := by
  rw [stray_device]
  exact stray_shows.2

theorem stray_located {path : Path} (names : path = text "F" ∨ path = text "A") :
    (smallFs.view straySession.device).Located smallFs path ∧
      (smallFs.view straySession.device).Located smallFs (straySession.vfs.canonicalize path) := by
  have led : strayVolume.dirAt smallFs [[0x41]] 2 = some 3 := by decide
  rw [stray_view]
  rcases names with rfl | rfl
  · exact ⟨rootName_located (by decide) (by decide) (by decide) _,
      Volume.located_of_led (by decide) (by decide) led⟩
  · exact ⟨rootName_located (by decide) (by decide) (by decide) _,
      Volume.located_of_led (by decide) (by decide) led⟩

theorem stray_nodes : strayVolume.nodeAt smallFs [[0x46]] 2 = some (.file [2]) ∧
    strayVolume.nodeAt smallFs [[0x41], [0x46]] 2 = none ∧
    strayVolume.nodeAt smallFs [[0x41]] 2 = some .directory ∧
    strayVolume.nodeAt smallFs [[0x41], [0x41]] 2 = some (.file [1]) :=
  ⟨by decide, by decide, by decide, by decide⟩

theorem stray_keys : keys (text "F") = [[0x46]] ∧ keys (text "A") = [[0x41]] ∧
    keys (straySession.vfs.canonicalize (text "F")) = [[0x41], [0x46]] ∧
    keys (straySession.vfs.canonicalize (text "A")) = [[0x41], [0x41]] := by
  rw [straySession]
  decide

theorem stray_desk (path : List Path) :
    (desk smallFs straySession).tree.node path = strayVolume.nodeAt smallFs path 2 := by
  rw [desk, stray_view]
  rfl

theorem touch_empties :
    (desk smallFs (runCommand straySession (cmdTouch straySession.vfs [text "F"])).2).tree.node
      (keys (text "F")) ≠ some (.file [2]) := by
  obtain ⟨located, clean⟩ := stray_located (.inl rfl)
  obtain ⟨file, missing, _, _⟩ := stray_nodes
  obtain ⟨here, _, behind, _⟩ := stray_keys
  have parent : (smallFs.view straySession.device).parentOf smallFs (text "F") = .ok 2 := by
    rw [stray_view]
    decide
  have found : strayVolume.findIn smallFs 2 (text "F") = some (2, 1) := by decide
  have room : strayVolume.HasRoom smallFs 2 (text "F") [] := by
    simp only [Volume.HasRoom, found]
    decide
  have before : (desk smallFs straySession).tree.node (keys (text "F")) = some (.file [2]) := by
    rw [stray_desk, here, file]
  intro kept
  rcases (touch_keeps_iff smallFs_geometry stray_tidy [] located clean before (by decide)
    parent).mp kept with present | full
  · refine present ?_
    rw [stray_desk, behind, missing]
  · rw [stray_view] at full
    exact full room

/-- `rm A` in `/A` finds the file `/A/A` and deletes the directory `/A`. -/
theorem rm_deletes_directory :
    (runCommand straySession (cmdRm straySession.vfs [text "A"])).1 =
        .printed (println (text "Deleted: " ++ text "A")) ∧
      (desk smallFs straySession).tree.node [[0x41]] = some .directory := by
  obtain ⟨located, clean⟩ := stray_located (.inr rfl)
  obtain ⟨_, _, directory, file⟩ := stray_nodes
  obtain ⟨_, here, _, behind⟩ := stray_keys
  have before : (desk smallFs straySession).tree.node [[0x41]] = some .directory := by
    rw [stray_desk, directory]
  refine ⟨(rm_deletes_iff smallFs_geometry stray_tidy [] located clean).mpr ⟨?_, [1], ?_⟩, before⟩
  · rw [here, before]
    exact Option.some_ne_none _
  · rw [stray_desk, behind, file]

end ArcadiaOs.Terminal
