import ArcadiaOs.Terminal.ShellRefinement

/-!
What `write` stores and `cat` prints.  The words come back with one space between them, and byte for
byte when they are ASCII; another byte is printed as a character of its own.
-/

namespace ArcadiaOs.Terminal

open Lib Fs

def wroteText (path : Path) (content : Path) : Text :=
  println (text "Wrote " ++ decimal content.length ++ text " bytes to " ++ path)

theorem failed_ne_wrote (reason : VfsError) (path content : Path) :
    failed "write" reason ≠ wroteText path content := by
  intro same
  have heads : (some 0x77 : Option UInt8) = some 0x57 := congrArg List.head? same
  exact absurd heads (by decide)

section Written

variable {desk desk' : Desk} {line cmd path first : Line} {outcome : Outcome} {args : List Line}

theorem Performs.wrote (performs : Performs desk line outcome desk')
    (split : words line = cmd :: path :: first :: args) (write : Command.ofWord cmd = .write)
    (wrote : outcome =
      .printed (wroteText (encode path) (join ((first :: args).map encode)))) :
    desk'.tree.node (keys (encode path)) =
      some (.file (join ((first :: args).map encode))) := by
  obtain ⟨tree, cwd⟩ := desk
  obtain ⟨tree', cwd'⟩ := desk'
  cases performs with
  | blank none => cases split.symm.trans none
  | command found script serving =>
      obtain ⟨rfl, rfl⟩ := List.cons.inj (split.symm.trans found)
      rw [write] at script
      cases script with
      | quiet quiet => cases quiet
      | write =>
          cases serving with
          | cons stored rest =>
              cases rest
              cases stored with
              | stored _ turns => exact turns.here
              | refused _ =>
                  exact absurd (Outcome.printed.inj wrote) (failed_ne_wrote _ _ _)

theorem Performs.cat (performs : Performs desk line outcome desk')
    (split : words line = cmd :: path :: args) (cat : Command.ofWord cmd = .cat)
    {content : List UInt8} (file : desk.tree.node (keys (encode path)) = some (.file content)) :
    outcome = .printed (catText content) := by
  obtain ⟨tree, cwd⟩ := desk
  obtain ⟨tree', cwd'⟩ := desk'
  cases performs with
  | blank none => cases split.symm.trans none
  | command found script serving =>
      obtain ⟨rfl, rfl⟩ := List.cons.inj (split.symm.trans found)
      rw [cat] at script
      cases script with
      | quiet quiet => cases quiet
      | cat =>
          cases serving with
          | cons read rest =>
              cases read with
              | content same =>
                  rw [file, Option.some.injEq, Node.file.injEq] at same
                  rw [same]
      | catFailed =>
          cases serving with
          | cons read rest =>
              cases read with
              | refused explained => exact absurd file (explains_read explained)

end Written

/-- A run that writes words to a file, does anything but write or remove that file, and then prints
it prints the words with one space between them.  They read as they were typed exactly when they
are ASCII. -/
theorem cat_prints_written {fs : Fat32Fs} (geometry : fs.Geometry) {session : Session}
    (tidy : Tidy fs session) {written printed : Line} {between : List Line}
    (gentle : prompt.Meets (Gentle fs) session (written :: between ++ [printed]))
    {cmd path first : Line} {args : List Line} (split : words written = cmd :: path :: first :: args)
    (write : Command.ofWord cmd = .write)
    (wrote : (prompt.step session written).1 =
      .printed (wroteText (encode path) (join ((first :: args).map encode))))
    (untouched : ∀ content, ∀ line ∈ between,
      ¬LineAlters (keys (encode path)) (some (.file content)) line)
    {cmd' path' : Line} {rest : List Line} (split' : words printed = cmd' :: path' :: rest)
    (cat : Command.ofWord cmd' = .cat) (same : keys (encode path') = keys (encode path)) :
    (prompt.step (prompt.final session (written :: between)) printed).1 =
        .printed (catText (join ((first :: args).map encode))) ∧
      (catText (join ((first :: args).map encode)) = println (join ((first :: args).map encode)) ↔
        ∀ byte ∈ join ((first :: args).map encode), byte.toNat < 0x80) := by
  obtain ⟨first', later⟩ := gentle
  obtain ⟨middle, last, _⟩ := (prompt.meets_append _ _ _ _).mp later
  obtain ⟨writes, tidy'⟩ := processCommand_performs tidy geometry first'
  obtain ⟨performance, tidy''⟩ := prompt.simulates (desk fs) (Tidy fs) (Gentle fs)
    (fun _ _ tidy gentle => processCommand_performs tidy geometry gentle) tidy' middle
  have stored := writes.wrote split write wrote
  have kept : (desk fs (prompt.final session (written :: between))).tree.node (keys (encode path)) =
      some (.file (join ((first :: args).map encode))) := by
    refine (run_keeps performance ?_).trans stored
    rw [prompt.answered_calls, stored]
    exact untouched _
  obtain ⟨prints, _⟩ := processCommand_performs tidy'' geometry last
  refine ⟨prints.cat split' cat (same ▸ kept), catText_join fun word member => ?_⟩
  have among : word ∈ words written := by
    rw [split]
    exact List.mem_cons_of_mem _ (List.mem_cons_of_mem _ member)
  exact (word_facts among).2

theorem cat_prints_hello :
    (prompt.step (prompt.final blankSession
      ["write /F hello  world".toList, "cat /G".toList, "pwd".toList]) " cat /f".toList).1 =
        .printed (text "hello world\n") := by
  have located : ∀ volume : Volume, volume.Located smallFs (text "/G") ∧
      volume.Located smallFs (text "/f") := fun volume =>
    ⟨rootName_located (by decide +kernel) (by decide +kernel) (by decide +kernel) volume,
      rootName_located (by decide +kernel) (by decide +kernel) (by decide +kernel) volume⟩
  have gentle : prompt.Meets (Gentle smallFs) blankSession
      ("write /F hello  world".toList :: ["cat /G".toList, "pwd".toList] ++ [" cat /f".toList]) :=
    ⟨blank_gentle.1, ⟨by decide +kernel, (located _).1⟩, ⟨by decide +kernel, trivial⟩,
      ⟨by decide +kernel, (located _).2⟩, trivial⟩
  have split : words "write /F hello  world".toList =
      ["write".toList, "/F".toList, "hello".toList, "world".toList] := by decide +kernel
  have again : words " cat /f".toList = ["cat".toList, "/f".toList] := by decide +kernel
  have untouched : ∀ content, ∀ line ∈ ["cat /G".toList, "pwd".toList],
      ¬LineAlters (keys (encode "/F".toList)) (some (.file content)) line := by
    simp only [List.mem_cons, List.not_mem_nil, or_false]
    rintro content line (rfl | rfl)
    · exact not_false
    · exact not_false
  exact (cat_prints_written smallFs_geometry blank_tidy gentle split (by decide +kernel)
    (by decide +kernel) untouched again (by decide +kernel) (by decide +kernel)).1

end ArcadiaOs.Terminal
