import ArcadiaOs.Terminal.ShellRefinement
import ArcadiaOs.Terminal.TypedLine

/-!
Runs of the kernel from its first prompt, key by key.  The lines that are typed are what the shell
runs, and the row under the cursor and the history follow them.
-/

namespace ArcadiaOs.Terminal

open Lib Fs

variable {Kbd : Type} (decoder : Decoder Kbd) (console : Console Kbd) (arrivals : List Arrival)

theorem run_step (arrival : Arrival) :
    (run decoder).step console arrival = turn decoder console arrival := rfl

def Console.ran (console : Console Kbd) : Console Kbd :=
  let effect := processCommand console.session console.terminal.inputBuffer
  ⟨{ console.terminal.enter.2 with inputBuffer := [] }, decoder.new, effect.2, effect.1.goesOn⟩

inductive Turned : Response × Console Kbd → Prop
  | read {effect : Echo × TerminalState} {keyboard : Kbd} : Editing console.terminal effect →
      Turned (⟨effect.1.text, none⟩, { console with terminal := effect.2, keyboard })
  | entered : Turned (⟨['\n'], some (console.terminal.inputBuffer,
      (processCommand console.session console.terminal.inputBuffer).1)⟩, console.ran decoder)

theorem turn_cases (arrival : Arrival) (running : console.running = true) :
    Turned decoder console (turn decoder console arrival) := by
  have cases := readTurn_cases decoder console.terminal console.keyboard arrival
  rw [turn, if_pos running]
  generalize readTurn decoder console.terminal console.keyboard arrival = read at cases
  obtain ⟨effect, keyboard⟩ := read
  rcases cases with enters | editing
  · dsimp only at enters ⊢
    rw [enters, console.terminal.enter_buffer]
    exact .entered
  · dsimp only at editing ⊢
    rw [editing.reading]
    exact .read editing

def commands : List (Line × Outcome) :=
  ((run decoder).answered console arrivals).filterMap fun answer => answer.2.command

theorem commands_cons (arrival : Arrival) : commands decoder console (arrival :: arrivals) =
    (turn decoder console arrival).1.command.toList ++
      commands decoder (turn decoder console arrival).2 arrivals := by
  rw [commands, Machine.answered_cons, List.filterMap_cons]
  cases command : (turn decoder console arrival).1.command <;>
    simp [run, command, commands]

theorem turn_stopped (arrival : Arrival) (stopped : console.running = false) :
    turn decoder console arrival = (⟨[], none⟩, console) := by
  rw [turn, stopped]
  rfl

theorem turn_session (arrival : Arrival) :
    (turn decoder console arrival).1.command = none ∧
        (turn decoder console arrival).2.session = console.session ∨
      ∃ line, (turn decoder console arrival).1.command =
          some (line, (processCommand console.session line).1) ∧
        (turn decoder console arrival).2.session = (processCommand console.session line).2 := by
  cases running : console.running with
  | false =>
      rw [turn_stopped decoder console arrival running]
      exact .inl ⟨rfl, rfl⟩
  | true =>
      have turned := turn_cases decoder console arrival running
      generalize turn decoder console arrival = effect at turned
      cases turned with
      | read => exact .inl ⟨rfl, rfl⟩
      | entered => exact .inr ⟨console.terminal.inputBuffer, rfl, rfl⟩

/-- The shell runs what is typed. -/
theorem commands_prompt : commands decoder console arrivals =
      prompt.answered console.session ((commands decoder console arrivals).map Prod.fst) ∧
    ((run decoder).final console arrivals).session =
      prompt.final console.session ((commands decoder console arrivals).map Prod.fst) := by
  induction arrivals generalizing console with
  | nil => exact ⟨rfl, rfl⟩
  | cons arrival rest ih =>
      obtain ⟨answered, final⟩ := ih (turn decoder console arrival).2
      rw [commands_cons, Machine.final_cons]
      rcases turn_session decoder console arrival with ⟨none, same⟩ | ⟨line, command, next⟩
      · rw [same] at answered final
        rw [none, Option.toList_none, List.nil_append]
        exact ⟨answered, final⟩
      · rw [next] at answered final
        rw [command, Option.toList_some, List.singleton_append, List.map_cons,
          Machine.answered_cons, Machine.final_cons]
        exact ⟨congrArg _ answered, final⟩

/-- The last character is still let in one byte below the bound. -/
def Console.Short (console : Console Kbd) : Prop :=
  (encode console.terminal.inputBuffer).length ≤ maxInputLen + 3

theorem Edits.short {buffer echo buffer' : Line} (edits : Edits buffer echo buffer')
    (short : (encode buffer).length ≤ maxInputLen + 3) :
    (encode buffer').length ≤ maxInputLen + 3 := by
  cases edits with
  | kept => exact short
  | erased =>
      rw [encode_append, List.length_append] at short
      omega
  | @typed buffer char room =>
      have size : (encode [char]).length ≤ 4 := by
        rw [encode, List.flatMap_singleton, String.length_utf8EncodeChar]
        exact char.utf8Size_le_four
      rw [encode_append, List.length_append]
      omega

theorem turn_short (arrival : Arrival) (short : console.Short) :
    (turn decoder console arrival).2.Short ∧
      ∀ command ∈ (turn decoder console arrival).1.command,
        (encode command.1).length ≤ maxInputLen + 3 := by
  cases running : console.running with
  | false =>
      rw [turn_stopped decoder console arrival running]
      exact ⟨short, by simp⟩
  | true =>
      have turned := turn_cases decoder console arrival running
      generalize turn decoder console arrival = effect at turned
      cases turned with
      | read editing => exact ⟨editing.edits.short short, by simp⟩
      | entered =>
          refine ⟨Nat.zero_le _, fun command same => ?_⟩
          rw [← Option.some.inj same]
          exact short

theorem commands_short (short : console.Short) : ∀ command ∈ commands decoder console arrivals,
    (encode command.1).length ≤ maxInputLen + 3 := by
  induction arrivals generalizing console with
  | nil => simp [commands, Machine.answered]
  | cons arrival rest ih =>
      obtain ⟨later, now⟩ := turn_short decoder console arrival short
      rw [commands_cons, List.forall_mem_append]
      exact ⟨fun command member => now command (Option.mem_toList.mp member), ih _ later⟩

theorem running_of_commands (running : console.running = true)
    (back : ∀ command ∈ commands decoder console arrivals, command.2.goesOn = true) :
    ((run decoder).final console arrivals).running = true := by
  induction arrivals generalizing console with
  | nil => exact running
  | cons arrival rest ih =>
      rw [commands_cons, List.forall_mem_append] at back
      refine ih (turn decoder console arrival).2 ?_ back.2
      have now := back.1
      have turned := turn_cases decoder console arrival running
      generalize turn decoder console arrival = effect at turned now
      cases turned with
      | read => exact running
      | entered => exact now _ List.mem_cons_self

/-- The arguments of the line are ones that its command can rely on. -/
def Proper (fs : Fat32Fs) (session : Session) (line : Line) : Prop :=
  match words line with
  | [] => True
  | cmd :: args =>
      Allowed fs session.vfs (fs.view session.device) (Command.ofWord cmd) (args.map encode)

/-- Whatever arrives, from the first prompt on, the shell runs the lines that are typed, which are
short, as the specification allows, as long as their arguments are proper.  The kernel stays at its
prompt. -/
theorem typed_serves_tree {fs : Fat32Fs} (geometry : fs.Geometry) {session : Session}
    (tidy : Tidy fs session)
    (proper : prompt.Meets (Proper fs) session
      ((commands decoder (.boot decoder session) arrivals).map Prod.fst)) :
    commands decoder (.boot decoder session) arrivals = prompt.answered session
        ((commands decoder (.boot decoder session) arrivals).map Prod.fst) ∧
      ((run decoder).final (.boot decoder session) arrivals).session = prompt.final session
        ((commands decoder (.boot decoder session) arrivals).map Prod.fst) ∧
      (∀ command ∈ commands decoder (.boot decoder session) arrivals,
        (encode command.1).length ≤ maxInputLen + 3) ∧
      Performance Performs (desk fs session) (commands decoder (.boot decoder session) arrivals)
        (desk fs ((run decoder).final (.boot decoder session) arrivals).session) ∧
      Tidy fs ((run decoder).final (.boot decoder session) arrivals).session ∧
      ((run decoder).final (.boot decoder session) arrivals).running = true := by
  have short := commands_short decoder (.boot decoder session) arrivals (Nat.zero_le _)
  have gentle : prompt.Meets (Gentle fs) session
      ((commands decoder (.boot decoder session) arrivals).map Prod.fst) :=
    prompt.meets_and proper fun line member => by
      obtain ⟨command, listed, rfl⟩ := List.mem_map.mp member
      exact (short command listed).trans (by decide)
  obtain ⟨answered, final⟩ := commands_prompt decoder (.boot decoder session) arrivals
  change _ = prompt.final session _ at final
  change _ = prompt.answered session _ at answered
  obtain ⟨performance, tidy'⟩ := prompt.simulates (desk fs) (Tidy fs) (Gentle fs)
    (fun _ _ tidy gentle => processCommand_performs tidy geometry gentle) tidy gentle
  rw [← answered] at performance
  rw [final]
  refine ⟨answered, rfl, short, performance, tidy', running_of_commands decoder _ arrivals rfl ?_⟩
  refine performance.answers (fun _ outcome => outcome.goesOn = true) ?_
  intro desk line outcome desk' performs
  cases performs <;> rfl

/-- Backspace and Enter of the first scancode set. -/
def twoKeys : Decoder Unit where
  new := ()
  process _ code :=
    if code = 0x0E then (some (.unicode '\x08'), ())
    else if code = 0x1C then (some (.unicode '\n'), ()) else (none, ())

/-- A file is written, with a slip, printed and removed. -/
def typedBytes : List Arrival :=
  (text "write /F hellp").map .serial ++ [.scancode 0x0E, .scancode 0x8E, .idle] ++
    (text "o  world").map .serial ++ [.scancode 0x1C, .scancode 0x9C] ++
    (text " cat /f\rrm /F\n").map .serial

theorem typed_serves_file :
    Tidy smallFs ((run twoKeys).final (.boot twoKeys blankSession) typedBytes).session ∧
    (commands twoKeys (.boot twoKeys blankSession) typedBytes).map Prod.fst = fileLines := by
  have typed : (commands twoKeys (.boot twoKeys blankSession) typedBytes).map Prod.fst =
      fileLines := by decide +kernel
  refine ⟨(typed_serves_tree twoKeys typedBytes smallFs_geometry blank_tidy ?_).2.2.2.2.1, typed⟩
  rw [typed]
  exact prompt.meets_imp (fun _ _ gentle => gentle.2) blank_gentle

end ArcadiaOs.Terminal
