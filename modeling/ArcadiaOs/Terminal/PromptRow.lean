import ArcadiaOs.Terminal.TypedRuns

/-!
The row under the cursor.  What a command prints ends its row, so that the prompt stands at the
beginning of one, and what is typed keeps standing behind it.
-/

namespace ArcadiaOs.Terminal

open Lib Fs

def EndsRow (text : Text) : Prop := text = [] ∨ text.getLast? = some 0x0A

theorem endsRow_append (front : Text) {back : Text} (last : back.getLast? = some 0x0A) :
    EndsRow (front ++ back) := by
  right
  rw [List.getLast?_append, last]
  rfl

theorem endsRow_println (line : Text) : EndsRow (println line) := endsRow_append line rfl

def Prints (action : Disk Empty Text) : Prop :=
  ∀ device text device', action device = .ok text device' → EndsRow text

theorem Prints.pure {text : Text} (ends : EndsRow text) : Prints (pure text) := by
  intro device text' device' ran
  cases ran
  exact ends

theorem Prints.bind {α : Type} {action : Disk Empty α} {next : α → Disk Empty Text}
    (prints : ∀ value, Prints (next value)) : Prints (action >>= next) := by
  intro device text device' ran
  simp only [Bind.bind, EStateM.bind] at ran
  cases effect : action device with
  | ok value middle =>
      rw [effect] at ran
      exact prints value middle text device' ran
  | error halt middle =>
      rw [effect] at ran
      cases ran

theorem endsRow_failed (command : String) (reason : VfsError) : EndsRow (failed command reason) :=
  endsRow_println _

theorem endsRow_listText (path : Path) (entries : List VfsNode) :
    EndsRow (listText path entries) := by
  rw [listText]
  split
  · exact endsRow_println _
  · exact endsRow_append _ (by simp [println])

theorem endsRow_catText (data : List UInt8) : EndsRow (catText data) := by
  rw [catText]
  split
  · next ends =>
    obtain ⟨front, rfl⟩ := List.getLast?_eq_some_iff.mp ends
    rw [List.append_nil, List.filter_append, List.map_append, encode_append]
    exact endsRow_append _ rfl
  · exact endsRow_append _ rfl

variable (vfs : VfsManager) (args : List Path)

theorem cmdLs_prints : Prints (cmdLs vfs args) :=
  .bind fun result => by
    cases result with
    | ok entries => exact .pure (endsRow_listText _ entries)
    | error reason => exact .pure (endsRow_failed _ reason)

theorem cmdCat_prints : Prints (cmdCat vfs args) := by
  cases args with
  | nil => exact .pure (endsRow_println _)
  | cons path rest =>
      refine .bind fun result => ?_
      cases result with
      | ok data => exact .pure (endsRow_catText data)
      | error reason => exact .pure (endsRow_failed _ reason)

theorem cmdTouch_prints : Prints (cmdTouch vfs args) := by
  cases args with
  | nil => exact .pure (endsRow_println _)
  | cons path rest =>
      refine .bind fun result => ?_
      split
      · exact .pure (endsRow_println _)
      · refine .bind fun result => ?_
        split
        · exact .pure (endsRow_println _)
        · exact .pure (endsRow_failed _ _)
      · exact .pure (endsRow_failed _ _)

theorem cmdMkdir_prints : Prints (cmdMkdir vfs args) := by
  cases args with
  | nil => exact .pure (endsRow_println _)
  | cons path rest =>
      refine .bind fun result => ?_
      split
      · exact .pure (endsRow_println _)
      · exact .pure (endsRow_failed _ _)

theorem cmdWrite_prints : Prints (cmdWrite vfs args) := by
  match args with
  | [] => exact .pure (endsRow_println _)
  | [_] => exact .pure (endsRow_println _)
  | path :: word :: words =>
      refine .bind fun result => ?_
      split
      · exact .pure (endsRow_println _)
      · exact .pure (endsRow_failed _ _)

theorem cmdRm_prints : Prints (cmdRm vfs args) := by
  cases args with
  | nil => exact .pure (endsRow_println _)
  | cons path rest =>
      refine .bind fun result => ?_
      split
      · split
        · exact .pure (endsRow_println _)
        · refine .bind fun result => ?_
          split
          · exact .pure (endsRow_println _)
          · exact .pure (endsRow_failed _ _)
      · exact .pure (endsRow_failed _ _)

section Lines

variable {session : Session} {text : Text}

theorem runCommand_ends {action : Disk Empty Text} (prints : Prints action)
    (printed : (runCommand session action).1 = .printed text) : EndsRow text := by
  rw [runCommand] at printed
  cases effect : action session.device with
  | ok value device =>
      rw [effect] at printed
      exact Outcome.printed.inj printed ▸ prints _ _ _ effect
  | error halt device =>
      rw [effect] at printed
      cases printed

theorem runCd_ends {args : List Path} (printed : (runCd session args).1 = .printed text) :
    EndsRow text := by
  rw [runCd] at printed
  split at printed
  · exact Outcome.printed.inj printed ▸ endsRow_println _
  · exact Outcome.printed.inj printed ▸ endsRow_failed _ _
  · cases printed

theorem dispatch_ends {cmd : Line} {args : List Path}
    (printed : (dispatch session cmd args).1 = .printed text) : EndsRow text := by
  rw [dispatch] at printed
  split at printed
  case h_4 => exact runCommand_ends (cmdLs_prints _ _) printed
  case h_5 => exact runCommand_ends (cmdCat_prints _ _) printed
  case h_6 => exact runCommand_ends (cmdTouch_prints _ _) printed
  case h_7 => exact runCommand_ends (cmdMkdir_prints _ _) printed
  case h_8 => exact runCommand_ends (cmdWrite_prints _ _) printed
  case h_9 => exact runCommand_ends (cmdRm_prints _ _) printed
  case h_10 => exact runCd_ends printed
  case h_12 => cases printed
  all_goals exact Outcome.printed.inj printed ▸ endsRow_println _

/-- What a line makes the shell print ends with the row it is on. -/
theorem processCommand_ends {line : Line}
    (printed : (processCommand session line).1 = .printed text) : EndsRow text := by
  rcases processCommand_cases session line with ⟨_, effect⟩ | ⟨cmd, args, _, effect⟩
  · rw [effect] at printed
    exact .inl (Outcome.printed.inj printed).symm
  · rw [effect] at printed
    exact dispatch_ends printed

end Lines

def promptText : Line := "arcadia> ".toList

/-- The prompt, printed at the beginning of a row. -/
def promptRow : Row := promptText.foldl Row.put ⟨[], 0⟩

/-- Each byte stands for a character: a row is looked at behind a text only, and texts end theirs. -/
def Row.print (row : Row) (text : Text) : Row :=
  text.foldl (fun row byte => row.put (Char.ofNat byte.toNat)) row

/-- The row behind what a turn prints; a command that comes back is followed by the prompt. -/
def Row.after (row : Row) (response : Response) : Row :=
  let echoed := response.echo.foldl Row.put row
  match response.command with
  | some (_, .printed text) => promptText.foldl Row.put (echoed.print text)
  | _ => echoed

theorem print_ends {text : Text} (ends : EndsRow text) : Row.print ⟨[], 0⟩ text = ⟨[], 0⟩ := by
  rcases ends with rfl | last
  · rfl
  · obtain ⟨front, rfl⟩ := List.getLast?_eq_some_iff.mp last
    rw [Row.print, List.foldl_append]
    rfl

variable {Kbd : Type} (decoder : Decoder Kbd)

theorem turn_row {console : Console Kbd} {row : Row}
    (shown : console.running = true → row.Shows (promptText ++ console.terminal.inputBuffer))
    (arrival : Arrival) : (turn decoder console arrival).2.running = true →
      (row.after (turn decoder console arrival).1).Shows
        (promptText ++ (turn decoder console arrival).2.terminal.inputBuffer) := by
  cases running : console.running with
  | false =>
      rw [turn_stopped decoder console arrival running, running]
      exact fun goes => nomatch goes
  | true =>
      have turned := turn_cases decoder console arrival running
      generalize turn decoder console arrival = effect at turned
      cases turned with
      | read editing => exact fun _ => editing.edits.shows (shown running)
      | entered =>
          intro goes
          have back : (processCommand console.session console.terminal.inputBuffer).1.goesOn = true :=
            goes
          cases outcome : (processCommand console.session console.terminal.inputBuffer).1 with
          | printed text =>
              have started : ['\n'].foldl Row.put row = ⟨[], 0⟩ := rfl
              simp only [Row.after, started, print_ends (processCommand_ends outcome)]
              exact ⟨rfl, 0, rfl⟩
          | panicked | elsewhere => simp [outcome, Outcome.goesOn] at back

theorem run_row {console : Console Kbd} {row : Row}
    (shown : console.running = true → row.Shows (promptText ++ console.terminal.inputBuffer))
    (arrivals : List Arrival) : ((run decoder).final console arrivals).running = true →
      ((((run decoder).answered console arrivals).map Prod.snd).foldl Row.after row).Shows
        (promptText ++ ((run decoder).final console arrivals).terminal.inputBuffer) := by
  induction arrivals generalizing console row with
  | nil => exact shown
  | cons arrival rest ih => exact ih (turn_row decoder shown arrival)

theorem commands_end (console : Console Kbd) (arrivals : List Arrival) {command : Line × Outcome}
    (member : command ∈ commands decoder console arrivals) {text : Text}
    (printed : command.2 = .printed text) : EndsRow text := by
  induction arrivals generalizing console with
  | nil => cases member
  | cons arrival rest ih =>
      rw [commands_cons, List.mem_append] at member
      rcases member with now | later
      · rcases turn_session decoder console arrival with ⟨none, _⟩ | ⟨line, ran, _⟩
        · rw [none] at now
          cases now
        · rw [ran, Option.toList_some, List.mem_singleton] at now
          rw [now] at printed
          exact processCommand_ends printed
      · exact ih _ later

/-- As long as the kernel is at its prompt, the row under the cursor shows the prompt and the line as
it is going to be run; every command before has ended the row it printed on. -/
theorem prompt_shows_line (session : Session) (arrivals : List Arrival)
    (running : ((run decoder).final (.boot decoder session) arrivals).running = true) :
    ((((run decoder).answered (.boot decoder session) arrivals).map Prod.snd).foldl Row.after
      promptRow).Shows
      (promptText ++ ((run decoder).final (.boot decoder session) arrivals).terminal.inputBuffer) ∧
    ∀ command ∈ commands decoder (.boot decoder session) arrivals, ∀ text,
      command.2 = .printed text → EndsRow text :=
  ⟨run_row decoder (fun _ => ⟨rfl, 0, rfl⟩) arrivals running,
    fun _ member _ => commands_end decoder _ arrivals member⟩

theorem prompt_shows_slip : ((((run twoKeys).answered (.boot twoKeys blankSession)
    ((text "write /F hellp").map .serial ++ [.scancode 0x0E])).map Prod.snd).foldl Row.after
      promptRow).Shows "arcadia> write /F hell".toList :=
  (prompt_shows_line twoKeys blankSession _ (by decide +kernel)).1

end ArcadiaOs.Terminal
