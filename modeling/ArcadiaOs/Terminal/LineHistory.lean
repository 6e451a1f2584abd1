import ArcadiaOs.Terminal.TypedRuns

/-!
The history holds the last lines that were typed.  The arrow keys move an index in it, and neither
has a part in what is typed or run.
-/

namespace ArcadiaOs.Terminal

open Lib Fs

variable {Kbd : Type} (decoder : Decoder Kbd)

def newest (lines : List Line) : List Line := lines.drop (lines.length - maxHistory)

theorem newest_append (front back : List Line) :
    newest (newest front ++ back) = newest (front ++ back) := by
  have dropped : newest front ++ back = (front ++ back).drop (front.length - maxHistory) :=
    (List.drop_append_of_le_length (Nat.sub_le _ _)).symm
  rw [dropped, newest, List.drop_drop, List.length_drop, newest]
  congr 1
  rw [List.length_append]
  omega

theorem newest_short {lines : List Line} (short : lines.length ≤ maxHistory) :
    newest lines = lines := by
  rw [newest, Nat.sub_eq_zero_of_le short]
  rfl

theorem length_newest (lines : List Line) : (newest lines).length ≤ maxHistory := by
  rw [newest, List.length_drop]
  omega

theorem enter_history (terminal : TerminalState) (short : terminal.history.length ≤ maxHistory) :
    terminal.enter.2.history =
      newest (terminal.history ++ [terminal.inputBuffer].filter (· ≠ [])) := by
  rw [TerminalState.enter]
  split
  · next empty => simp [empty, newest_short short]
  · next entered =>
    have kept : [terminal.inputBuffer].filter (· ≠ []) = [terminal.inputBuffer] := by
      simp [entered]
    have length : (terminal.history ++ [terminal.inputBuffer]).length =
        terminal.history.length + 1 := List.length_append
    rw [kept]
    dsimp only
    split
    · next full =>
      rw [List.eraseIdx_zero, ← List.drop_one, newest]
      congr 1
      omega
    · exact (newest_short (by omega)).symm

theorem turn_history {console : Console Kbd} (short : console.terminal.history.length ≤ maxHistory)
    (arrival : Arrival) : (turn decoder console arrival).2.terminal.history =
      newest (console.terminal.history ++
        ((turn decoder console arrival).1.command.toList.map Prod.fst).filter (· ≠ [])) := by
  cases running : console.running with
  | false =>
      rw [turn_stopped decoder console arrival running]
      simp [newest_short short]
  | true =>
      have turned := turn_cases decoder console arrival running
      generalize turn decoder console arrival = effect at turned
      cases turned with
      | read editing => simp [editing.history, newest_short short]
      | entered => exact enter_history console.terminal short

theorem run_history {console : Console Kbd} (short : console.terminal.history.length ≤ maxHistory)
    (arrivals : List Arrival) : ((run decoder).final console arrivals).terminal.history =
      newest (console.terminal.history ++
        ((commands decoder console arrivals).map Prod.fst).filter (· ≠ [])) := by
  induction arrivals generalizing console with
  | nil => simp [commands, Machine.answered, newest_short short]
  | cons arrival rest ih =>
      have now := turn_history decoder short arrival
      have later := @ih (turn decoder console arrival).2 (now ▸ length_newest _)
      rw [Machine.final_cons, commands_cons, List.map_append, List.filter_append,
        ← List.append_assoc, ← newest_append, ← now]
      exact later

theorem turn_indexed {console : Console Kbd} (indexed : console.terminal.Indexed)
    (arrival : Arrival) : (turn decoder console arrival).2.terminal.Indexed := by
  cases running : console.running with
  | false =>
      rw [turn_stopped decoder console arrival running]
      exact indexed
  | true =>
      have turned := turn_cases decoder console arrival running
      generalize turn decoder console arrival = effect at turned
      cases turned with
      | read editing => exact editing.indexed indexed
      | entered =>
          intro index same
          rw [Console.ran, TerminalState.enter] at same ⊢
          dsimp only at same ⊢
          split at same
          · next empty =>
            rw [if_pos empty]
            exact indexed index same
          · cases same

/-- At every moment of a run the history is made of the last fifty lines that were not empty, and the
index is that of one of them. -/
theorem history_keeps_newest (session : Session) (arrivals : List Arrival) :
    ((run decoder).final (.boot decoder session) arrivals).terminal.history =
      newest (((commands decoder (.boot decoder session) arrivals).map Prod.fst).filter (· ≠ [])) ∧
    ((run decoder).final (.boot decoder session) arrivals).terminal.Indexed := by
  have start : (Console.boot decoder session).terminal.Indexed := fun _ same => nomatch same
  refine ⟨@run_history Kbd decoder (.boot decoder session) (Nat.zero_le _) arrivals, ?_⟩
  exact (run decoder).final_invariant (fun console => console.terminal.Indexed) (fun _ _ => True)
    (fun _ arrival indexed _ => turn_indexed decoder indexed arrival) _ arrivals start
    ((run decoder).meets_trivial _ arrivals)

/-! The arrow keys. -/

structure Alike (first second : Console Kbd) : Prop where
  buffer : first.terminal.inputBuffer = second.terminal.inputBuffer
  keyboard : first.keyboard = second.keyboard
  session : first.session = second.session
  running : first.running = second.running

section Alike

variable {first second : TerminalState} (same : first.inputBuffer = second.inputBuffer)

def Matching (left right : Echo × TerminalState) : Prop :=
  left.1 = right.1 ∧ left.2.inputBuffer = right.2.inputBuffer

include same

theorem enter_matching : Matching first.enter second.enter :=
  ⟨rfl, by rw [first.enter_buffer, second.enter_buffer, same]⟩

theorem backspace_matching : Matching first.backspace second.backspace := by
  rw [TerminalState.backspace, TerminalState.backspace, same]
  split
  · exact ⟨rfl, same⟩
  · exact ⟨rfl, rfl⟩

theorem insert_matching (char : Char) : Matching (first.insert char) (second.insert char) := by
  rw [TerminalState.insert, TerminalState.insert, same]
  split
  · exact ⟨rfl, rfl⟩
  · exact ⟨rfl, same⟩

theorem pressKey_matching (key : DecodedKey) :
    Matching (first.pressKey key) (second.pressKey key) := by
  cases key with
  | unicode char =>
      rw [TerminalState.pressKey, TerminalState.pressKey]
      split
      · exact enter_matching same
      split
      · exact backspace_matching same
      split
      · exact ⟨rfl, same⟩
      · exact insert_matching same char
  | arrowUp | arrowDown | rawKey => exact ⟨rfl, same⟩

theorem serialByte_matching (byte : UInt8) :
    Matching (first.serialByte byte) (second.serialByte byte) := by
  rw [TerminalState.serialByte, TerminalState.serialByte]
  split
  · exact enter_matching same
  split
  · exact backspace_matching same
  split
  · exact insert_matching same _
  · exact ⟨rfl, same⟩

theorem readTurn_matching (keyboard : Kbd) (arrival : Arrival) :
    Matching (readTurn decoder first keyboard arrival).1
        (readTurn decoder second keyboard arrival).1 ∧
      (readTurn decoder first keyboard arrival).2 =
        (readTurn decoder second keyboard arrival).2 := by
  cases arrival with
  | scancode code =>
      rw [readTurn, readTurn]
      split
      · exact ⟨pressKey_matching same _, rfl⟩
      · exact ⟨⟨rfl, same⟩, rfl⟩
  | serial byte => exact ⟨serialByte_matching same byte, rfl⟩
  | idle => exact ⟨⟨rfl, same⟩, rfl⟩

end Alike

variable {first second : Console Kbd}

theorem turn_alike (alike : Alike first second) (arrival : Arrival) :
    (turn decoder first arrival).1 = (turn decoder second arrival).1 ∧
      Alike (turn decoder first arrival).2 (turn decoder second arrival).2 := by
  obtain ⟨buffer, keyboard, session, running⟩ := alike
  obtain ⟨⟨echo, line⟩, decoded⟩ := readTurn_matching decoder buffer first.keyboard arrival
  rw [turn, turn, ← running, ← keyboard, ← session]
  split
  · dsimp only
    rw [← echo, ← line]
    split
    · exact ⟨rfl, rfl, rfl, rfl, rfl⟩
    · exact ⟨rfl, line, decoded, rfl, rfl⟩
  · exact ⟨rfl, buffer, keyboard, session, running⟩

theorem run_alike (alike : Alike first second) (arrivals : List Arrival) :
    (run decoder).answered first arrivals = (run decoder).answered second arrivals ∧
      Alike ((run decoder).final first arrivals) ((run decoder).final second arrivals) := by
  induction arrivals generalizing first second with
  | nil => exact ⟨rfl, alike⟩
  | cons arrival rest ih =>
      obtain ⟨response, next⟩ := turn_alike decoder alike arrival
      obtain ⟨responses, final⟩ := ih next
      refine ⟨?_, final⟩
      rw [Machine.answered_cons, Machine.answered_cons]
      exact congrArg₂ _ (congrArg _ response) responses

/-- The scancodes are those of arrow keys, and leave the decoder as it was before them. -/
def ArrowsOnly (keyboard : Kbd) : List UInt8 → Kbd → Prop
  | [], keyboard' => keyboard' = keyboard
  | code :: rest, keyboard' =>
      (∀ key, (decoder.process keyboard code).1 = some key → key = .arrowUp ∨ key = .arrowDown) ∧
        ArrowsOnly (decoder.process keyboard code).2 rest keyboard'

theorem arrow_turn {console : Console Kbd} (running : console.running = true) {code : UInt8}
    (arrow : ∀ key, (decoder.process console.keyboard code).1 = some key →
      key = .arrowUp ∨ key = .arrowDown) :
    ∃ index, turn decoder console (.scancode code) = (⟨[], none⟩,
      { console with
        terminal := { console.terminal with historyIndex := index }
        keyboard := (decoder.process console.keyboard code).2 }) := by
  rw [turn, if_pos running, readTurn]
  generalize decoder.process console.keyboard code = decoded at arrow ⊢
  rcases decoded with ⟨none | key, keyboard⟩
  · exact ⟨console.terminal.historyIndex, rfl⟩
  · rcases arrow key rfl with rfl | rfl
    · exact ⟨console.terminal.arrowUp, rfl⟩
    · exact ⟨console.terminal.arrowDown, rfl⟩

theorem arrows_run {console : Console Kbd} (running : console.running = true)
    {codes : List UInt8} {keyboard : Kbd}
    (arrows : ArrowsOnly decoder console.keyboard codes keyboard) :
    commands decoder console (codes.map .scancode) = [] ∧
      ∃ index, (run decoder).final console (codes.map .scancode) =
        { console with
          terminal := { console.terminal with historyIndex := index }
          keyboard } := by
  induction codes generalizing console with
  | nil =>
      obtain rfl := arrows
      exact ⟨rfl, console.terminal.historyIndex, rfl⟩
  | cons code rest ih =>
      obtain ⟨index, moved⟩ := arrow_turn decoder running arrows.1
      obtain ⟨silent, last, final⟩ := @ih { console with
        terminal := { console.terminal with historyIndex := index }
        keyboard := (decoder.process console.keyboard code).2 } running arrows.2
      rw [List.map_cons, commands_cons, Machine.final_cons, run_step, moved]
      exact ⟨silent, last, final⟩

theorem stopped_run {console : Console Kbd} (stopped : console.running = false)
    (arrivals : List Arrival) : commands decoder console arrivals = [] ∧
      (run decoder).final console arrivals = console := by
  induction arrivals with
  | nil => exact ⟨rfl, rfl⟩
  | cons arrival rest ih =>
      rw [commands_cons, Machine.final_cons, run_step,
        turn_stopped decoder console arrival stopped]
      exact ih

theorem commands_append (console : Console Kbd) (before after : List Arrival) :
    commands decoder console (before ++ after) = commands decoder console before ++
      commands decoder ((run decoder).final console before) after := by
  rw [commands, Machine.answered, Machine.events_append, List.map_append, List.filterMap_append]
  rfl

/-- Pressing arrow keys changes neither what is run nor what comes of it. -/
theorem arrows_change_nothing (session : Session) (before after : List Arrival)
    (codes : List UInt8)
    (arrows : ArrowsOnly decoder ((run decoder).final (.boot decoder session) before).keyboard codes
      ((run decoder).final (.boot decoder session) before).keyboard) :
    commands decoder (.boot decoder session) (before ++ (codes.map .scancode ++ after)) =
        commands decoder (.boot decoder session) (before ++ after) ∧
      Alike ((run decoder).final (.boot decoder session) (before ++ (codes.map .scancode ++ after)))
        ((run decoder).final (.boot decoder session) (before ++ after)) := by
  simp only [commands_append, Machine.final_append]
  generalize (run decoder).final (.boot decoder session) before = console at arrows ⊢
  obtain ⟨silent, alike⟩ : commands decoder console (codes.map .scancode) = [] ∧
      Alike ((run decoder).final console (codes.map .scancode)) console := by
    cases running : console.running with
    | false =>
        obtain ⟨silent, same⟩ := stopped_run decoder running (codes.map .scancode)
        rw [same]
        exact ⟨silent, rfl, rfl, rfl, rfl⟩
    | true =>
        obtain ⟨silent, index, moved⟩ := arrows_run decoder running arrows
        rw [moved]
        exact ⟨silent, rfl, rfl, rfl, rfl⟩
  obtain ⟨responses, final⟩ := run_alike decoder alike after
  rw [silent, List.nil_append]
  exact ⟨congrArg (_ ++ List.filterMap _ ·) responses, final⟩

/-- The arrow keys of the first scancode set, which a prefix marks, and Enter. -/
def extendedKeys : Decoder Bool where
  new := false
  process extended code :=
    if code = 0xE0 then (none, true)
    else if extended then
      (if code = 0x48 then some .arrowUp else if code = 0x50 then some .arrowDown else none, false)
    else (if code = 0x1C then some (.unicode '\n') else none, false)

/-- The line before is not brought back. -/
theorem arrows_recall_nothing :
    commands extendedKeys (.boot extendedKeys blankSession) ((text "pwd\r").map .serial ++
        ([0xE0, 0x48, 0xE0, 0xC8].map .scancode ++ [.scancode 0x1C])) =
      [("pwd".toList, .printed (text "/\n")), ([], .printed [])] := by
  have fresh : ((run extendedKeys).final (.boot extendedKeys blankSession)
      ((text "pwd\r").map .serial)).keyboard = false := by decide +kernel
  refine (arrows_change_nothing extendedKeys blankSession _ _ _ ?_).1.trans (by decide +kernel)
  rw [fresh]
  exact ⟨fun _ same => (nomatch same), fun _ same => .inl (Option.some.inj same).symm,
    fun _ same => (nomatch same), fun _ same => (nomatch same), rfl⟩

end ArcadiaOs.Terminal
