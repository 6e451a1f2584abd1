import ArcadiaOs.Terminal.ReadLine
import ArcadiaOs.Terminal.Words

/-!
The line that is typed.  Its echo keeps the row on the screen as it is, the history holds the last
lines, and neither the history nor the arrow keys have a part in what is run.
-/

namespace ArcadiaOs.Terminal

open Lib Fs

/-- What a key other than Enter does to the line, and its echo. -/
inductive Edits : Line → Line → Line → Prop
  | kept {buffer : Line} : Edits buffer [] buffer
  | erased {front : Line} {char : Char} : Edits (front ++ [char]) "\x08 \x08".toList front
  | typed {buffer : Line} {char : Char} : (encode buffer).length < maxInputLen →
      isControl char = false → Edits buffer [char] (buffer ++ [char])

def TerminalState.Indexed (terminal : TerminalState) : Prop :=
  ∀ index, terminal.historyIndex = some index → index < terminal.history.length

/-- A key that leaves the line to be read. -/
structure Editing (terminal : TerminalState) (effect : Echo × TerminalState) : Prop where
  reading : effect.1.returned = false
  edits : Edits terminal.inputBuffer effect.1.text effect.2.inputBuffer
  history : effect.2.history = terminal.history
  indexed : terminal.Indexed → effect.2.Indexed

namespace TerminalState

variable (terminal : TerminalState)

theorem editing_kept : Editing terminal (⟨[], false⟩, terminal) := ⟨rfl, .kept, rfl, id⟩

theorem backspace_editing : Editing terminal terminal.backspace := by
  rw [backspace]
  split
  · exact terminal.editing_kept
  · next some =>
    refine ⟨rfl, ?_, rfl, id⟩
    have edits := @Edits.erased terminal.inputBuffer.dropLast (terminal.inputBuffer.getLast some)
    rwa [List.dropLast_append_getLast] at edits

theorem insert_editing {char : Char} (plain : isControl char = false) :
    Editing terminal (terminal.insert char) := by
  rw [insert]
  split
  · next room => exact ⟨rfl, .typed room plain, rfl, id⟩
  · exact terminal.editing_kept

theorem arrowUp_indexed (indexed : terminal.Indexed) :
    ({ terminal with historyIndex := terminal.arrowUp } : TerminalState).Indexed := by
  intro index same
  simp only [arrowUp] at same
  split at same
  · next before at' =>
    have := indexed before at'
    split at same <;> simp only [Option.some.injEq] at same <;> dsimp only <;> omega
  · split at same
    · cases same
    · next some =>
      have := List.length_pos_iff.mpr some
      simp only [Option.some.injEq] at same
      dsimp only
      omega

theorem arrowDown_indexed :
    ({ terminal with historyIndex := terminal.arrowDown } : TerminalState).Indexed := by
  intro index same
  simp only [arrowDown] at same
  split at same
  · split at same
    · next inside =>
      simp only [Option.some.injEq] at same
      exact same ▸ inside
    · cases same
  · cases same

theorem pressKey_cases (key : DecodedKey) :
    terminal.pressKey key = terminal.enter ∨ Editing terminal (terminal.pressKey key) := by
  cases key with
  | unicode char =>
      rw [pressKey]
      split
      · exact .inl rfl
      split
      · exact .inr terminal.backspace_editing
      split
      · exact .inr terminal.editing_kept
      · next plain => exact .inr (terminal.insert_editing (Bool.eq_false_of_not_eq_true plain))
  | arrowUp => exact .inr ⟨rfl, .kept, rfl, terminal.arrowUp_indexed⟩
  | arrowDown => exact .inr ⟨rfl, .kept, rfl, fun _ => terminal.arrowDown_indexed⟩
  | rawKey => exact .inr terminal.editing_kept

theorem serialByte_cases (byte : UInt8) :
    terminal.serialByte byte = terminal.enter ∨ Editing terminal (terminal.serialByte byte) := by
  rw [serialByte]
  split
  · exact .inl rfl
  split
  · exact .inr terminal.backspace_editing
  split
  · next printable =>
    refine .inr (terminal.insert_editing ?_)
    have low := UInt8.le_iff_toNat_le.mp printable.1
    have high := UInt8.lt_iff_toNat_lt.mp printable.2
    rw [isControl, latin_number]
    simp at low high ⊢
    omega
  · exact .inr terminal.editing_kept

theorem enter_buffer : terminal.enter.2.inputBuffer = terminal.inputBuffer := by
  rw [enter]
  split <;> rfl

end TerminalState

theorem readTurn_cases {Kbd : Type} (decoder : Decoder Kbd) (terminal : TerminalState)
    (keyboard : Kbd) (arrival : Arrival) :
    (readTurn decoder terminal keyboard arrival).1 = terminal.enter ∨
      Editing terminal (readTurn decoder terminal keyboard arrival).1 := by
  cases arrival with
  | scancode code =>
      rw [readTurn]
      split
      · exact terminal.pressKey_cases _
      · exact .inr terminal.editing_kept
  | serial byte => exact terminal.serialByte_cases byte
  | idle => exact .inr terminal.editing_kept

/-! The row under the cursor. -/

/-- A row of the screen at the other end of the serial port, with its cursor. -/
structure Row where
  text : Line
  cursor : Nat

/-- A character is put under the cursor; a backspace steps back, and a newline begins a row. -/
def Row.put (row : Row) (char : Char) : Row :=
  if char = '\x08' then { row with cursor := row.cursor - 1 }
  else if char = '\n' then ⟨[], 0⟩
  else ⟨row.text.take row.cursor ++ [char] ++ row.text.drop (row.cursor + 1), row.cursor + 1⟩

/-- The row shows the line, with the cursor behind it and nothing but blanks from there on. -/
def Row.Shows (row : Row) (line : Line) : Prop :=
  row.cursor = line.length ∧ ∃ count, row.text = line ++ List.replicate count ' '

theorem Row.Shows.typed {row : Row} {line : Line} (shown : row.Shows line) {char : Char}
    (plain : isControl char = false) : (row.put char).Shows (line ++ [char]) := by
  obtain ⟨cursor, count, text⟩ := shown
  have other : char ≠ '\x08' := by
    rintro rfl
    cases plain
  have same : char ≠ '\n' := by
    rintro rfl
    cases plain
  rw [Row.put, if_neg other, if_neg same, cursor, text]
  refine ⟨by simp, count - 1, ?_⟩
  simp [List.drop_append]

theorem Row.Shows.erased {row : Row} {front : Line} {char : Char}
    (shown : row.Shows (front ++ [char])) :
    ("\x08 \x08".toList.foldl Row.put row).Shows front := by
  obtain ⟨cursor, count, text⟩ := shown
  rw [List.length_append, List.length_singleton] at cursor
  refine ⟨?_, count + 1, ?_⟩
  · simp [Row.put, cursor]
  · simp [Row.put, cursor, text, List.drop_append, List.replicate_succ]

theorem Edits.shows {buffer echo buffer' : Line} (edits : Edits buffer echo buffer') {row : Row}
    {prompt : Line} (shown : row.Shows (prompt ++ buffer)) :
    (echo.foldl Row.put row).Shows (prompt ++ buffer') := by
  cases edits with
  | kept => exact shown
  | erased =>
      rw [← List.append_assoc] at shown
      exact shown.erased
  | typed room plain =>
      rw [← List.append_assoc]
      exact shown.typed plain

end ArcadiaOs.Terminal
