import ArcadiaOs.Lib.Layout
import ArcadiaOs.Terminal.VgaBuffer
import Mathlib.Data.List.GetD
import Mathlib.Data.List.Induction

/-!
What the screen shows: the end of the text printed since it was last cleared, laid out in lines of
80 characters, at the bottom of the screen.
-/

namespace ArcadiaOs.Terminal

open Lib

theorem foldlM_concat {α β : Type} {body : β → α → Option β} {front : List α} {state next : β}
    (ran : front.foldlM body state = some next) (value : α) :
    (front ++ [value]).foldlM body state = body next value := by
  rw [List.foldlM_append, ran, Option.bind_eq_bind, Option.bind_some, List.foldlM_cons]
  exact bind_pure _

namespace Writer

variable (writer : Writer)

theorem cells_eq (row : Nat) (inside : row < bufferHeight) (value : Nat → ScreenChar)
    (body : Writer → Nat → Option Writer)
    (writes : ∀ written col, col < bufferWidth →
      (∀ row' ≠ row, written.buffer row' = writer.buffer row') →
      body written col = written.writeVolatile row col (value col)) {count : Nat}
    (bound : count ≤ bufferWidth) :
    (List.range count).foldlM body writer = some { writer with
      buffer := fun row' col => if row' = row ∧ col < count then value col
        else writer.buffer row' col } := by
  induction count with
  | zero => simp
  | succ count ih =>
      rw [List.range_succ, foldlM_concat (ih (by omega)), writes _ _ (by omega), writeVolatile,
        if_pos ⟨inside, by omega⟩]
      · simp only [Option.some.injEq, mk.injEq, true_and]
        funext row' col
        grind
      · intro row' other
        funext col
        exact if_neg fun same => other same.1

theorem clearRow_eq (row : Nat) (inside : row < bufferHeight) :
    writer.clearRow row = some { writer with
      buffer := fun row' col => if row' = row ∧ col < bufferWidth then writer.blank
        else writer.buffer row' col } :=
  cells_eq writer row inside (fun _ => writer.blank) _ (fun _ _ _ _ => rfl) (Nat.le_refl _)

theorem copyUp_eq (row : Nat) (inside : row + 1 < bufferHeight) :
    writer.copyUp (row + 1) = some { writer with
      buffer := fun row' col => if row' = row ∧ col < bufferWidth then writer.buffer (row + 1) col
        else writer.buffer row' col } := by
  refine cells_eq writer row (by omega) (writer.buffer (row + 1)) _ ?_ (Nat.le_refl _)
  intro written col bound kept
  rw [readVolatile, if_pos ⟨inside, bound⟩, kept (row + 1) (by omega)]
  rfl

theorem scroll_eq {count : Nat} (bound : count < bufferHeight) :
    (List.range' 1 count).foldlM copyUp writer = some { writer with
      buffer := fun row col => if row < count ∧ col < bufferWidth then writer.buffer (row + 1) col
        else writer.buffer row col } := by
  induction count with
  | zero => simp
  | succ count ih =>
      rw [List.range'_1_concat, foldlM_concat (ih (by omega)), Nat.add_comm 1,
        copyUp_eq _ _ (by omega)]
      simp only [Option.some.injEq, mk.injEq, true_and]
      funext row col
      grind

theorem newLine_eq : writer.newLine = some { writer with
    columnPosition := 0
    buffer := fun row col =>
      if row < bufferHeight ∧ col < bufferWidth then
        if row + 1 < bufferHeight then writer.buffer (row + 1) col else writer.blank
      else writer.buffer row col } := by
  rw [newLine, scroll_eq _ (by decide), Option.bind_eq_bind, Option.bind_some,
    clearRow_eq _ _ (by decide)]
  simp only [Option.bind_some, Option.some.injEq, mk.injEq, true_and, bufferHeight]
  funext row col
  grind [blank]

theorem clearScreen_eq : writer.clearScreen = some { writer with
    columnPosition := 0
    buffer := fun row col => if row < bufferHeight ∧ col < bufferWidth then writer.blank
      else writer.buffer row col } := by
  have cleared : ∀ count ≤ bufferHeight, (List.range count).foldlM clearRow writer =
      some { writer with
        buffer := fun row col => if row < count ∧ col < bufferWidth then writer.blank
          else writer.buffer row col } := by
    intro count bound
    induction count with
    | zero => simp
    | succ count ih =>
        rw [List.range_succ, foldlM_concat (ih (by omega)), clearRow_eq _ _ (by omega)]
        simp only [Option.some.injEq, mk.injEq, true_and]
        funext row col
        grind [blank]
  rw [clearScreen, cleared _ (Nat.le_refl _)]
  rfl

end Writer

/-- The line on a row, when the last of the lines stands on the last row. -/
def onRow (lines : List (List UInt8)) (row : Nat) : List UInt8 :=
  (List.replicate bufferHeight [] ++ lines).getD (lines.length + row) []

/-- The screen shows the lines, and the cursor is behind the last of them. -/
structure Shows (lines : List (List UInt8)) (color : UInt8) (writer : Writer) : Prop where
  colored : writer.colorCode = color
  column : ∀ above last, lines = above ++ [last] → writer.columnPosition = last.length
  cells : ∀ row < bufferHeight, ∀ col < bufferWidth,
    writer.buffer row col = ⟨(onRow lines row).getD col 0x20, color⟩

theorem onRow_up (lines : List (List UInt8)) (line : List UInt8) {row : Nat}
    (above : row + 1 < bufferHeight) : onRow (lines ++ [line]) row = onRow lines (row + 1) := by
  rw [onRow, onRow, List.length_append, List.length_singleton, ← List.append_assoc,
    List.getD_append _ _ _ _ (by simp; omega)]
  congr 1
  omega

theorem onRow_last (lines : List (List UInt8)) (line : List UInt8) :
    onRow (lines ++ [line]) (bufferHeight - 1) = line := by
  rw [onRow, ← List.append_assoc, List.getD_append_right] <;> simp [bufferHeight]

variable {lines above : List (List UInt8)} {last : List UInt8} {color : UInt8} {writer : Writer}

theorem Shows.newLine (shown : Shows lines color writer) :
    ∃ opened, writer.newLine = some opened ∧ Shows (lines ++ [[]]) color opened := by
  refine ⟨_, Writer.newLine_eq writer, shown.colored, ?_, ?_⟩
  · intro above last same
    obtain ⟨_, rfl⟩ := List.append_inj' same rfl |>.imp id (List.singleton_inj.mp ·)
    rfl
  · intro row inside col within
    dsimp only
    rw [if_pos ⟨inside, within⟩]
    split
    · next below =>
      rw [onRow_up _ _ below, shown.cells _ below _ within]
    · next =>
      obtain rfl : row = bufferHeight - 1 := by omega
      rw [onRow_last, Writer.blank, shown.colored]
      rfl

theorem Shows.put (shown : Shows (above ++ [last]) color writer) (room : last.length < bufferWidth)
    {byte : UInt8} (other : byte ≠ 0x0A) :
    ∃ written, writer.writeByte byte = some written ∧
      Shows (above ++ [last ++ [byte]]) color written := by
  have column := shown.column above last rfl
  have inside : bufferHeight - 1 < bufferHeight ∧ writer.columnPosition < bufferWidth :=
    ⟨by decide, column ▸ room⟩
  rw [Writer.writeByte, if_neg other, if_neg (by omega), Option.bind_eq_bind, Option.bind_some]
  dsimp only
  rw [Writer.writeVolatile, if_pos inside]
  refine ⟨_, rfl, shown.colored, ?_, ?_⟩
  · intro above' last' same
    obtain rfl := List.singleton_inj.mp (List.append_inj' same rfl).2
    rw [List.length_append, List.length_singleton, column]
  · intro row bound col within
    dsimp only
    by_cases below : row + 1 < bufferHeight
    · rw [if_neg (by omega), shown.cells _ bound _ within, onRow_up _ _ below, onRow_up _ _ below]
    · obtain rfl : row = bufferHeight - 1 := by omega
      rw [onRow_last, shown.cells _ bound _ within, onRow_last, column, shown.colored]
      rcases Nat.lt_trichotomy col last.length with before | rfl | behind
      · rw [if_neg (by omega), List.getD_append _ _ _ _ before]
      · rw [if_pos ⟨rfl, rfl⟩, List.getD_append_right _ _ _ _ (Nat.le_refl _), Nat.sub_self]
        rfl
      · rw [if_neg (by omega), List.getD_eq_default _ _ (by omega),
          List.getD_eq_default _ _ (by rw [List.length_append, List.length_singleton]; omega)]

/-- A byte behind the lines is where the layout puts it. -/
theorem Shows.writeByte (shown : Shows (above ++ [last]) color writer)
    (bound : last.length ≤ bufferWidth) (byte : UInt8) :
    ∃ written, writer.writeByte byte = some written ∧
      Shows (extended bufferWidth 0x0A above last byte) color written := by
  rw [extended]
  split
  · next stops =>
    rw [Writer.writeByte, if_pos stops]
    simpa using shown.newLine
  split
  · next other room => exact shown.put room other
  · next other full =>
    obtain ⟨opened, line, empty⟩ := shown.newLine
    obtain ⟨written, put, next⟩ := empty.put (by decide) other
    refine ⟨written, ?_, by simpa using next⟩
    have here : opened.columnPosition = 0 := empty.column _ [] rfl
    have wraps : writer.columnPosition ≥ bufferWidth := by
      rw [shown.column above last rfl]
      omega
    rw [Writer.writeByte, if_neg other, here, if_neg (by decide)] at put
    rw [Writer.writeByte, if_neg other, if_pos wraps, line]
    rw [Option.bind_eq_bind, Option.bind_some] at put ⊢
    exact put

def screenLines (printed : List UInt8) : List (List UInt8) :=
  layout bufferWidth 0x0A (printed.map Writer.glyph)

theorem Shows.writeStr {printed : List UInt8} (shown : Shows (screenLines printed) color writer)
    (text : List UInt8) :
    ∃ written, writer.writeStr text = some written ∧
      Shows (screenLines (printed ++ text)) color written := by
  induction text generalizing printed writer with
  | nil => exact ⟨writer, rfl, by rwa [List.append_nil]⟩
  | cons byte rest ih =>
      obtain ⟨above, last, lines, bound, grown⟩ :=
        layout_concat 0x0A (show 0 < bufferWidth by decide) (printed.map Writer.glyph)
      rw [screenLines, lines] at shown
      obtain ⟨written, wrote, next⟩ := shown.writeByte bound (Writer.glyph byte)
      rw [← grown, ← List.map_singleton, ← List.map_append] at next
      obtain ⟨later, ran, shown⟩ := ih next
      refine ⟨later, ?_, by simpa using shown⟩
      rw [Writer.writeStr, List.foldlM_cons, wrote]
      exact ran

theorem cleared_shows (writer : Writer) : ∃ cleared, writer.clearScreen = some cleared ∧
    Shows (screenLines []) writer.colorCode cleared := by
  refine ⟨_, writer.clearScreen_eq, rfl, ?_, ?_⟩
  · intro above last same
    rw [screenLines, List.map_nil, layout_nil, ← List.nil_append [[]]] at same
    rw [← List.singleton_inj.mp (List.append_inj' same rfl).2]
    rfl
  · intro row bound col within
    dsimp only
    rw [if_pos ⟨bound, within⟩]
    have empty : onRow (screenLines []) row = [] := by
      rw [screenLines, List.map_nil, layout_nil]
      by_cases below : row + 1 < bufferHeight
      · rw [← List.nil_append [[]], onRow_up [] [] below, onRow, List.append_nil,
          List.getD_replicate _ (by simpa using below)]
      · obtain rfl : row = bufferHeight - 1 := by omega
        exact onRow_last [] []
    rw [empty]
    rfl

/-- What was printed since the screen was last cleared. -/
def printed : List VgaCall → List UInt8 :=
  List.foldl (fun text call =>
    match call with
    | .print more => text ++ more
    | .clearScreen => []) []

/-- No call stops the kernel, and the screen always shows the end of what was printed since it was
last cleared. -/
theorem screen_shows_printed (memory : Nat → Nat → ScreenChar) (calls : List VgaCall) :
    ∃ booted writer, Writer.new memory = some booted ∧
      calls.foldlM VgaCall.step booted = some writer ∧
      ∀ row < bufferHeight, ∀ col < bufferWidth, writer.buffer row col =
        ⟨(onRow (screenLines (printed calls)) row).getD col 0x20, colorCode .lightGreen .black⟩ := by
  obtain ⟨booted, cleared, fresh⟩ :=
    cleared_shows ⟨0, Terminal.colorCode .lightGreen .black, memory⟩
  suffices runs : ∃ writer, calls.foldlM VgaCall.step booted = some writer ∧
      Shows (screenLines (printed calls)) (colorCode .lightGreen .black) writer by
    obtain ⟨writer, ran, shown⟩ := runs
    exact ⟨booted, writer, cleared, ran, shown.cells⟩
  induction calls using List.reverseRecOn with
  | nil => exact ⟨booted, rfl, fresh⟩
  | append_singleton calls call ih =>
      obtain ⟨writer, ran, shown⟩ := ih
      rw [foldlM_concat ran, printed, List.foldl_concat, ← printed]
      cases call with
      | print text => exact shown.writeStr text
      | clearScreen => exact shown.colored ▸ cleared_shows writer

end ArcadiaOs.Terminal
