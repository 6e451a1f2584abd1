import Mathlib.Data.List.Basic

/-!
The text screen of `vga_buffer.rs`, a writer over 25 rows of 80 cells.  A row or a column outside
of the buffer stops the kernel.
-/

namespace ArcadiaOs.Terminal

inductive Color
  | black | blue | green | cyan | red | magenta | brown | lightGray | darkGray | lightBlue
  | lightGreen | lightCyan | lightRed | pink | yellow | white

def colorCode (foreground background : Color) : UInt8 :=
  UInt8.ofNat background.ctorIdx <<< 4 ||| UInt8.ofNat foreground.ctorIdx

structure ScreenChar where
  asciiCharacter : UInt8
  colorCode : UInt8
  deriving DecidableEq

def bufferHeight : Nat := 25
def bufferWidth : Nat := 80

structure Writer where
  columnPosition : Nat
  colorCode : UInt8
  buffer : Nat → Nat → ScreenChar

namespace Writer

variable (writer : Writer)

def writeVolatile (row col : Nat) (character : ScreenChar) : Option Writer :=
  if row < bufferHeight ∧ col < bufferWidth then
    some { writer with
      buffer := fun row' col' =>
        if row' = row ∧ col' = col then character else writer.buffer row' col' }
  else none

def readVolatile (row col : Nat) : Option ScreenChar :=
  if row < bufferHeight ∧ col < bufferWidth then some (writer.buffer row col) else none

def blank : ScreenChar := ⟨0x20, writer.colorCode⟩

def clearRow (row : Nat) : Option Writer :=
  (List.range bufferWidth).foldlM (fun cleared col => cleared.writeVolatile row col writer.blank)
    writer

def copyUp (row : Nat) : Option Writer :=
  (List.range bufferWidth).foldlM (fun copied col => do
    let character ← copied.readVolatile row col
    copied.writeVolatile (row - 1) col character) writer

def newLine : Option Writer := do
  let scrolled ← (List.range' 1 (bufferHeight - 1)).foldlM copyUp writer
  let cleared ← scrolled.clearRow (bufferHeight - 1)
  some { cleared with columnPosition := 0 }

def clearScreen : Option Writer := do
  let cleared ← (List.range bufferHeight).foldlM clearRow writer
  some { cleared with columnPosition := 0 }

def writeByte (byte : UInt8) : Option Writer :=
  if byte = 0x0A then writer.newLine
  else do
    let opened ← if writer.columnPosition ≥ bufferWidth then writer.newLine else some writer
    let col := opened.columnPosition
    let written ← opened.writeVolatile (bufferHeight - 1) col ⟨byte, opened.colorCode⟩
    some { written with columnPosition := written.columnPosition + 1 }

/-- Bytes that are not printable stand as a block. -/
def glyph (byte : UInt8) : UInt8 :=
  if 0x20 ≤ byte ∧ byte ≤ 0x7E ∨ byte = 0x0A then byte else 0xFE

def writeStr (text : List UInt8) : Option Writer :=
  text.foldlM (fun written byte => written.writeByte (glyph byte)) writer

/-- The writer over what the memory of the screen holds before. -/
def new (memory : Nat → Nat → ScreenChar) : Option Writer :=
  clearScreen ⟨0, Terminal.colorCode .lightGreen .black, memory⟩

end Writer

inductive VgaCall
  | print (text : List UInt8)
  | clearScreen

def VgaCall.step (writer : Writer) : VgaCall → Option Writer
  | .print text => writer.writeStr text
  | .clearScreen => writer.clearScreen

end ArcadiaOs.Terminal
