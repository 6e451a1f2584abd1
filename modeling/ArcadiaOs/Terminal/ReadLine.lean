import ArcadiaOs.Terminal.ShellCore

/-!
`read_line` and `run` of `terminal/mod.rs`: the line that is typed, its echo on the serial port, and
the history.  Scancodes are decoded by a library outside of the kernel.
-/

namespace ArcadiaOs.Terminal

open Lib Fs

def maxInputLen : Nat := 256
def maxHistory : Nat := 50

inductive DecodedKey
  | unicode (char : Char)
  | arrowUp
  | arrowDown
  /-- Any other key without a character. -/
  | rawKey

/-- The decoder of scancodes, which remembers what it has seen. -/
structure Decoder (Kbd : Type) where
  new : Kbd
  process : Kbd → UInt8 → Option DecodedKey × Kbd

/-- The characters of the category Cc. -/
def isControl (char : Char) : Bool :=
  char.toNat < 0x20 || 0x7F ≤ char.toNat && char.toNat < 0xA0

structure TerminalState where
  inputBuffer : Line
  history : List Line
  historyIndex : Option Nat

/-- What is printed for a key, and whether the line is at its end. -/
structure Echo where
  text : Line
  returned : Bool

namespace TerminalState

variable (terminal : TerminalState)

def new : TerminalState := ⟨[], [], none⟩

def enter : Echo × TerminalState :=
  (⟨['\n'], true⟩,
    if terminal.inputBuffer = [] then terminal
    else
      let history := terminal.history ++ [terminal.inputBuffer]
      { terminal with
        history := if history.length > maxHistory then history.eraseIdx 0 else history
        historyIndex := none })

def backspace : Echo × TerminalState :=
  if terminal.inputBuffer = [] then (⟨[], false⟩, terminal)
  else
    (⟨"\x08 \x08".toList, false⟩,
      { terminal with inputBuffer := terminal.inputBuffer.dropLast })

def insert (char : Char) : Echo × TerminalState :=
  if (encode terminal.inputBuffer).length < maxInputLen then
    (⟨[char], false⟩, { terminal with inputBuffer := terminal.inputBuffer ++ [char] })
  else (⟨[], false⟩, terminal)

def arrowUp : Option Nat :=
  match terminal.historyIndex with
  | some index => if index > 0 then some (index - 1) else some index
  | none => if terminal.history = [] then none else some (terminal.history.length - 1)

def arrowDown : Option Nat :=
  match terminal.historyIndex with
  | some index => if index + 1 < terminal.history.length then some (index + 1) else none
  | none => none

def pressKey : DecodedKey → Echo × TerminalState
  | .unicode char =>
      if char = '\n' then terminal.enter
      else if char = '\x08' then terminal.backspace
      else if isControl char then (⟨[], false⟩, terminal)
      else terminal.insert char
  | .arrowUp => (⟨[], false⟩, { terminal with historyIndex := terminal.arrowUp })
  | .arrowDown => (⟨[], false⟩, { terminal with historyIndex := terminal.arrowDown })
  | .rawKey => (⟨[], false⟩, terminal)

def serialByte (byte : UInt8) : Echo × TerminalState :=
  if byte = 0x0D ∨ byte = 0x0A then terminal.enter
  else if byte = 0x08 ∨ byte = 0x7F then terminal.backspace
  else if 0x20 ≤ byte ∧ byte < 0x7F then terminal.insert (Char.ofNat byte.toNat)
  else (⟨[], false⟩, terminal)

end TerminalState

/-- What a turn of the loop finds: a scancode in the queue, else a byte at the serial port. -/
inductive Arrival
  | scancode (code : UInt8)
  | serial (byte : UInt8)
  | idle

/-- The kernel at its prompt.  It is not running once a command has panicked or has left the
commands for files. -/
structure Console (Kbd : Type) where
  terminal : TerminalState
  keyboard : Kbd
  session : Session
  running : Bool

def Outcome.goesOn : Outcome → Bool
  | .printed _ => true
  | .panicked | .elsewhere => false

/-- The echo of a turn, and the line it ends with what its command does. -/
structure Response where
  echo : Line
  command : Option (Line × Outcome)

variable {Kbd : Type} (decoder : Decoder Kbd)

def readTurn (terminal : TerminalState) (keyboard : Kbd) : Arrival → (Echo × TerminalState) × Kbd
  | .scancode code =>
      match decoder.process keyboard code with
      | (some key, keyboard') => (terminal.pressKey key, keyboard')
      | (none, keyboard') => ((⟨[], false⟩, terminal), keyboard')
  | .serial byte => (terminal.serialByte byte, keyboard)
  | .idle => ((⟨[], false⟩, terminal), keyboard)

/-- The loop of `run`.  Each line is read with a new keyboard. -/
def turn (console : Console Kbd) (arrival : Arrival) : Response × Console Kbd :=
  if console.running then
    let ((echo, terminal), keyboard) := readTurn decoder console.terminal console.keyboard arrival
    if echo.returned then
      let effect := processCommand console.session terminal.inputBuffer
      (⟨echo.text, some (terminal.inputBuffer, effect.1)⟩,
        ⟨{ terminal with inputBuffer := [] }, decoder.new, effect.2, effect.1.goesOn⟩)
    else (⟨echo.text, none⟩, { console with terminal, keyboard })
  else (⟨[], none⟩, console)

def run : Machine (Console Kbd) Arrival Response := ⟨turn decoder⟩

def Console.boot (session : Session) : Console Kbd :=
  ⟨TerminalState.new, decoder.new, session, true⟩

end ArcadiaOs.Terminal
