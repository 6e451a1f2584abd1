import ArcadiaOs.Terminal.ChangeDirectory

/-!
`process_command` of `terminal/mod.rs` with the commands for files.  A line is cut into words at its
white space, and what a command prints is given by its bytes.
-/

namespace ArcadiaOs.Terminal

open Lib Fs

/-- The characters of a `String`. -/
abbrev Line := List Char

abbrev Text := List UInt8

def encode (line : Line) : Text := line.flatMap String.utf8EncodeChar

def text (literal : String) : Text := encode literal.toList

def println (text : Text) : Text := text ++ [0x0A]

/-- The characters with the property White_Space. -/
def isWhitespace (char : Char) : Bool :=
  let code := char.toNat
  0x09 ≤ code && code ≤ 0x0D || 0x2000 ≤ code && code ≤ 0x200A ||
    code ∈ [0x20, 0x85, 0xA0, 0x1680, 0x2028, 0x2029, 0x202F, 0x205F, 0x3000]

def trim (line : Line) : Line :=
  ((line.dropWhile isWhitespace).reverse.dropWhile isWhitespace).reverse

def pieces : Line → List Line
  | [] => [[]]
  | char :: rest =>
      if isWhitespace char then [] :: pieces rest
      else
        match pieces rest with
        | [] => [[char]]
        | first :: others => (char :: first) :: others

def splitWhitespace (line : Line) : List Line := (pieces line).filter fun piece => piece ≠ []

def join (args : List Path) : Path := [0x20].intercalate args

def decimal (number : Nat) : Text := encode (Nat.toDigits 10 number)

/-- The characters of a text, by the bytes that begin one. -/
def charCount (text : Text) : Nat := text.countP fun byte => byte &&& 0xC0 ≠ 0x80

def padRight (width : Nat) (text : Text) : Text :=
  text ++ List.replicate (width - charCount text) 0x20

def padLeft (width : Nat) (text : Text) : Text :=
  List.replicate (width - charCount text) 0x20 ++ text

def errorText : VfsError → Text
  | .notFound => text "Not found"
  | .notADirectory => text "Not a directory"
  | .notAFile => text "Not a file"
  | .alreadyExists => text "Already exists"
  | .permissionDenied => text "Permission denied"
  | .ioError => text "I/O error"
  | .noSpace => text "No space left"
  | .invalidPath => text "Invalid path"

def failed (command : String) (reason : VfsError) : Text :=
  println (text command ++ text " error: " ++ errorText reason)

def attempt {ε α : Type} (action : Disk ε α) : Disk Empty (Except ε α) := fun device =>
  match action device with
  | .ok value device' => .ok (.ok value) device'
  | .error (.error reason) device' => .ok (.error reason) device'
  | .error .panic device' => .error .panic device'

/-! The commands. -/

def row (name size kind : Text) : Text :=
  println (text "  " ++ padRight 20 name ++ text " " ++ padLeft 8 size ++ text "  " ++ kind)

def nodeRow (node : VfsNode) : Text :=
  row node.path (decimal node.size) (if node.isDir then text "dir" else text "file")

def listText (path : Path) (entries : List VfsNode) : Text :=
  if entries = [] then println (text "(empty)")
  else
    println (text "Directory: " ++ path) ++ row (text "Name") (text "Size") (text "Type") ++
      row (text "----") (text "----") (text "----") ++ entries.flatMap nodeRow ++
      println (decimal entries.length ++ text " item(s)")

def cmdLs (vfs : VfsManager) (args : List Path) : Disk Empty Text := do
  let path := args.headD vfs.cwd
  match ← attempt (vfs.listDir path) with
  | .ok entries => pure (listText path entries)
  | .error reason => pure (failed "ls" reason)

/-- Each byte is printed as the character with its number. -/
def catText (data : List UInt8) : Text :=
  encode ((data.filter (· ≠ 0x0D)).map fun byte => Char.ofNat byte.toNat) ++
    if data.getLast? = some 0x0A then [] else [0x0A]

def cmdCat (vfs : VfsManager) : List Path → Disk Empty Text
  | [] => pure (println (text "Usage: cat <file>"))
  | path :: _ => do
      match ← attempt (vfs.readFileContent path) with
      | .ok data => pure (catText data)
      | .error reason => pure (failed "cat" reason)

def cmdTouch (vfs : VfsManager) : List Path → Disk Empty Text
  | [] => pure (println (text "Usage: touch <file>"))
  | path :: _ => do
      match ← attempt (vfs.stat path) with
      | .ok _ => pure (println (text "Exists: " ++ path))
      | .error .notFound =>
          match ← attempt (vfs.createFile path []) with
          | .ok _ => pure (println (text "Created: " ++ path))
          | .error reason => pure (failed "touch" reason)
      | .error reason => pure (failed "touch" reason)

def cmdMkdir (vfs : VfsManager) : List Path → Disk Empty Text
  | [] => pure (println (text "Usage: mkdir <directory>"))
  | path :: _ => do
      match ← attempt (vfs.mkdir path) with
      | .ok _ => pure (println (text "Created directory: " ++ path))
      | .error reason => pure (failed "mkdir" reason)

def cmdWrite (vfs : VfsManager) : List Path → Disk Empty Text
  | path :: word :: words => do
      let data := join (word :: words)
      match ← attempt (vfs.createFile path data) with
      | .ok _ => pure (println (text "Wrote " ++ decimal data.length ++ text " bytes to " ++ path))
      | .error reason => pure (failed "write" reason)
  | _ => pure (println (text "Usage: write <file> <data>"))

def cmdRm (vfs : VfsManager) : List Path → Disk Empty Text
  | [] => pure (println (text "Usage: rm <file>"))
  | path :: _ => do
      match ← attempt (vfs.stat path) with
      | .ok node =>
          if node.isDir then
            pure (println (text "rm error: cannot remove directory (use rmdir)"))
          else
            match ← attempt (vfs.delete path) with
            | .ok _ => pure (println (text "Deleted: " ++ path))
            | .error reason => pure (failed "rm" reason)
      | .error _ => pure (failed "rm" .notFound)

inductive Command
  | echo | hostname | whoami | ls | cat | touch | mkdir | write | rm | cd | pwd
  /-- A command that reports on another subsystem, or leaves the shell. -/
  | foreign
  | unknown
  deriving DecidableEq

def Command.ofWord (word : Line) : Command :=
  match String.ofList word with
  | "echo" => .echo
  | "hostname" => .hostname
  | "whoami" => .whoami
  | "ls" => .ls
  | "cat" => .cat
  | "touch" => .touch
  | "mkdir" => .mkdir
  | "write" => .write
  | "rm" => .rm
  | "cd" => .cd
  | "pwd" => .pwd
  | "help" | "clear" | "version" | "mem" | "vmm" | "reboot" | "halt" | "uname" | "cpuinfo"
  | "meminfo" | "sysinfo" | "neofetch" | "uptime" | "ticks" | "disk" | "partitions" | "parts"
  | "mount" | "run" | "ps" | "exit" => .foreign
  | _ => .unknown

inductive Outcome
  | printed (text : Text)
  | panicked
  /-- What happens is up to another subsystem. -/
  | elsewhere
  deriving DecidableEq

def runCommand (session : Session) (action : Disk Empty Text) : Outcome × Session :=
  match action session.device with
  | .ok text device => (.printed text, ⟨session.vfs, device⟩)
  | .error _ device => (.panicked, ⟨session.vfs, device⟩)

def runCd (session : Session) (args : List Path) : Outcome × Session :=
  match cmdCd session args with
  | (.ok path, session') => (.printed (println path), session')
  | (.error (.error reason), session') => (.printed (failed "cd" reason), session')
  | (.error .panic, session') => (.panicked, session')

def dispatch (session : Session) (cmd : Line) (args : List Path) : Outcome × Session :=
  match Command.ofWord cmd with
  | .echo => (.printed (println (join args)), session)
  | .hostname => (.printed (println (text "arcadia")), session)
  | .whoami => (.printed (println (text "root")), session)
  | .ls => runCommand session (cmdLs session.vfs args)
  | .cat => runCommand session (cmdCat session.vfs args)
  | .touch => runCommand session (cmdTouch session.vfs args)
  | .mkdir => runCommand session (cmdMkdir session.vfs args)
  | .write => runCommand session (cmdWrite session.vfs args)
  | .rm => runCommand session (cmdRm session.vfs args)
  | .cd => runCd session args
  | .pwd => (.printed (println session.vfs.cwd), session)
  | .foreign => (.elsewhere, session)
  | .unknown =>
      (.printed (println (text "Unknown command: '" ++ encode cmd ++
        text "'. Type 'help' for commands.")), session)

def processCommand (session : Session) (line : Line) : Outcome × Session :=
  let input := trim line
  if input = [] then (.printed [], session)
  else
    match splitWhitespace input with
    | [] => (.panicked, session)
    | cmd :: words => dispatch session cmd (words.map encode)

def prompt : Machine Session Line Outcome := ⟨processCommand⟩

end ArcadiaOs.Terminal
