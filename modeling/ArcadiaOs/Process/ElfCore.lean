import ArcadiaOs.Lib.Bytes
import ArcadiaOs.Memory.PhysmemCore

/-!
The ELF parser (`elf/mod.rs`).  Header fields that nothing reads are left out.
-/

namespace ArcadiaOs.Process

open Lib Memory

inductive Stop
  | panic
  | error (reason : String)
  deriving DecidableEq

/-- A byte slice, and the memory behind it that an unchecked read can reach. -/
structure ElfData where
  bytes : List UInt8
  behind : Nat → UInt8
  addressable : bytes.length < 2 ^ 63

def ElfData.byte (elfData : ElfData) (offset : Nat) : UInt8 :=
  if offset < elfData.bytes.length then byteAt elfData.bytes offset
  else elfData.behind (offset - elfData.bytes.length)

/-- A little-endian field of a header read with `read_unaligned`. -/
def ElfData.field (elfData : ElfData) (offset width : Nat) : Nat :=
  ofLeBytes ((List.range width).map fun index => elfData.byte (offset + index))

def elfMagic : List UInt8 := [0x7F, 0x45, 0x4C, 0x46]
def elfClass64 : UInt8 := 2
def elfData2Lsb : UInt8 := 1
def etExec : Nat := 2
def emX8664 : Nat := 0x3E
def ptLoad : Nat := 1

structure Elf64Header where
  eType : Nat
  eMachine : Nat
  eEntry : Nat
  ePhoff : Nat
  ePhentsize : Nat
  ePhnum : Nat

def Elf64Header.parse (elfData : ElfData) : Option Elf64Header :=
  let data := elfData.bytes
  if data.length < 64 then none
  else if data.take 4 ≠ elfMagic then none
  else if byteAt data 4 ≠ elfClass64 ∨ byteAt data 5 ≠ elfData2Lsb then none
  else
    let header : Elf64Header :=
      { eType := elfData.field 16 2
        eMachine := elfData.field 18 2
        eEntry := elfData.field 24 8
        ePhoff := elfData.field 32 8
        ePhentsize := elfData.field 54 2
        ePhnum := elfData.field 56 2 }
    if header.eType ≠ etExec ∨ header.eMachine ≠ emX8664 then none else some header

structure Elf64ProgramHeader where
  pType : Nat
  pFlags : Nat
  pOffset : Nat
  pVaddr : Nat
  pFilesz : Nat
  pMemsz : Nat

namespace Elf64ProgramHeader

def readAt (elfData : ElfData) (offset : Nat) : Elf64ProgramHeader where
  pType := elfData.field offset 4
  pFlags := elfData.field (offset + 4) 4
  pOffset := elfData.field (offset + 8) 8
  pVaddr := elfData.field (offset + 16) 8
  pFilesz := elfData.field (offset + 32) 8
  pMemsz := elfData.field (offset + 40) 8

def isLoadable (header : Elf64ProgramHeader) : Bool := header.pType = ptLoad

def isExecutable (header : Elf64ProgramHeader) : Bool := header.pFlags.testBit 0

def isWritable (header : Elf64ProgramHeader) : Bool := header.pFlags.testBit 1

end Elf64ProgramHeader

structure ElfSegment where
  vaddr : Nat
  memsz : Nat
  filesz : Nat
  dataOffset : Nat
  writable : Bool
  executable : Bool
  deriving DecidableEq

/-- The source keeps the segments in an array of four and counts them. -/
structure ElfLoadInfo where
  entry : Nat
  segments : List ElfSegment

def Elf64ProgramHeader.segment (header : Elf64ProgramHeader) : ElfSegment where
  vaddr := header.pVaddr
  memsz := header.pMemsz
  filesz := header.pFilesz
  dataOffset := header.pOffset
  writable := header.isWritable
  executable := header.isExecutable

/-- The loop over the program headers, from header `index` on.  A start behind the slice, which
passes the check when the sum wraps, panics. -/
def parseHeaders (elfData : ElfData) (phoff phentsize : Nat) :
    Nat → Nat → List ElfSegment → Except Stop (List ElfSegment)
  | 0, _, segments => .ok segments
  | count + 1, index, segments =>
      let offset := wrap64 (phoff + index * phentsize)
      if wrap64 (offset + phentsize) > elfData.bytes.length then
        .error (.error "Program header out of bounds")
      else if offset > elfData.bytes.length then .error .panic
      else
        let header := Elf64ProgramHeader.readAt elfData offset
        if header.isLoadable then
          if segments.length ≥ 4 then .error (.error "Too many loadable segments")
          else
            parseHeaders elfData phoff phentsize count (index + 1) (segments ++ [header.segment])
        else parseHeaders elfData phoff phentsize count (index + 1) segments

def parseElf (elfData : ElfData) : Except Stop ElfLoadInfo :=
  match Elf64Header.parse elfData with
  | none => .error (.error "Invalid ELF header")
  | some header =>
      if header.ePhnum > 4 then .error (.error "Too many program headers")
      else
        match parseHeaders elfData header.ePhoff header.ePhentsize header.ePhnum 0 [] with
        | .error stop => .error stop
        | .ok segments =>
            if segments = [] then .error (.error "No loadable segments")
            else .ok ⟨header.eEntry, segments⟩

/-- A file of one loadable, writable segment, whose bytes follow the headers at offset 120. -/
def elfFile (vaddr memsz : Nat) (data : List UInt8) : List UInt8 :=
  elfMagic ++ [elfClass64, elfData2Lsb] ++ List.replicate 10 0 ++
    leBytes 2 etExec ++ leBytes 2 emX8664 ++ leBytes 4 1 ++
    leBytes 8 vaddr ++ leBytes 8 64 ++ leBytes 8 0 ++ leBytes 4 0 ++
    leBytes 2 64 ++ leBytes 2 56 ++ leBytes 2 1 ++ List.replicate 6 0 ++
    leBytes 4 ptLoad ++ leBytes 4 2 ++ leBytes 8 120 ++ leBytes 8 vaddr ++ leBytes 8 0 ++
    leBytes 8 data.length ++ leBytes 8 memsz ++ leBytes 8 4096 ++ data

theorem length_elfFile (vaddr memsz : Nat) (data : List UInt8) :
    (elfFile vaddr memsz data).length = data.length + 120 := by
  unfold elfFile
  simp only [elfMagic, List.length_append, length_leBytes, List.length_replicate,
    List.length_cons, List.length_nil]
  omega

def oneByteElf : ElfData := ⟨elfFile 0x400000 1 [7], fun _ => 0, by decide⟩

end ArcadiaOs.Process
