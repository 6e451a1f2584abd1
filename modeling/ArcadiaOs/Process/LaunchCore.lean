import ArcadiaOs.Process.ElfCore
import ArcadiaOs.Process.PagingCore

/-!
The life of a process (`process/mod.rs`, `process/pcb.rs`): its launch and its exit on
the physical memory, the frame allocator and the process table.  `map_to` of the
`x86_64` crate is a parameter.  The release build is modelled, where sums wrap.
-/

namespace ArcadiaOs.Process

open Lib Memory

inductive ProcessState
  | unused | ready | running | blocked | sleeping | exited
  deriving DecidableEq

structure ProcessControlBlock where
  pid : Nat
  state : ProcessState
  kernelRsp : Nat
  userRsp : Nat
  pml4Phys : Nat
  elfEntry : Nat
  exitCode : Nat
  kernelStackPhys : Nat
  userStackPhys : Nat
  sleepUntil : Nat
  deriving DecidableEq

def userStackSize : Nat := 8 * 1024
def kernelStackSize : Nat := 8 * 1024
def userStackTop : Nat := 0x00007FFFFFFFF000

def userCs : Nat := 0x2B
def userSs : Nat := 0x23

structure Kernel where
  memory : Memory
  pmm : PhysicalFrameAllocator
  processTable : List ProcessControlBlock
  currentPid : Nat
  kernelPml4Phys : PhysAddr

/-- A call on the kernel's state, which keeps what it has done when it stops. -/
abbrev Launch (α : Type) := EStateM Stop Kernel α

inductive MapToError
  | frameAllocationFailed | parentEntryHugePage | pageAlreadyMapped
  deriving DecidableEq

/-- `OffsetPageTable::map_to` at offset 0 with the allocator of the kernel: the tables are reached
through the address of the PML4, and page, frame and flags are raw values. -/
abbrev MapTo := Memory → PhysicalFrameAllocator → Nat → Nat → Nat → Nat →
  Except MapToError Unit × Memory × PhysicalFrameAllocator

namespace PageTableFlags

def present : Nat := 1
def writable : Nat := 2
def userAccessible : Nat := 4

end PageTableFlags

/-- `ok_or`. -/
def required {α : Type} (reason : String) (action : Launch (Option α)) : Launch α := do
  match ← action with
  | some value => pure value
  | none => throw (.error reason)

def allocatePage : Launch (Option Nat) := fun kernel =>
  let (frame, pmm) := kernel.pmm.allocateFrame
  .ok (frame.map PhysAddr.asU64) { kernel with pmm }

def modifyMemory (change : Memory → Memory) : Launch Unit :=
  modify fun kernel => { kernel with memory := change kernel.memory }

def zeroPage (phys : Nat) : Launch Unit := modifyMemory fun memory => memory.fill phys 4096 0

def updateProcess (slot : Nat) (change : ProcessControlBlock → ProcessControlBlock) :
    Launch Unit :=
  modify fun kernel => { kernel with processTable := kernel.processTable.modify slot change }

/-- The upper half of the kernel's PML4 is shared with the new one. -/
def createUserPageTables : Launch (Option Nat) := do
  match ← allocatePage with
  | none => pure none
  | some newPml4 => do
      zeroPage newPml4
      let currentPml4 := (← get).kernelPml4Phys.asU64
      modifyMemory fun memory =>
        memory.copy (currentPml4 + 256 * 8) (newPml4 + 256 * 8) (256 * 8)
      pure (some newPml4)

def mapUserPage (mapTo : MapTo) (pml4 virt phys flags : Nat) : Launch Unit := fun kernel =>
  if !canonical virt then .error .panic kernel
  else
    match mapTo kernel.memory kernel.pmm pml4 (virt / 4096 * 4096) (phys / 4096 * 4096) flags with
    | (.ok _, memory, pmm) => .ok () { kernel with memory, pmm }
    | (.error _, memory, pmm) => .error (.error "Failed to map page") { kernel with memory, pmm }

/-- The bytes of the file copied to a page; `none` where the slice expression panics. -/
def pageSource (data : List UInt8) (seg : ElfSegment) (pageIdx : Nat) : Option (List UInt8) :=
  let dataOffset := wrap64 (seg.dataOffset + pageIdx * 4096)
  if dataOffset < wrap64 (seg.dataOffset + seg.filesz) then
    let copyStart := pageIdx * 4096
    let copyEnd := min (wrap64 (copyStart + 4096)) (wrappingSub seg.filesz (pageIdx * 4096))
    if copyStart < seg.filesz ∧ copyEnd > 0 then
      let stop := wrap64 (dataOffset + wrappingSub copyEnd copyStart)
      if dataOffset ≤ stop ∧ stop ≤ data.length then
        some (slice data dataOffset (stop - dataOffset))
      else none
    else some []
  else some []

def ElfSegment.flags (seg : ElfSegment) : Nat :=
  if seg.writable then
    PageTableFlags.present + PageTableFlags.userAccessible + PageTableFlags.writable
  else PageTableFlags.present + PageTableFlags.userAccessible

def ElfSegment.pageCount (seg : ElfSegment) : Nat := wrap64 (seg.memsz + 4095) / 4096

def ElfSegment.virt (seg : ElfSegment) (pageIdx : Nat) : Nat := wrap64 (seg.vaddr + pageIdx * 4096)

section Launch

variable (mapTo : MapTo) (elfData : ElfData) (pml4 : Nat)

def loadPage (seg : ElfSegment) (pageIdx : Nat) : Launch Unit := do
  let pagePhys ← required "Out of memory for ELF" allocatePage
  zeroPage pagePhys
  match pageSource elfData.bytes seg pageIdx with
  | none => throw .panic
  | some src => do
      modifyMemory fun memory => memory.write pagePhys src
      mapUserPage mapTo pml4 (seg.virt pageIdx) pagePhys seg.flags

def loadPages (seg : ElfSegment) : Nat → Nat → Launch Unit
  | 0, _ => pure ()
  | count + 1, index => do
      loadPage mapTo elfData pml4 seg index
      loadPages seg count (index + 1)

def loadSegments : List ElfSegment → Launch Unit
  | [] => pure ()
  | seg :: rest => do
      loadPages mapTo elfData pml4 seg seg.pageCount 0
      loadSegments rest

end Launch

/-- The values `build_initial_kernel_stack` writes downwards from the top of the stack. -/
def initialFrame (proc : ProcessControlBlock) : List Nat :=
  [userSs, proc.userRsp, 0x200, userCs, proc.elfEntry] ++ List.replicate 15 0

def pushValues (memory : Memory) (frame : Nat) : List Nat → Memory
  | [] => memory
  | value :: rest => pushValues (memory.writeU64 (frame - 8) value) (frame - 8) rest

/-- The stack is one frame, but its top is taken to be 8 KiB above its base. -/
def buildInitialKernelStack (slot : Nat) : Launch Unit := fun kernel =>
  match kernel.processTable[slot]? with
  | none => .ok () kernel
  | some proc =>
      let rsp := proc.kernelStackPhys + kernelStackSize
      let values := initialFrame proc
      .ok () { kernel with
        memory := pushValues kernel.memory rsp values
        processTable := kernel.processTable.modify slot fun proc =>
          { proc with kernelRsp := rsp - 8 * values.length } }

def unusedSlot (kernel : Kernel) : Option Nat :=
  kernel.processTable.findIdx? fun proc => proc.state = .unused

def runningSlot (kernel : Kernel) : Option Nat :=
  kernel.processTable.findIdx? fun proc => proc.state = .running

def launchIn (mapTo : MapTo) (elfData : ElfData) (elfInfo : ElfLoadInfo) (slot : Nat) :
    Launch Unit := do
  let pml4 ← required "Failed to create page tables" createUserPageTables
  updateProcess slot fun proc => { proc with pml4Phys := pml4 }
  loadSegments mapTo elfData pml4 elfInfo.segments
  let userStack ← required "Out of memory for user stack" allocatePage
  zeroPage userStack
  mapUserPage mapTo pml4 (userStackTop - userStackSize) userStack
    (PageTableFlags.present + PageTableFlags.writable + PageTableFlags.userAccessible)
  updateProcess slot fun proc => { proc with userStackPhys := userStack, userRsp := userStackTop }
  let kernelStack ← required "Out of memory for kernel stack" allocatePage
  zeroPage kernelStack
  updateProcess slot fun proc =>
    { proc with kernelStackPhys := kernelStack, kernelRsp := kernelStack + kernelStackSize }
  mapUserPage mapTo pml4 kernelStack kernelStack
    (PageTableFlags.present + PageTableFlags.writable)
  updateProcess slot fun proc => { proc with elfEntry := elfInfo.entry }
  buildInitialKernelStack slot
  updateProcess slot fun proc => { proc with state := .running }
  modify fun kernel =>
    { kernel with currentPid := (kernel.processTable[slot]?.map fun proc => proc.pid).getD 0 }

def launchInitProcess (mapTo : MapTo) (elfData : ElfData) : Launch Unit := do
  match parseElf elfData with
  | .error stop => throw stop
  | .ok elfInfo => do
      match unusedSlot (← get) with
      | none => throw (.error "No free process slot")
      | some slot => launchIn mapTo elfData elfInfo slot

/-- The frames `free_user_page_tables` frees in a table of the given level, in order. -/
def freeUserPageTables (memory : Memory) : Nat → Nat → List Nat
  | 0, _ => []
  | level + 1, table =>
      (List.range (if level + 1 = 4 then 256 else 512)).flatMap fun idx =>
        let entry := tableEntry memory table idx
        if !entry.present then []
        else if entry.hugePage then []
        else if level + 1 > 1 then freeUserPageTables memory level entry.addr
        else [entry.addr]

def freeProcessAddressSpace (memory : Memory) (pml4 : Nat) : List Nat :=
  if pml4 = 0 then [] else freeUserPageTables memory 4 pml4 ++ [pml4]

def exitFrees (memory : Memory) (proc : ProcessControlBlock) : List Nat :=
  freeProcessAddressSpace memory proc.pml4Phys ++
    (if proc.userStackPhys ≠ 0 then [proc.userStackPhys] else []) ++
    (if proc.kernelStackPhys ≠ 0 then [proc.kernelStackPhys] else [])

/-- The answer of the allocator is dropped; `PhysAddr::new` panics on more than 52 bits. -/
def freePages : List Nat → Launch Unit
  | [] => pure ()
  | phys :: rest => fun kernel =>
      match PhysAddr.new? phys with
      | none => .error .panic kernel
      | some addr => freePages rest { kernel with pmm := (kernel.pmm.freeFrame addr).2 }

/-- `exit_process` up to its jump back to the shell. -/
def exitProcess (code : Nat) : Launch Unit := fun kernel =>
  let finish : Launch Unit := modify fun kernel => { kernel with currentPid := 0 }
  match runningSlot kernel with
  | none => finish kernel
  | some slot =>
      match kernel.processTable[slot]? with
      | none => finish kernel
      | some proc =>
          let exited := { kernel with
            processTable := kernel.processTable.set slot
              { proc with
                state := .exited
                exitCode := code
                kernelRsp := 0
                kernelStackPhys := 0
                userStackPhys := 0 } }
          (do
            freePages (exitFrees kernel.memory proc)
            finish : Launch Unit) exited

end ArcadiaOs.Process
