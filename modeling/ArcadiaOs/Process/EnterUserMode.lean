import ArcadiaOs.Process.Launched
import ArcadiaOs.Process.OffsetPageTable
import Mathlib.Logic.Function.Basic

/-!
The way into user mode: the descriptors of `arch/gdt.rs` and the pops of `enter_user_mode`, run on
the frame that `build_initial_kernel_stack` pushes.
-/

namespace ArcadiaOs.Process

open Lib

/-! The descriptor table.  `append` of the `x86_64` crate places descriptors in order. -/

inductive Descriptor
  | kernelCodeSegment | kernelDataSegment | tssSegment | userDataSegment | userCodeSegment
  deriving DecidableEq

def Descriptor.slots : Descriptor → Nat
  | .tssSegment => 2
  | _ => 1

def Descriptor.dpl : Descriptor → Nat
  | .userDataSegment | .userCodeSegment => 3
  | _ => 0

/-- The slots of the table; a slot holds no descriptor where it is null or the second half of one. -/
structure GlobalDescriptorTable where
  slots : List (Option Descriptor)

namespace GlobalDescriptorTable

def new : GlobalDescriptorTable := ⟨[none]⟩

/-- A selector is the index of the first slot and the privilege level. -/
def append (gdt : GlobalDescriptorTable) (descriptor : Descriptor) : Nat × GlobalDescriptorTable :=
  (8 * gdt.slots.length + descriptor.dpl,
    ⟨gdt.slots ++ some descriptor :: List.replicate (descriptor.slots - 1) none⟩)

def named (gdt : GlobalDescriptorTable) (selector : Nat) : Option Descriptor :=
  (gdt.slots[selector / 8]?).join

end GlobalDescriptorTable

structure KernelGdt where
  gdt : GlobalDescriptorTable
  codeSelector : Nat
  dataSelector : Nat
  tssSelector : Nat
  userCodeSelector : Nat
  userDataSelector : Nat

def kernelGdt : KernelGdt :=
  let gdt := GlobalDescriptorTable.new
  let (codeSelector, gdt) := gdt.append .kernelCodeSegment
  let (dataSelector, gdt) := gdt.append .kernelDataSegment
  let (tssSelector, gdt) := gdt.append .tssSegment
  let (userDataSelector, gdt) := gdt.append .userDataSegment
  let (userCodeSelector, gdt) := gdt.append .userCodeSegment
  { gdt, codeSelector, dataSelector, tssSelector, userCodeSelector, userDataSelector }

/-! The pops. -/

inductive Register
  | r15 | r14 | r13 | r12 | r11 | r10 | r9 | r8 | rbp | rdi | rsi | rdx | rcx | rbx | rax
  | rip | cs | rflags | rsp | ss
  deriving DecidableEq

def Register.bits : Register → Nat
  | .cs | .ss => 16
  | _ => 64

abbrev Cpu := Register → Nat

/-- Values popped one after the other into the given registers, and the stack pointer behind them.
`IRETQ` pops its five values before it replaces the stack pointer. -/
def popAll (memory : Memory) : List Register → Nat → Cpu → Cpu × Nat
  | [], stack, cpu => (cpu, stack)
  | register :: rest, stack, cpu =>
      popAll memory rest (stack + 8)
        (Function.update cpu register (memory.readU64 stack % 2 ^ register.bits))

def generalRegisters : List Register :=
  [.r15, .r14, .r13, .r12, .r11, .r10, .r9, .r8, .rbp, .rdi, .rsi, .rdx, .rcx, .rbx, .rax]

def iretqRegisters : List Register := [.rip, .cs, .rflags, .rsp, .ss]

/-- `enter_user_mode` behind the switch of `CR3`. -/
def enterUserMode (memory : Memory) (kernelRsp : Nat) (cpu : Cpu) : Cpu × Nat :=
  let (cpu, stack) := popAll memory generalRegisters kernelRsp cpu
  popAll memory iretqRegisters stack cpu

theorem popAll_append (memory : Memory) (first second : List Register) (stack : Nat) (cpu : Cpu) :
    popAll memory (first ++ second) stack cpu =
      popAll memory second (popAll memory first stack cpu).2 (popAll memory first stack cpu).1 := by
  induction first generalizing stack cpu with
  | nil => rfl
  | cons register rest ih => exact ih _ _

theorem popAll_stack (memory : Memory) (registers : List Register) (stack : Nat) (cpu : Cpu) :
    (popAll memory registers stack cpu).2 = stack + 8 * registers.length := by
  induction registers generalizing stack cpu with
  | nil => rfl
  | cons register rest ih =>
      rw [popAll, ih, List.length_cons]
      omega

theorem popAll_other {memory : Memory} {registers : List Register} {stack : Nat} {cpu : Cpu}
    {register : Register} (other : register ∉ registers) :
    (popAll memory registers stack cpu).1 register = cpu register := by
  induction registers generalizing stack cpu with
  | nil => rfl
  | cons first rest ih =>
      rw [List.mem_cons, not_or] at other
      rw [popAll, ih other.2, Function.update_of_ne other.1]

theorem popAll_register {memory : Memory} {registers : List Register} {stack : Nat} {cpu : Cpu}
    (distinct : registers.Nodup) {index : Nat} {register : Register}
    (place : registers[index]? = some register) :
    (popAll memory registers stack cpu).1 register =
      memory.readU64 (stack + 8 * index) % 2 ^ register.bits := by
  induction registers generalizing stack cpu index with
  | nil => nomatch place
  | cons first rest ih =>
      obtain ⟨fresh, distinct⟩ := List.nodup_cons.mp distinct
      rw [popAll]
      cases index with
      | zero =>
          obtain rfl := Option.some.inj place
          rw [popAll_other fresh, Function.update_self]
          rfl
      | succ index =>
          rw [ih distinct place]
          congr 2
          omega

theorem pushValues_value {memory : Memory} {frame : Nat} {values : List Nat} {index value : Nat}
    (room : 8 * values.length ≤ frame) (place : values[index]? = some value) :
    (pushValues memory frame values).readU64 (frame - 8 * (index + 1)) = value % 2 ^ 64 := by
  induction values generalizing memory frame index with
  | nil => nomatch place
  | cons first rest ih =>
      rw [List.length_cons] at room
      rw [pushValues]
      cases index with
      | zero =>
          obtain rfl := Option.some.inj place
          have kept : (pushValues (memory.writeU64 (frame - 8) first) (frame - 8) rest).readU64
              (frame - 8) = (memory.writeU64 (frame - 8) first).readU64 (frame - 8) :=
            Memory.readU64_congr fun place above below => pushValues_other (by omega) (by omega)
          rw [show frame - 8 * (0 + 1) = frame - 8 by omega, kept, Memory.readU64_writeU64_same]
      | succ index =>
          have tail := @ih (memory.writeU64 (frame - 8) first) (frame - 8) index (by omega) place
          rw [show frame - 8 - 8 * (index + 1) = frame - 8 * (index + 1 + 1) by omega] at tail
          exact tail

theorem popAll_pushValues {memory : Memory} {frame : Nat} {values : List Nat}
    {registers : List Register} (cpu : Cpu) (room : 8 * values.length ≤ frame)
    (long : registers.length = values.length) (distinct : registers.Nodup) {index : Nat}
    {register : Register} {value : Nat} (place : registers[index]? = some register)
    (pushed : values[values.length - 1 - index]? = some value) :
    (popAll (pushValues memory frame values) registers (frame - 8 * values.length) cpu).1 register =
      value % 2 ^ 64 % 2 ^ register.bits := by
  have bound : index < registers.length := (List.getElem?_eq_some_iff.mp place).1
  rw [popAll_register distinct place,
    show frame - 8 * values.length + 8 * index =
      frame - 8 * (values.length - 1 - index + 1) by omega,
    pushValues_value room pushed]

theorem enterUserMode_eq (memory : Memory) (kernelRsp : Nat) (cpu : Cpu) :
    enterUserMode memory kernelRsp cpu =
      popAll memory (generalRegisters ++ iretqRegisters) kernelRsp cpu :=
  (popAll_append memory generalRegisters iretqRegisters kernelRsp cpu).symm

def stackTop (proc : ProcessControlBlock) : Nat := proc.kernelStackPhys + kernelStackSize

def framed (proc : ProcessControlBlock) : Cpu
  | .rip => proc.elfEntry % 2 ^ 64
  | .cs => userCs
  | .rflags => 0x200
  | .rsp => proc.userRsp % 2 ^ 64
  | .ss => userSs
  | _ => 0

/-- The frame is consumed slot by slot as it was built, up to the top of the stack. -/
theorem enterUserMode_framed (memory : Memory) (proc : ProcessControlBlock) (cpu : Cpu) :
    enterUserMode (pushValues memory (stackTop proc) (initialFrame proc))
      (stackTop proc - 8 * (initialFrame proc).length) cpu = (framed proc, stackTop proc) := by
  have long : (initialFrame proc).length = 20 := rfl
  have room : 8 * (initialFrame proc).length ≤ stackTop proc :=
    Nat.le_trans (by rw [long]; decide) (Nat.le_add_left _ _)
  have loads (index : Nat) (register : Register) (value : Nat)
      (place : (generalRegisters ++ iretqRegisters)[index]? = some register)
      (pushed : (initialFrame proc)[20 - 1 - index]? = some value) :=
    @popAll_pushValues memory (stackTop proc) (initialFrame proc) (generalRegisters ++ iretqRegisters)
      cpu room (by rw [long]; rfl) (by decide) index register value place pushed
  rw [enterUserMode_eq]
  apply Prod.ext
  · funext register
    cases register with
    | r15 => exact loads 0 _ 0 rfl rfl
    | r14 => exact loads 1 _ 0 rfl rfl
    | r13 => exact loads 2 _ 0 rfl rfl
    | r12 => exact loads 3 _ 0 rfl rfl
    | r11 => exact loads 4 _ 0 rfl rfl
    | r10 => exact loads 5 _ 0 rfl rfl
    | r9 => exact loads 6 _ 0 rfl rfl
    | r8 => exact loads 7 _ 0 rfl rfl
    | rbp => exact loads 8 _ 0 rfl rfl
    | rdi => exact loads 9 _ 0 rfl rfl
    | rsi => exact loads 10 _ 0 rfl rfl
    | rdx => exact loads 11 _ 0 rfl rfl
    | rcx => exact loads 12 _ 0 rfl rfl
    | rbx => exact loads 13 _ 0 rfl rfl
    | rax => exact loads 14 _ 0 rfl rfl
    | rip => exact (loads 15 _ _ rfl rfl).trans (Nat.mod_mod _ _)
    | cs => exact loads 16 _ userCs rfl rfl
    | rflags => exact loads 17 _ 0x200 rfl rfl
    | rsp => exact (loads 18 _ _ rfl rfl).trans (Nat.mod_mod _ _)
    | ss => exact loads 19 _ userSs rfl rfl
  · rw [popAll_stack]
    have count : (generalRegisters ++ iretqRegisters).length = 20 := rfl
    rw [count, long]
    omega

/-- The registers are cleared, the entry and the user stack are taken over with interrupts enabled,
the selectors are those of the ring 3 segments, and the kernel stack is empty. -/
structure Consumed (memory : Memory) (kernelRsp : Nat) (proc : ProcessControlBlock) (cpu : Cpu) :
    Prop where
  general : ∀ register ∈ generalRegisters, (enterUserMode memory kernelRsp cpu).1 register = 0
  rip : (enterUserMode memory kernelRsp cpu).1 .rip = proc.elfEntry
  rsp : (enterUserMode memory kernelRsp cpu).1 .rsp = proc.userRsp
  interrupts : ((enterUserMode memory kernelRsp cpu).1 .rflags).testBit 9 = true
  cs : (enterUserMode memory kernelRsp cpu).1 .cs = kernelGdt.userCodeSelector
  ss : (enterUserMode memory kernelRsp cpu).1 .ss = kernelGdt.userDataSelector
  top : (enterUserMode memory kernelRsp cpu).2 = stackTop proc

theorem built_stack {slot : Nat} {kernel built : Kernel} {proc updated : ProcessControlBlock}
    (found : kernel.processTable[slot]? = some proc)
    (builds : buildInitialKernelStack slot kernel = .ok () built)
    (after : built.processTable[slot]? = some updated) :
    built.memory = pushValues kernel.memory (stackTop proc) (initialFrame proc) ∧
      updated.kernelRsp = stackTop proc - 8 * (initialFrame proc).length := by
  obtain ⟨_, memory, table⟩ := buildInitialKernelStack_ok builds found
  refine ⟨memory, ?_⟩
  rw [table, List.getElem?_modify_eq, found] at after
  rw [← Option.some.inj after]
  rfl

/-- The code selector of the frame names the data segment, and its stack selector no segment. -/
theorem frame_selectors : kernelGdt.userCodeSelector = 0x33 ∧ kernelGdt.userDataSelector = 0x2B ∧
    kernelGdt.gdt.named userCs = some .userDataSegment ∧ kernelGdt.gdt.named userSs = none := by
  decide

theorem frame_not_consumed_of_built {memory : Memory} {proc : ProcessControlBlock} (cpu : Cpu) :
    ¬Consumed (pushValues memory (stackTop proc) (initialFrame proc))
      (stackTop proc - 8 * (initialFrame proc).length) proc cpu := by
  intro consumed
  have cs : framed proc .cs = kernelGdt.userCodeSelector := by
    rw [← consumed.cs, enterUserMode_framed]
  exact absurd cs (by rw [framed]; decide)

/-- The frame of no process is consumed as it should be: both selectors are off by one slot. -/
theorem frame_never_consumed {slot : Nat} {kernel built : Kernel}
    {proc updated : ProcessControlBlock} (found : kernel.processTable[slot]? = some proc)
    (builds : buildInitialKernelStack slot kernel = .ok () built)
    (after : built.processTable[slot]? = some updated) (cpu : Cpu) :
    ¬Consumed built.memory updated.kernelRsp proc cpu := by
  obtain ⟨memory, kernelRsp⟩ := built_stack found builds after
  rw [memory, kernelRsp]
  exact frame_not_consumed_of_built cpu

theorem frame_never_consumed_idle :
    ∃ built updated, buildInitialKernelStack 0 (idleKernel 20) = .ok () built ∧
      built.processTable[0]? = some updated ∧
      ¬Consumed built.memory updated.kernelRsp idleProcess (fun _ => 0) :=
  ⟨_, _, rfl, rfl, @frame_never_consumed 0 (idleKernel 20) _ idleProcess _ rfl rfl rfl fun _ => 0⟩

def waitingProcess : ProcessControlBlock :=
  { idleProcess with
    state := .ready
    userRsp := userStackTop
    elfEntry := 0x400000
    kernelStackPhys := 0x5000 }

theorem waiting_frame_not_consumed :
    ¬Consumed (pushValues idleMemory (stackTop waitingProcess) (initialFrame waitingProcess))
      (stackTop waitingProcess - 8 * (initialFrame waitingProcess).length) waitingProcess
      (fun _ => 0) :=
  frame_not_consumed_of_built fun _ => 0

end ArcadiaOs.Process
