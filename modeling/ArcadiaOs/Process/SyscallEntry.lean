import ArcadiaOs.Process.EnterUserMode
import ArcadiaOs.Process.Syscall

/-!
The way of a system call through `syscall_entry` of `process/syscall.rs`: the frame of the processor,
the pushes, the call of the dispatcher and the way back to Ring 3.
-/

namespace ArcadiaOs.Process

open Lib

/-- The registers in the order in which `syscall_entry` pushes them. -/
def pushedRegisters : List Register :=
  [.rax, .rbx, .rcx, .rdx, .rsi, .rdi, .rbp, .r8, .r9, .r10, .r11, .r12, .r13, .r14, .r15]

/-- The processor aligns the stack of the TSS before it pushes. -/
def interruptStack (rsp0 : Nat) : Nat := rsp0 / 16 * 16

def entered (memory : Memory) (rsp0 : Nat) (cpu : Cpu) : Memory :=
  let top := interruptStack rsp0
  let framed := pushValues memory top ([.ss, .rsp, .rflags, .cs, .rip].map cpu)
  pushValues framed (top - 8 * 5) (pushedRegisters.map cpu)

inductive EntryOutcome
  | resumes (cpu : Cpu) (stack : Nat)
  /-- The stack of the shell is taken back. -/
  | shell
  | exits (code : Nat)
  | panic

/-- `syscall_entry`.  The call of the dispatcher leaves other memory and other registers behind. -/
def syscallEntry (memory : Memory) (pml4 rsp0 : Nat) (exitRequested : Bool)
    (called : Memory → Memory) (left : Cpu) (cpu : Cpu) : EntryOutcome :=
  let saved := entered memory rsp0 cpu
  let rsp := interruptStack rsp0 - 8 * 5 - 8 * 15
  let number := saved.readU64 (rsp + 14 * 8)
  let arg0 := saved.readU64 (rsp + 9 * 8)
  let arg1 := saved.readU64 (rsp + 10 * 8)
  match syscallDispatch saved pml4 number arg0 arg1 with
  | .panic => .panic
  | .exits code => .exits code
  | .returned value =>
      if exitRequested then .shell
      else
        let answered := (called saved).writeU64 (rsp + 14 * 8) value
        let (restored, stack) := popAll answered generalRegisters rsp left
        let (resumed, stack) := popAll answered iretqRegisters stack restored
        .resumes resumed stack

theorem pushValues_append (memory : Memory) (frame : Nat) (front back : List Nat) :
    pushValues memory frame (front ++ back) =
      pushValues (pushValues memory frame front) (frame - 8 * front.length) back := by
  induction front generalizing memory frame with
  | nil => rfl
  | cons value rest ih =>
      rw [List.cons_append, pushValues, ih, pushValues, List.length_cons, Nat.sub_sub,
        Nat.mul_succ, Nat.add_comm 8]

def poppedRegisters : List Register := generalRegisters ++ iretqRegisters

theorem poppedRegisters_place (register : Register) :
    ∃ index < 20, poppedRegisters[index]? = some register := by
  cases register <;> decide

variable {memory : Memory} {rsp0 : Nat} {cpu : Cpu}

theorem entered_eq : entered memory rsp0 cpu =
    pushValues memory (interruptStack rsp0) (poppedRegisters.reverse.map cpu) := by
  have order : poppedRegisters.reverse = [.ss, .rsp, .rflags, .cs, .rip] ++ pushedRegisters := rfl
  rw [order, List.map_append, pushValues_append, List.length_map]
  rfl

variable (fits : ∀ register : Register, cpu register < 2 ^ register.bits)
  (room : 160 ≤ interruptStack rsp0)
include fits room

theorem entered_register {index : Nat} {register : Register} (bound : index < 20)
    (place : poppedRegisters[index]? = some register) :
    (entered memory rsp0 cpu).readU64 (interruptStack rsp0 - 160 + 8 * index) = cpu register := by
  have length : poppedRegisters.length = 20 := rfl
  have pushed : (poppedRegisters.reverse.map cpu)[19 - index]? = some (cpu register) := by
    rw [List.getElem?_map, List.getElem?_reverse (by omega), length,
      show 20 - 1 - (19 - index) = index by omega, place]
    rfl
  have value := @pushValues_value memory (interruptStack rsp0) (poppedRegisters.reverse.map cpu)
    (19 - index) _ (by simpa [length] using room) pushed
  have small : cpu register < 2 ^ 64 :=
    (fits register).trans_le (Nat.pow_le_pow_right (by decide) (by cases register <;> decide))
  rw [entered_eq, show interruptStack rsp0 - 160 + 8 * index =
    interruptStack rsp0 - 8 * (19 - index + 1) by omega, value, Nat.mod_eq_of_lt small]

/-- What the pops take back when the dispatcher has kept the stack above it: the registers as they
were, but for the answer. -/
theorem answered_register {called : Memory → Memory} {value : Nat} (small : value < 2 ^ 64)
    (kept : ∀ place, interruptStack rsp0 - 160 ≤ place →
      called (entered memory rsp0 cpu) place = entered memory rsp0 cpu place) (left : Cpu)
    (register : Register) :
    (popAll ((called (entered memory rsp0 cpu)).writeU64 (interruptStack rsp0 - 160 + 14 * 8) value)
      poppedRegisters (interruptStack rsp0 - 160) left).1 register =
      Function.update cpu .rax value register := by
  obtain ⟨index, bound, place⟩ := poppedRegisters_place register
  rw [popAll_register (by decide) place]
  by_cases answer : index = 14
  · subst answer
    obtain rfl : register = .rax := (Option.some.inj place).symm
    rw [Function.update_self, Nat.mul_comm 8, Memory.readU64_writeU64_same,
      Nat.mod_eq_of_lt small]
    exact Nat.mod_eq_of_lt small
  · have other : register ≠ .rax := by
      rintro rfl
      have both : poppedRegisters[index]? = poppedRegisters[14]? := place
      exact answer ((List.getElem?_inj (by decide : 14 < _) (by decide)).mp both.symm).symm
    have saved : ((called (entered memory rsp0 cpu)).writeU64
        (interruptStack rsp0 - 160 + 14 * 8) value).readU64 (interruptStack rsp0 - 160 + 8 * index) =
        (entered memory rsp0 cpu).readU64 (interruptStack rsp0 - 160 + 8 * index) :=
      Memory.readU64_congr fun place above below => by
        rw [Memory.writeU64_other (by omega), kept place (by omega)]
    rw [saved, entered_register fits room bound place, Function.update_of_ne other,
      Nat.mod_eq_of_lt (fits register)]

omit fits room in
theorem syscallDispatch_small {pml4 number arg0 arg1 value : Nat} (small : arg1 < 2 ^ 64)
    (returned : syscallDispatch memory pml4 number arg0 arg1 = .returned value) :
    value < 2 ^ 64 := by
  rw [syscallDispatch] at returned
  split at returned
  · rcases sysWrite_returns memory pml4 arg0 arg1 with ⟨halted, _⟩ | ⟨_, _, _, done, answer⟩
    · rw [halted] at returned
      cases returned
    · rw [done] at returned
      obtain rfl := SyscallOutcome.returned.inj returned
      omega
  · split at returned
    · cases returned
    split at returned <;> obtain rfl := SyscallOutcome.returned.inj returned <;> decide

def EntryOutcome.of (cpu : Cpu) (top : Nat) : SyscallOutcome → EntryOutcome
  | .returned value => .resumes (Function.update cpu .rax value) top
  | .exits code => .exits code
  | .panic => .panic

/-- A system call gives the dispatcher `RAX`, `RDI` and `RSI`, and comes back with all registers, flags
and stacks as they were and the answer in `RAX`, whatever the dispatcher leaves behind. -/
theorem syscall_keeps_registers {pml4 : Nat} {called : Memory → Memory}
    (kept : ∀ place, interruptStack rsp0 - 160 ≤ place →
      called (entered memory rsp0 cpu) place = entered memory rsp0 cpu place) (left : Cpu) :
    syscallEntry memory pml4 rsp0 false called left cpu = .of cpu (interruptStack rsp0)
      (syscallDispatch (entered memory rsp0 cpu) pml4 (cpu .rax) (cpu .rdi) (cpu .rsi)) := by
  have saved (index : Nat) (register : Register) (bound : index < 20)
      (place : poppedRegisters[index]? = some register) :=
    @entered_register memory rsp0 cpu fits room index register bound place
  have base : interruptStack rsp0 - 8 * 5 - 8 * 15 = interruptStack rsp0 - 160 := by omega
  unfold syscallEntry
  dsimp only
  rw [base]
  rw [Nat.mul_comm 14 8, Nat.mul_comm 9 8, Nat.mul_comm 10 8, saved 14 .rax (by decide) rfl,
    saved 9 .rdi (by decide) rfl, saved 10 .rsi (by decide) rfl]
  cases answered : syscallDispatch (entered memory rsp0 cpu) pml4 (cpu .rax) (cpu .rdi) (cpu .rsi) with
  | panic => rfl
  | exits code => rfl
  | returned value =>
      have small := syscallDispatch_small (fits .rsi) answered
      have registers := answered_register fits room small kept left
      have stack : interruptStack rsp0 - 160 + 8 * poppedRegisters.length = interruptStack rsp0 := by
        change interruptStack rsp0 - 160 + 8 * 20 = _
        omega
      have popped := popAll_append
        ((called (entered memory rsp0 cpu)).writeU64 (interruptStack rsp0 - 160 + 14 * 8) value)
        generalRegisters iretqRegisters (interruptStack rsp0 - 160) left
      simp only [Bool.false_eq_true, if_false, EntryOutcome.of, EntryOutcome.resumes.injEq,
        Nat.mul_comm 8 14]
      rw [← popped]
      exact ⟨funext registers, (popAll_stack _ poppedRegisters _ _).trans stack⟩

def yieldingCpu : Cpu := Function.update (fun _ => 7) .rax SyscallNumber.yield

omit fits room in
theorem syscall_yields :
    syscallEntry bootTables 0x1000 0x80008 false id (fun _ => 0) yieldingCpu =
      .resumes (Function.update yieldingCpu .rax 0) 0x80000 := by
  have answered := @syscall_keeps_registers bootTables 0x80008 yieldingCpu
    (by intro register; cases register <;> decide) (by decide) 0x1000 id (fun _ _ => rfl) (fun _ => 0)
  have number : yieldingCpu .rax = 3 := rfl
  rw [answered, number]
  rfl

end ArcadiaOs.Process
