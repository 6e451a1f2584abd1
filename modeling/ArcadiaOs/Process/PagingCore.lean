import ArcadiaOs.Lib.Bytes

/-!
Four-level page tables in physical memory and the pointer check of
`process/mod.rs` that walks them.  Physical memory is identity mapped, so a table
address is read directly.
-/

namespace ArcadiaOs.Process

open Lib

structure PageTableEntry where
  bits : Nat
  deriving DecidableEq

namespace PageTableEntry

def present (entry : PageTableEntry) : Bool := entry.bits.testBit 0

def writable (entry : PageTableEntry) : Bool := entry.bits.testBit 1

def userAccessible (entry : PageTableEntry) : Bool := entry.bits.testBit 2

def hugePage (entry : PageTableEntry) : Bool := entry.bits.testBit 7

def addr (entry : PageTableEntry) : Nat := entry.bits / 4096 % 2 ^ 40 * 4096

end PageTableEntry

def tableEntry (memory : Memory) (table index : Nat) : PageTableEntry :=
  ⟨memory.readU64 (table + 8 * index)⟩

def p4Index (addr : Nat) : Nat := addr / 2 ^ 39 % 512
def p3Index (addr : Nat) : Nat := addr / 2 ^ 30 % 512
def p2Index (addr : Nat) : Nat := addr / 2 ^ 21 % 512
def p1Index (addr : Nat) : Nat := addr / 2 ^ 12 % 512

/-- Bits 47 to 63 of a canonical address are equal; `VirtAddr::new` panics on the others. -/
def canonical (addr : Nat) : Bool := addr < 2 ^ 47 || (2 ^ 64 - 2 ^ 47 ≤ addr && addr < 2 ^ 64)

def kernelHalf : Nat := 0xFFFF800000000000

/-- What one turn of the loop of `validate_user_ptr` does with a page. -/
inductive PageCheck
  | panic
  | reject
  | advance (next : Nat)
  deriving DecidableEq

def checkPage (memory : Memory) (pml4 addr : Nat) : PageCheck :=
  if !canonical addr then .panic
  else
    let p4Entry := tableEntry memory pml4 (p4Index addr)
    if !p4Entry.present then .reject
    else
      let p3Entry := tableEntry memory p4Entry.addr (p3Index addr)
      if !p3Entry.present then .reject
      else if p3Entry.hugePage then .advance (addr / 2 ^ 30 * 2 ^ 30 + 2 ^ 30)
      else
        let p2Entry := tableEntry memory p3Entry.addr (p2Index addr)
        if !p2Entry.present then .reject
        else if p2Entry.hugePage then .advance (addr / 2 ^ 21 * 2 ^ 21 + 2 ^ 21)
        else
          let p1Entry := tableEntry memory p2Entry.addr (p1Index addr)
          if !p1Entry.present then .reject
          else if !p1Entry.userAccessible then .reject
          else .advance (addr + 4096)

theorem checkPage_advances {memory : Memory} {pml4 addr next : Nat}
    (checked : checkPage memory pml4 addr = .advance next) : addr < next := by
  simp only [checkPage] at checked
  repeat' split at checked
  all_goals first
    | (injection checked with same; omega)
    | nomatch checked

/-- The `while addr <= end_page` loop; `none` is the panic of `VirtAddr::new`.  A checked address
is canonical and at most `endPage`, below the kernel half, so the strides never wrap. -/
def validatePages (memory : Memory) (pml4 endPage addr : Nat) : Option Bool :=
  if addr ≤ endPage then
    match checked : checkPage memory pml4 addr with
    | .panic => none
    | .reject => some false
    | .advance next =>
        have := checkPage_advances checked
        validatePages memory pml4 endPage next
  else some true
termination_by endPage + 1 - addr

/-- `pml4` is the physical address in `CR3`; pointers and lengths are 64-bit values. -/
def validateUserPtr (memory : Memory) (pml4 ptr len : Nat) : Option Bool :=
  if ptr = 0 ∨ len = 0 then some false
  else if ptr ≥ kernelHalf then some false
  else
    let stop := min (ptr + len) (2 ^ 64 - 1)
    if stop < ptr ∨ stop > kernelHalf then some false
    else
      let endPage := (stop - 1) / 4096 * 4096
      validatePages memory pml4 endPage (ptr / 4096 * 4096)

/-- The value `sys_write` returns in `RAX` and the addresses it reads, in order; `none` when the
pointer check panics. -/
def sysWrite (memory : Memory) (pml4 buf len : Nat) : Option (Nat × List Nat) :=
  if len = 0 then some (0, [])
  else
    match validateUserPtr memory pml4 buf len with
    | none => none
    | some false => some (2 ^ 64 - 1, [])
    | some true => some (len, (List.range len).map (buf + ·))

end ArcadiaOs.Process
