import ArcadiaOs.Memory.Grants
import ArcadiaOs.Process.LaunchCore

/-!
What the documentation of `map_to` says of a call: frames come from the allocator, at
most three of them; the entries on the path of the page are followed, and a missing one
gets a table of its own; the page's last entry was unused and maps the frame.
-/

namespace ArcadiaOs.Process

open Lib Memory PhysicalFrameAllocator

/-- The entries of a path in the tables: the PML4's, and those of the tables below. -/
def slot4 (pml4 page : Nat) : Nat := pml4 + 8 * p4Index page
def slot3 (table page : Nat) : Nat := table + 8 * p3Index page
def slot2 (table page : Nat) : Nat := table + 8 * p2Index page
def slot1 (table page : Nat) : Nat := table + 8 * p1Index page

def entryAt (memory : Memory) (slot : Nat) : PageTableEntry := ⟨memory.readU64 slot⟩

/-- An unused entry, a huge page, or an entry that leads to a table of the next level. -/
def Typed (level : Nat → Nat) (height : Nat) (entry : PageTableEntry) : Prop :=
  entry.bits = 0 ∨
  entry.present = true ∧ (entry.hugePage = true ∨ level entry.addr + 1 = height)

/-- Well-formed tables below the covered entries of a PML4: each is used at one level, and none
lies in a frame the allocator can hand out.  `level` is 0 for what is no table. -/
structure Tables (covers : Nat → Prop) (level : Nat → Nat) (pml4 : Nat) (memory : Memory)
    (pmm : PhysicalFrameAllocator) : Prop where
  root : ∀ table, level table = 4 ↔ table = pml4
  entries : ∀ table index, 2 ≤ level table → index < 512 → (table = pml4 → covers index) →
    Typed level (level table) (entryAt memory (table + 8 * index))
  aligned : ∀ table, level table ≠ 0 → table % 4096 = 0
  reserved : ∀ table, level table ≠ 0 → pmm.isFrameReserved (table / 4096) = true
  sound : pmm.NextFreeSound

def cleared (memory : Memory) (taken : List Nat) : Memory := fun place =>
  if place / 4096 * 4096 ∈ taken then 0 else memory place

/-- An entry above the last one: it was unused and gets a new table, or it leads to its table and
gets the flags it lacks. -/
def Link (before : Memory) (taken : List Nat) (after : Memory) (flags slot table : Nat) : Prop :=
  before.readU64 slot = 0 ∧ table ∈ taken ∧ after.readU64 slot = table + flags ∨
  (entryAt before slot).present = true ∧ (entryAt before slot).hugePage = false ∧
    (entryAt before slot).addr = table ∧ after.readU64 slot = before.readU64 slot ||| flags

def Outside (slot place : Nat) : Prop := place < slot ∨ slot + 8 ≤ place

structure Maps (memory : Memory) (taken : List Nat) (memory' : Memory) (pml4 page frame flags : Nat)
    (table3 table2 table1 : Nat) : Prop where
  link4 : Link (cleared memory taken) taken memory' flags (slot4 pml4 page) table3
  link3 : Link (cleared memory taken) taken memory' flags (slot3 table3 page) table2
  link2 : Link (cleared memory taken) taken memory' flags (slot2 table2 page) table1
  unused : (cleared memory taken).readU64 (slot1 table1 page) = 0
  leaf : memory'.readU64 (slot1 table1 page) = frame + flags
  own3 : table3 ∈ taken → table3 ≠ table2 ∧ table3 ≠ table1
  own2 : table2 ∈ taken → table2 ≠ table1
  others : ∀ place, Outside (slot4 pml4 page) place → Outside (slot3 table3 page) place →
    Outside (slot2 table2 page) place → Outside (slot1 table1 page) place →
    memory' place = cleared memory taken place

/-- The documented behaviour of `map_to`, for well-formed tables and an allocator that hands out
no table in use. -/
structure MapTo.Documented (mapTo : MapTo) : Prop where
  allocates : ∀ memory pmm pml4 page frame flags, ∃ count ≤ 3,
    (mapTo memory pmm pml4 page frame flags).2.2 = allocations count pmm
  maps : ∀ covers level memory pmm pml4 page frame flags memory' pmm',
    Tables covers level pml4 memory pmm → covers (p4Index page) →
    page % 4096 = 0 → frame % 4096 = 0 → frame < 2 ^ 52 → flags < 8 → flags.testBit 0 = true →
    mapTo memory pmm pml4 page frame flags = (.ok (), memory', pmm') →
    ∃ count ≤ 3, pmm' = allocations count pmm ∧ ∃ table3 table2 table1,
      Maps memory (grants count pmm) memory' pml4 page frame flags table3 table2 table1

end ArcadiaOs.Process
