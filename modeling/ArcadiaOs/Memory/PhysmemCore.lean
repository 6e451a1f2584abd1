import ArcadiaOs.Lib.Bitmap
import Mathlib.Algebra.Group.Nat.Defs
import Mathlib.Data.List.Basic

/-!
The physical memory manager of `memory/physmem.rs`: the bitmap frame allocator and
the manager around it.  `usize` and `u64` values are natural numbers; sums and
differences that the source can wrap are reduced with `wrap64`.
-/

namespace ArcadiaOs.Memory

open Lib

def frameSize : Nat := 4096

def maxTrackedFrames : Nat := 4 * 1024 * 1024 * 1024 / frameSize

@[irreducible] def wrap64 (value : Nat) : Nat := value % 2 ^ 64

theorem wrap64_eq (value : Nat) : wrap64 value = value % 2 ^ 64 := by unfold wrap64; rfl

def wrappingSub (left right : Nat) : Nat := wrap64 (left + 2 ^ 64 - right % 2 ^ 64)

/-- A physical address has 52 bits; the constructor of the source panics on more. -/
structure PhysAddr where
  asU64 : Nat
  inBounds : asU64 < 2 ^ 52
  deriving DecidableEq

def PhysAddr.new? (value : Nat) : Option PhysAddr :=
  if bound : value < 2 ^ 52 then some ⟨value, bound⟩ else none

theorem PhysAddr.zero_inBounds : 0 < 2 ^ 52 := by decide

theorem PhysAddr.page_inBounds : 0x1000 < 2 ^ 52 := by decide

inductive MemoryRegionType
  | unavailable | usable | reserved | acpi | acpiNvs | bad | bootloaderReclaimable | kernel | mmio
  deriving DecidableEq

def MemoryRegionType.isUsable : MemoryRegionType → Bool
  | .usable | .bootloaderReclaimable => true
  | _ => false

def MemoryRegionType.asStr : MemoryRegionType → String
  | .unavailable => "Unavailable"
  | .usable => "Usable RAM"
  | .reserved => "Reserved"
  | .acpi => "ACPI Tables"
  | .acpiNvs => "ACPI NVS"
  | .bad => "Bad Memory"
  | .bootloaderReclaimable => "Bootloader Reclaimable"
  | .kernel => "Kernel"
  | .mmio => "MMIO"

structure MemoryRegion where
  base : PhysAddr
  size : Nat
  regionType : MemoryRegionType
  name : String

/-- `PhysAddr::new` panics when the wrapped sum has more than 52 bits. -/
def MemoryRegion.end? (region : MemoryRegion) : Option PhysAddr :=
  PhysAddr.new? (wrap64 (region.base.asU64 + region.size))

def MemoryRegion.isUsable (region : MemoryRegion) : Bool := region.regionType.isUsable

structure ReservedRegion where
  region : MemoryRegion
  purpose : String

structure MemoryStatistics where
  totalBytes : Nat
  usableBytes : Nat
  reservedBytes : Nat
  allocatedFrames : Nat
  freeFrames : Nat
  totalFrames : Nat
  allocationFailures : Nat
  doubleFreeAttempts : Nat
  invalidFreeAttempts : Nat
  largestFreeBlock : Nat
  freeBlockCount : Nat

inductive PmmError
  | outOfMemory | allocationTooLarge | invalidFree | doubleFree | notInitialized
  deriving DecidableEq

abbrev PmmResult := Except PmmError Unit

/-- The allocator together with the static `BITMAP` it works on. -/
structure PhysicalFrameAllocator where
  bitmap : Bitmap 8
  totalFrames : Nat
  allocatedFrames : Nat
  nextFree : Nat
  stats : MemoryStatistics
  validationEnabled : Bool
  totalBound : totalFrames ≤ maxTrackedFrames

namespace PhysicalFrameAllocator

/-- `bitmap` is the content of the static before the call. -/
def new (bitmap : Bitmap 8) (totalMemoryBytes : Nat) : PhysicalFrameAllocator :=
  let totalFrames := min (totalMemoryBytes / frameSize) maxTrackedFrames
  { bitmap := fun index => if index < (totalFrames + 7) / 8 then 0#8 else bitmap index
    totalFrames
    allocatedFrames := 0
    nextFree := 0
    stats := {
      totalBytes := totalMemoryBytes
      usableBytes := 0
      reservedBytes := 0
      allocatedFrames := 0
      freeFrames := totalFrames
      totalFrames
      allocationFailures := 0
      doubleFreeAttempts := 0
      invalidFreeAttempts := 0
      largestFreeBlock := totalFrames
      freeBlockCount := if totalFrames > 0 then 1 else 0 }
    validationEnabled := true
    totalBound := Nat.min_le_right _ _ }

def isFrameReserved (pmm : PhysicalFrameAllocator) (frame : Nat) : Bool :=
  if frame ≥ pmm.totalFrames then true else pmm.bitmap.test frame

def markFrameReserved (pmm : PhysicalFrameAllocator) (frame : Nat) : PhysicalFrameAllocator :=
  if frame < pmm.totalFrames then { pmm with bitmap := pmm.bitmap.set frame } else pmm

def markFrameFree (pmm : PhysicalFrameAllocator) (frame : Nat) : PhysicalFrameAllocator :=
  if frame < pmm.totalFrames then
    { pmm with
      bitmap := pmm.bitmap.clear frame
      nextFree := if frame < pmm.nextFree then frame else pmm.nextFree }
  else pmm

/-- The scan `while next < total_frames && is_frame_reserved(next) { next += 1 }`; it takes at
most `total_frames - next` turns, which is the first argument. -/
def skipReserved (pmm : PhysicalFrameAllocator) : Nat → Nat → Nat
  | 0, frame => frame
  | turns + 1, frame => if pmm.isFrameReserved frame then pmm.skipReserved turns (frame + 1) else frame

def advanceNextFree (pmm : PhysicalFrameAllocator) : PhysicalFrameAllocator :=
  { pmm with nextFree := pmm.skipReserved (pmm.totalFrames - pmm.nextFree) pmm.nextFree }

def recalculateNextFree (pmm : PhysicalFrameAllocator) : PhysicalFrameAllocator :=
  { pmm with nextFree := 0 }.advanceNextFree

def reserveFrame (pmm : PhysicalFrameAllocator) (frame : Nat) : PhysicalFrameAllocator :=
  if pmm.isFrameReserved frame then pmm
  else
    let marked := pmm.markFrameReserved frame
    { marked with allocatedFrames := wrap64 (marked.allocatedFrames + 1) }

def reserveRange (pmm : PhysicalFrameAllocator) (start stop : PhysAddr) : PhysicalFrameAllocator :=
  let startFrame := start.asU64 / frameSize
  let endFrame := (stop.asU64 + frameSize - 1) / frameSize
  let cappedEnd := min endFrame pmm.totalFrames
  ((List.range' startFrame (cappedEnd - startFrame)).foldl reserveFrame pmm).recalculateNextFree

/-- The ranges that `init_standard_reservations` reserves, in its order. -/
def standardReservations : List (PhysAddr × PhysAddr) :=
  [(⟨0x00000000, by decide⟩, ⟨0x00100000, by decide⟩),
   (⟨0x00001000, by decide⟩, ⟨0x00005000, by decide⟩),
   (⟨0x00000500, by decide⟩, ⟨0x00000600, by decide⟩),
   (⟨0x00100000, by decide⟩, ⟨0x00200000, by decide⟩),
   (⟨0x00070000, by decide⟩, ⟨0x00090000, by decide⟩),
   (⟨0x00060000, by decide⟩, ⟨0x00065000, by decide⟩),
   (⟨0x00065000, by decide⟩, ⟨0x0006A000, by decide⟩),
   (⟨0x00400000, by decide⟩, ⟨0x00420000, by decide⟩),
   (⟨0x000A0000, by decide⟩, ⟨0x000C0000, by decide⟩)]

def initStandardReservations (pmm : PhysicalFrameAllocator) : PhysicalFrameAllocator :=
  standardReservations.foldl (fun pmm range => pmm.reserveRange range.1 range.2) pmm

def countAllocationFailure (pmm : PhysicalFrameAllocator) : PhysicalFrameAllocator :=
  if pmm.validationEnabled then
    { pmm with stats := { pmm.stats with
      allocationFailures := wrap64 (pmm.stats.allocationFailures + 1) } }
  else pmm

def countInvalidFree (pmm : PhysicalFrameAllocator) : PhysicalFrameAllocator :=
  if pmm.validationEnabled then
    { pmm with stats := { pmm.stats with
      invalidFreeAttempts := wrap64 (pmm.stats.invalidFreeAttempts + 1) } }
  else pmm

def countDoubleFree (pmm : PhysicalFrameAllocator) : PhysicalFrameAllocator :=
  if pmm.validationEnabled then
    { pmm with stats := { pmm.stats with
      doubleFreeAttempts := wrap64 (pmm.stats.doubleFreeAttempts + 1) } }
  else pmm

theorem frameAddress_inBounds {frame total : Nat} (total_le : total ≤ maxTrackedFrames)
    (bound : frame < total) : frame * frameSize < 2 ^ 52 := by
  simp only [maxTrackedFrames, frameSize] at *
  omega

def allocateFrame (pmm : PhysicalFrameAllocator) : Option PhysAddr × PhysicalFrameAllocator :=
  if full : pmm.nextFree ≥ pmm.totalFrames then (none, pmm.countAllocationFailure)
  else
    let frame := pmm.nextFree
    let marked := pmm.markFrameReserved frame
    let counted := { marked with allocatedFrames := wrap64 (marked.allocatedFrames + 1) }
    (some ⟨frame * frameSize, frameAddress_inBounds pmm.totalBound (Nat.lt_of_not_le full)⟩,
      counted.advanceNextFree)

def reservedOffset (pmm : PhysicalFrameAllocator) (start count : Nat) : Option Nat :=
  (List.range count).find? fun offset => pmm.isFrameReserved (start + offset)

/-- The search loop of `allocate_frames`; every turn moves `start` on, so `total_frames + 1`
turns are enough. -/
def findBlock (pmm : PhysicalFrameAllocator) (count : Nat) : Nat → Nat → Option Nat
  | 0, _ => none
  | turns + 1, start =>
      if start + count ≤ pmm.totalFrames then
        match pmm.reservedOffset start count with
        | some offset => pmm.findBlock count turns (start + (offset + 1))
        | none => some start
      else none

theorem findBlock_bound {pmm : PhysicalFrameAllocator} {count turns start found : Nat}
    (search : pmm.findBlock count turns start = some found) :
    found + count ≤ pmm.totalFrames := by
  induction turns generalizing start with
  | zero => simp [findBlock] at search
  | succ turns ih =>
      simp only [findBlock] at search
      split at search
      · rename_i bound
        split at search
        · exact ih search
        · simp only [Option.some.injEq] at search
          omega
      · simp at search

def takeBlock (pmm : PhysicalFrameAllocator) (start count : Nat) : PhysicalFrameAllocator :=
  let marked := (List.range' start count).foldl markFrameReserved pmm
  { marked with
    allocatedFrames := wrap64 (marked.allocatedFrames + count)
    nextFree := start + count }.advanceNextFree

def allocateFrames (pmm : PhysicalFrameAllocator) (count : Nat) :
    Option PhysAddr × PhysicalFrameAllocator :=
  if zero : count = 0 then (none, pmm)
  else if count > pmm.totalFrames then (none, pmm.countAllocationFailure)
  else
    match search : pmm.findBlock count (pmm.totalFrames + 1) pmm.nextFree with
    | some start =>
        (some ⟨start * frameSize, frameAddress_inBounds pmm.totalBound
          (Nat.lt_of_lt_of_le (Nat.lt_add_of_pos_right (Nat.pos_of_ne_zero zero))
            (findBlock_bound search))⟩,
          pmm.takeBlock start count)
    | none => (none, pmm.countAllocationFailure)

def freeFrame (pmm : PhysicalFrameAllocator) (addr : PhysAddr) :
    PmmResult × PhysicalFrameAllocator :=
  let frame := addr.asU64 / frameSize
  if frame ≥ pmm.totalFrames then (.error .invalidFree, pmm.countInvalidFree)
  else if !pmm.isFrameReserved frame then (.error .doubleFree, pmm.countDoubleFree)
  else
    let freed := pmm.markFrameFree frame
    (.ok (), { freed with allocatedFrames := wrappingSub freed.allocatedFrames 1 })

/-- `start_frame + count` wraps in the release build, and so does the counter. -/
def freeFrames (pmm : PhysicalFrameAllocator) (addr : PhysAddr) (count : Nat) :
    PmmResult × PhysicalFrameAllocator :=
  let startFrame := addr.asU64 / frameSize
  let endFrame := wrap64 (startFrame + count)
  let frames := List.range' startFrame (endFrame - startFrame)
  if endFrame > pmm.totalFrames then (.error .invalidFree, pmm.countInvalidFree)
  else if pmm.validationEnabled && frames.any (fun frame => !pmm.isFrameReserved frame) then
    (.error .doubleFree, pmm.countDoubleFree)
  else
    let freed := frames.foldl markFrameFree pmm
    (.ok (), { freed with allocatedFrames := wrappingSub freed.allocatedFrames count })

end PhysicalFrameAllocator

end ArcadiaOs.Memory
