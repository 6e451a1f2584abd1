import ArcadiaOs.Lib.Tally
import ArcadiaOs.Memory.PhysmemCore
import Mathlib.Data.List.Sort

/-!
The statistics of the frame allocator and the `PhysicalMemoryManager` of
`memory/physmem.rs`.  A function that can reach the panic of `PhysAddr::new`
returns an `Option`.
-/

namespace ArcadiaOs.Memory

open Lib

namespace PhysicalFrameAllocator

structure FreeRuns where
  freeBlocks : Nat
  largestBlock : Nat
  currentBlock : Nat

def FreeRuns.close (runs : FreeRuns) : FreeRuns :=
  if runs.currentBlock > 0 then
    { freeBlocks := runs.freeBlocks + 1
      largestBlock :=
        if runs.currentBlock > runs.largestBlock then runs.currentBlock else runs.largestBlock
      currentBlock := 0 }
  else runs

def FreeRuns.add (runs : FreeRuns) (reserved : Bool) : FreeRuns :=
  if !reserved then { runs with currentBlock := runs.currentBlock + 1 } else runs.close

def freeRuns (pmm : PhysicalFrameAllocator) : FreeRuns :=
  let start : FreeRuns := { freeBlocks := 0, largestBlock := 0, currentBlock := 0 }
  ((List.range pmm.totalFrames).foldl
    (fun (runs : FreeRuns) frame => runs.add (pmm.isFrameReserved frame)) start).close

def updateFragmentationStats (pmm : PhysicalFrameAllocator) : PhysicalFrameAllocator :=
  { pmm with stats := { pmm.stats with
    freeBlockCount := pmm.freeRuns.freeBlocks
    largestFreeBlock := pmm.freeRuns.largestBlock } }

def updateStatistics (pmm : PhysicalFrameAllocator) (usableBytes reservedBytes : Nat) :
    PhysicalFrameAllocator :=
  { pmm with stats := { pmm.stats with
    usableBytes
    reservedBytes
    freeFrames := wrappingSub pmm.totalFrames pmm.allocatedFrames
    allocatedFrames := pmm.allocatedFrames } }.updateFragmentationStats

def freeFrameCount (pmm : PhysicalFrameAllocator) : Nat :=
  wrappingSub pmm.totalFrames pmm.allocatedFrames

/-- The bits of the last byte that stand for no frame are counted as well. -/
def validateBitmap (pmm : PhysicalFrameAllocator) : Bool :=
  let bitmapBytes := (pmm.totalFrames + 7) / 8
  pmm.bitmap.population bitmapBytes == pmm.allocatedFrames

def beyondTracked : PhysAddr := ⟨maxTrackedFrames * frameSize + 0x1000, by decide⟩

/-- What `self_test` does once its test frame is free again. -/
def selfTestFreed (pmm : PhysicalFrameAllocator) (addr : PhysAddr) :
    Bool × PhysicalFrameAllocator :=
  if !pmm.validateBitmap then (false, pmm)
  else
    let again := pmm.freeFrame addr
    if again.1 ≠ .error .doubleFree then (false, again.2)
    else
      let invalid := again.2.freeFrame beyondTracked
      if invalid.1 ≠ .error .invalidFree then (false, invalid.2)
      else
        let block := invalid.2.allocateFrames 4
        let final :=
          match block.1 with
          | some start => (block.2.freeFrames start 4).2
          | none => block.2
        (final.validateBitmap, final)

def selfTest (pmm : PhysicalFrameAllocator) : Bool × PhysicalFrameAllocator :=
  if !pmm.validateBitmap then (false, pmm)
  else
    let test := pmm.allocateFrame
    match test.1 with
    | none => (false, test.2)
    | some addr =>
        let freed := test.2.freeFrame addr
        if !test.2.validateBitmap then (false, freed.2)
        else
          match freed.1 with
          | .error _ => (false, freed.2)
          | .ok () => freed.2.selfTestFreed addr

def releaseFrame (pmm : PhysicalFrameAllocator) (frame : Nat) : PhysicalFrameAllocator :=
  if pmm.isFrameReserved frame then pmm.markFrameFree frame else pmm

end PhysicalFrameAllocator

structure PhysicalMemoryManager where
  frameAllocator : PhysicalFrameAllocator
  memoryMap : List MemoryRegion
  reservedRegions : List ReservedRegion

namespace PhysicalMemoryManager

def new (bitmap : Bitmap 8) (totalMemoryBytes : Nat) : PhysicalMemoryManager :=
  { frameAllocator := .new bitmap totalMemoryBytes
    memoryMap := []
    reservedRegions := [] }

def computeStatistics (manager : PhysicalMemoryManager) : PhysicalMemoryManager :=
  let sums := manager.memoryMap.foldl (fun sums region =>
    if region.regionType.isUsable then (wrap64 (sums.1 + region.size), sums.2)
    else (sums.1, wrap64 (sums.2 + region.size))) (0, 0)
  { manager with frameAllocator := manager.frameAllocator.updateStatistics sums.1 sums.2 }

def reserveRegion (manager : PhysicalMemoryManager) (region : ReservedRegion) :
    Option PhysicalMemoryManager :=
  region.region.end?.map fun stop =>
    { manager with
      reservedRegions := manager.reservedRegions ++ [region]
      frameAllocator := manager.frameAllocator.reserveRange region.region.base stop }

/-- The frames of a usable region that are marked free; the end is rounded outward. -/
def releaseRegion (manager : PhysicalMemoryManager) (entry : MemoryRegion) :
    Option PhysicalMemoryManager :=
  entry.end?.map fun stop =>
    let startFrame := entry.base.asU64 / frameSize
    let endFrame := (stop.asU64 + frameSize - 1) / frameSize
    let cappedEnd := min endFrame manager.frameAllocator.totalFrames
    { manager with
      frameAllocator := (List.range' startFrame (cappedEnd - startFrame)).foldl
        PhysicalFrameAllocator.releaseFrame manager.frameAllocator }

def addEntry (manager : PhysicalMemoryManager) (entry : MemoryRegion) :
    Option PhysicalMemoryManager :=
  let recorded := { manager with memoryMap := manager.memoryMap ++ [entry] }
  if entry.isUsable then recorded.releaseRegion entry
  else recorded.reserveRegion { region := entry, purpose := entry.regionType.asStr }

def finishMemmap (manager : PhysicalMemoryManager) : PhysicalMemoryManager :=
  let reserved := { manager with
    frameAllocator := manager.frameAllocator.initStandardReservations.recalculateNextFree }
  let counted := reserved.computeStatistics
  { counted with
    memoryMap := counted.memoryMap.mergeSort fun left right => left.base.asU64 ≤ right.base.asU64 }

def initFromMemmap (manager : PhysicalMemoryManager) (entries : List MemoryRegion) :
    Option PhysicalMemoryManager :=
  (entries.foldlM addEntry manager).map finishMemmap

def buildMemoryMap (manager : PhysicalMemoryManager) : PhysicalMemoryManager :=
  let extended := manager.memoryMap ++ manager.reservedRegions.map (·.region)
  { manager with
    memoryMap := extended.mergeSort fun left right => left.base.asU64 ≤ right.base.asU64 }

/-- The warning that `init` prints when the self-test fails is left out. -/
def init (manager : PhysicalMemoryManager) : PhysicalMemoryManager :=
  let reserved := { manager with
    frameAllocator := manager.frameAllocator.initStandardReservations }
  let counted := reserved.buildMemoryMap.computeStatistics
  { counted with frameAllocator := counted.frameAllocator.selfTest.2 }

def validate (manager : PhysicalMemoryManager) : Bool := manager.frameAllocator.validateBitmap

end PhysicalMemoryManager

end ArcadiaOs.Memory
