import ArcadiaOs.Process.Launched
import ArcadiaOs.Process.OffsetPageTable

/-!
The new PML4.  Its lower half is empty; its upper half is the kernel's, whose tables lie
in reserved frames.
-/

namespace ArcadiaOs.Process

open Lib Memory PhysicalFrameAllocator

inductive Half
  | lower | upper
  deriving DecidableEq

def Half.covers : Half → Nat → Prop
  | .lower, index => index < 256
  | .upper, index => 256 ≤ index

/-- The tables of the kernel's half, below the kernel's PML4. -/
def KernelHalf (level : Nat → Nat) (kernel : Kernel) : Prop :=
  Tables (256 ≤ ·) level kernel.kernelPml4Phys.asU64 kernel.memory kernel.pmm

def rootLevel (pml4 : Nat) : Nat → Nat := fun table => if table = pml4 then 4 else 0

def sharedLevel (level : Nat → Nat) (pml4 : Nat) : Nat → Nat := fun table =>
  if table = pml4 then 4 else if level table < 4 then level table else 0

theorem rootLevel_known {pml4 table : Nat} (known : rootLevel pml4 table ≠ 0) : table = pml4 := by
  by_contra other
  exact known (if_neg other)

theorem opened_memory (kernel : Kernel) (slot : Nat) (pml4 : PhysAddr) :
    (opened kernel slot pml4).memory = (kernel.memory.fill pml4.asU64 4096 0).copy
      (kernel.kernelPml4Phys.asU64 + 256 * 8) (pml4.asU64 + 256 * 8) (256 * 8) := rfl

section Opened

variable {kernel : Kernel} {slot : Nat} {pml4 : PhysAddr}
  (given : kernel.pmm.allocateFrame.1 = some pml4)
include given

theorem opened_other {place : Nat} (other : place / 4096 ≠ pml4.asU64 / 4096) :
    (opened kernel slot pml4).memory place = kernel.memory place := by
  have aligned : pml4.asU64 % 4096 = 0 := (allocateFrame_granted given).aligned
  rw [opened_memory, Memory.copy_other (by omega), Memory.fill_other (by omega)]

omit given in
theorem opened_lower {index : Nat} (lower : index < 256) :
    (opened kernel slot pml4).memory.readU64 (pml4.asU64 + 8 * index) = 0 :=
  Memory.readU64_zero fun place above below => by
    rw [opened_memory, Memory.copy_other (by omega), Memory.fill_inside (by omega) (by omega)]

theorem opened_upper {index : Nat} (upper : 256 ≤ index) (bound : index < 512)
    (apart : kernel.kernelPml4Phys.asU64 % 4096 = 0 ∧
      kernel.kernelPml4Phys.asU64 ≠ pml4.asU64) :
    (opened kernel slot pml4).memory.readU64 (pml4.asU64 + 8 * index) =
      kernel.memory.readU64 (kernel.kernelPml4Phys.asU64 + 8 * index) := by
  have aligned : pml4.asU64 % 4096 = 0 := (allocateFrame_granted given).aligned
  obtain ⟨kernelAligned, different⟩ := apart
  refine Memory.readU64_moved fun offset inside => ?_
  have copied : 8 * (index - 256) + offset < 256 * 8 := by omega
  have target : pml4.asU64 + 8 * index + offset =
      pml4.asU64 + 256 * 8 + (8 * (index - 256) + offset) := by omega
  rw [opened_memory, target, Memory.copy_inside copied, Memory.fill_other (by omega)]
  congr 1
  omega

theorem opened_root_reserved :
    (opened kernel slot pml4).pmm.isFrameReserved (pml4.asU64 / 4096) = true := by
  have granted := allocateFrame_granted given
  rw [show pml4.asU64 / 4096 = kernel.pmm.nextFree from granted.frame]
  exact granted.reserved

theorem opened_tables : Tables (· < 256) (rootLevel pml4.asU64) pml4.asU64
    (opened kernel slot pml4).memory (opened kernel slot pml4).pmm := by
  have granted := allocateFrame_granted given
  refine ⟨fun table => ?_, fun table index high bound scope => ?_, fun table known => ?_,
    fun table known => ?_, granted.sound⟩
  · constructor
    · intro four
      exact rootLevel_known (by omega)
    · rintro rfl
      exact if_pos rfl
  · obtain rfl := rootLevel_known (show rootLevel pml4.asU64 table ≠ 0 by omega)
    left
    exact opened_lower (scope rfl)
  · rw [rootLevel_known known]
    exact granted.aligned
  · rw [rootLevel_known known]
    exact opened_root_reserved given

theorem opened_low {ι : Type} {level : ι → Nat → Nat} {part : ι}
    (root : level part = rootLevel pml4.asU64) : Low level part (opened kernel slot pml4) := by
  intro table known
  have granted := allocateFrame_granted given
  rw [root] at known
  rw [rootLevel_known known, show pml4.asU64 / 4096 = kernel.pmm.nextFree from granted.frame]
  exact granted.next

theorem opened_space : Space (fun _ index => index < 256) (fun _ : Unit => rootLevel pml4.asU64)
    pml4.asU64 (opened kernel slot pml4) where
  part := fun _ => opened_tables given
  divided := fun _ _ _ _ _ => rfl
  apart := fun _ _ _ different => absurd rfl different

variable {level : Nat → Nat} (sound : kernel.pmm.NextFreeSound) (half : KernelHalf level kernel)
include half sound

theorem KernelHalf.apart {table : Nat} (known : level table ≠ 0) :
    table / 4096 ≠ pml4.asU64 / 4096 := by
  intro same
  have granted := allocateFrame_granted given
  have reserved := half.reserved table known
  rw [same, show pml4.asU64 / 4096 = kernel.pmm.nextFree from granted.frame,
    sound.free granted.bound] at reserved
  cases reserved

theorem KernelHalf.root_apart : kernel.kernelPml4Phys.asU64 % 4096 = 0 ∧
    kernel.kernelPml4Phys.asU64 ≠ pml4.asU64 := by
  have root : level kernel.kernelPml4Phys.asU64 = 4 := (half.root _).mpr rfl
  have known : level kernel.kernelPml4Phys.asU64 ≠ 0 := by omega
  exact ⟨half.aligned _ known, fun same => half.apart given sound known (by rw [same])⟩

omit given sound half in
theorem sharedLevel_known {pml4 table : Nat} (known : sharedLevel level pml4 table ≠ 0) :
    table = pml4 ∨ table ≠ pml4 ∧ sharedLevel level pml4 table = level table ∧ level table < 4 ∧
      level table ≠ 0 := by
  by_cases top : table = pml4
  · exact .inl top
  · rw [sharedLevel, if_neg top] at known
    by_cases low : level table < 4
    · rw [if_pos low] at known
      exact .inr ⟨top, by rw [sharedLevel, if_neg top, if_pos low], low, known⟩
    · rw [if_neg low] at known
      exact absurd rfl known

theorem KernelHalf.typed {height : Nat} {entry : PageTableEntry} (low : 2 ≤ height)
    (high : height ≤ 4) (typed : Typed level height entry) :
    Typed (sharedLevel level pml4.asU64) height entry := by
  rcases typed with unused | ⟨held, huge | next⟩
  · exact .inl unused
  · exact .inr ⟨held, .inl huge⟩
  · have known : level entry.addr ≠ 0 := by omega
    have other : entry.addr ≠ pml4.asU64 := fun same =>
      half.apart given sound known (by rw [same])
    refine .inr ⟨held, .inr ?_⟩
    rw [sharedLevel, if_neg other, if_pos (by omega)]
    exact next

theorem KernelHalf.opened_tables : Tables (256 ≤ ·) (sharedLevel level pml4.asU64) pml4.asU64
    (opened kernel slot pml4).memory (opened kernel slot pml4).pmm := by
  have granted := allocateFrame_granted given
  refine ⟨fun table => ?_, fun table index high bound scope => ?_, fun table known => ?_,
    fun table known => ?_, granted.sound⟩
  · constructor
    · intro four
      rcases sharedLevel_known (show sharedLevel level pml4.asU64 table ≠ 0 by omega) with
        top | ⟨_, same, low, _⟩
      · exact top
      · omega
    · rintro rfl
      exact if_pos rfl
  · rcases sharedLevel_known (show sharedLevel level pml4.asU64 table ≠ 0 by omega) with
      rfl | ⟨other, same, low, known⟩
    · have root : sharedLevel level pml4.asU64 pml4.asU64 = 4 := if_pos rfl
      have top : level kernel.kernelPml4Phys.asU64 = 4 := (half.root _).mpr rfl
      have entry := half.entries kernel.kernelPml4Phys.asU64 index (by omega) bound
        fun _ => scope rfl
      rw [entryAt, opened_upper given (scope rfl) bound (half.root_apart given sound), root]
      rw [entryAt, top] at entry
      exact half.typed given sound (by omega) (by omega) entry
    · have aligned := half.aligned table known
      have frame := half.apart given sound known
      have read : (opened kernel slot pml4).memory.readU64 (table + 8 * index) =
          kernel.memory.readU64 (table + 8 * index) :=
        Memory.readU64_congr fun place above below => opened_other given (by omega)
      have entry := half.entries table index (by omega) bound fun top => by
        rw [top, (half.root _).mpr rfl] at low
        omega
      rw [entryAt, read, same]
      exact half.typed given sound (by omega) (by omega) entry
  · rcases sharedLevel_known known with rfl | ⟨_, _, _, old⟩
    · exact granted.aligned
    · exact half.aligned table old
  · rcases sharedLevel_known known with rfl | ⟨_, _, _, old⟩
    · exact opened_root_reserved given
    · exact (allocateFrame_grown kernel.pmm).reserved _ (half.reserved table old)

def bothLevels (level : Nat → Nat) (pml4 : Nat) : Half → Nat → Nat
  | .lower => rootLevel pml4
  | .upper => sharedLevel level pml4

theorem KernelHalf.opened_space : Space Half.covers (bothLevels level pml4.asU64) pml4.asU64
    (opened kernel slot pml4) where
  part := fun part => by
    cases part with
    | lower => exact ArcadiaOs.Process.opened_tables given
    | upper => exact half.opened_tables given sound
  divided := fun part other index covered also => by
    cases part <;> cases other <;> simp only [Half.covers] at covered also <;>
      first | rfl | omega
  apart := fun part other table different top known => by
    cases part with
    | lower => exact absurd (rootLevel_known known) top
    | upper =>
        cases other with
        | lower => exact if_neg top
        | upper => exact absurd rfl different

end Opened

theorem Half.covers_all {index : Nat} : ∃ part, Half.covers part index := by
  by_cases low : index < 256
  · exact ⟨.lower, low⟩
  · exact ⟨.upper, Nat.le_of_not_lt low⟩

theorem p4Index_upper {addr : Nat} (high : 2 ^ 47 ≤ addr) (canon : canonical addr = true) :
    256 ≤ p4Index addr := by
  simp only [canonical, Bool.or_eq_true, Bool.and_eq_true, decide_eq_true_eq] at canon
  simp only [p4Index]
  omega

theorem p4Index_lower {addr : Nat} (low : addr < 2 ^ 47) : p4Index addr < 256 := by
  simp only [p4Index]
  omega

theorem unusedSlot_found {kernel : Kernel} {slot : Nat} (free : unusedSlot kernel = some slot) :
    ∃ proc, kernel.processTable[slot]? = some proc := by
  obtain ⟨bound, _⟩ := List.findIdx?_eq_some_iff_getElem.mp free
  exact ⟨_, List.getElem?_eq_getElem bound⟩

/-- A launch that returned has gone through its stages, over any division of the new PML4. -/
theorem launch_finished {ι : Type} [DecidableEq ι] {covers : ι → Nat → Prop}
    (level : PhysAddr → ι → Nat → Nat) {mapTo : MapTo} (documented : mapTo.Documented)
    {elfData : ElfData} {elfInfo : ElfLoadInfo} {kernel launched : Kernel}
    (space : ∀ slot pml4, kernel.pmm.allocateFrame.1 = some pml4 →
      Space covers (level pml4) pml4.asU64 (opened kernel slot pml4))
    (parsed : parseElf elfData = .ok elfInfo)
    (covered : ∀ seg ∈ elfInfo.segments, ∀ pageIdx < seg.pageCount,
      ∃ part, covers part (p4Index (seg.virt pageIdx)))
    (ends : ∃ part, covers part 255) (starts : ∃ part, covers part 0)
    (done : launchInitProcess mapTo elfData kernel = .ok () launched) :
    ∃ slot pml4, ∃ before : ProcessControlBlock, unusedSlot kernel = some slot ∧
      kernel.pmm.allocateFrame.1 = some pml4 ∧
      ∃ levelStacked levelTopped stacked topped userStack kernelStack,
        Finished covers pml4.asU64 (level pml4) (opened kernel slot pml4) elfData elfInfo slot
          { before with pml4Phys := pml4.asU64 } launched levelStacked levelTopped stacked topped
          userStack kernelStack := by
  obtain ⟨info, slot, pml4, parse, free, given, run⟩ := launchInitProcess_ok done
  obtain rfl : info = elfInfo := by
    rw [parsed] at parse
    injection parse with same
    exact same.symm
  obtain ⟨before, found⟩ := unusedSlot_found free
  have opening : (opened kernel slot pml4).processTable[slot]? =
      some { before with pml4Phys := pml4.asU64 } := by
    simp only [opened, List.getElem?_modify_eq, found, Option.map_eq_map, Option.map_some]
  obtain ⟨loaded, stacked, topped, userStack, kernelStack, stages⟩ := launchFrom_stages run
  obtain ⟨levelStacked, levelTopped, finished⟩ :=
    stages.finished documented (space slot pml4 given) covered ends starts opening
  exact ⟨slot, pml4, before, free, given, levelStacked, levelTopped, stacked, topped, userStack,
    kernelStack, finished⟩

def launchedProcess (kernel launched : Kernel) : Option ProcessControlBlock :=
  (unusedSlot kernel).bind fun slot => launched.processTable[slot]?

theorem Finished.pml4 {ι : Type} {covers : ι → Nat → Prop} {pml4 : Nat} {level : ι → Nat → Nat}
    {elfData : ElfData} {elfInfo : ElfLoadInfo} {slot : Nat} {kernel before launched : Kernel}
    {proc proc' : ProcessControlBlock} {levelStacked levelTopped : ι → Nat → Nat}
    {stacked topped : Kernel} {userStack kernelStack : PhysAddr}
    (finished : Finished covers pml4 level kernel elfData elfInfo slot proc launched levelStacked
      levelTopped stacked topped userStack kernelStack)
    (free : unusedSlot before = some slot) (process : launchedProcess before launched = some proc') :
    proc'.pml4Phys = proc.pml4Phys := by
  obtain ⟨rsp, final⟩ := finished.process
  rw [launchedProcess, free, Option.bind_some, final, Option.some.injEq] at process
  rw [← process]

def idleLevel : Nat → Nat := fun table =>
  if table = 0x1000 then 4 else if table = 0x2000 then 3 else 0

theorem idleLevel_known {table : Nat} (known : idleLevel table ≠ 0) :
    table = 0x1000 ∨ table = 0x2000 := by
  by_cases top : table = 0x1000
  · exact .inl top
  · by_cases next : table = 0x2000
    · exact .inr next
    · rw [idleLevel, if_neg top, if_neg next] at known
      exact absurd rfl known

theorem idleKernel_reserved (frames : Nat) {frame : Nat} (low : frame < 4) :
    (idleKernel frames).pmm.isFrameReserved frame = true := by
  refine (((new (fun _ => 0#8) ((4 + frames) * 4096)).reserveRange_spec ⟨0, by decide⟩
    ⟨0x4000, by decide⟩).2.1 frame).trans ?_
  simp only [frameSize, Nat.zero_div, Nat.zero_le, true_and]
  rw [decide_eq_true (by omega), Bool.true_or]

theorem idleMemory_unused {slot : Nat} (first : slot ≤ 0x1FF0 ∨ 0x2000 ≤ slot)
    (second : slot ≤ 0x2FE8 ∨ 0x2FF8 ≤ slot) : idleMemory.readU64 slot = 0 := by
  refine (readU64_writes_other _ fun write member => ?_).trans
    (Memory.readU64_zero fun _ _ _ => rfl)
  simp only [List.mem_cons, List.not_mem_nil, or_false] at member
  rcases member with rfl | rfl
  · simp only
    omega
  · simp only
    omega

theorem idleMemory_root : Typed idleLevel 4 (entryAt idleMemory 0x1FF8) := by
  right
  decide

theorem idleMemory_page : Typed idleLevel 3 (entryAt idleMemory 0x2FF0) := by
  right
  decide

theorem idleKernel_half (frames : Nat) : KernelHalf idleLevel (idleKernel frames) := by
  refine ⟨fun table => ?_, fun table index high bound scope => ?_, fun table known => ?_,
    fun table known => ?_, idleKernel_sound frames⟩
  · constructor
    · intro four
      rcases idleLevel_known (show idleLevel table ≠ 0 by omega) with rfl | rfl
      · rfl
      · cases four
    · rintro rfl
      rfl
  · rcases idleLevel_known (show idleLevel table ≠ 0 by omega) with rfl | rfl
    · by_cases last : index = 511
      · subst last
        exact idleMemory_root
      · left
        exact idleMemory_unused (by omega) (by omega)
    · by_cases page : index = 510
      · subst page
        exact idleMemory_page
      · left
        exact idleMemory_unused (by omega) (by omega)
  · rcases idleLevel_known known with rfl | rfl <;> decide
  · rcases idleLevel_known known with rfl | rfl
    · exact idleKernel_reserved frames (by decide)
    · exact idleKernel_reserved frames (by decide)

end ArcadiaOs.Process
