import ArcadiaOs.Process.Opening

/-!
Launch and exit together.  The walk that frees the address space meets the stacks, which
are freed again afterwards, and it never frees a table.
-/

namespace ArcadiaOs.Process

open Lib Memory PhysicalFrameAllocator

def exitingProcess (kernel : Kernel) : Option ProcessControlBlock :=
  (runningSlot kernel).bind fun slot => kernel.processTable[slot]?

/-- The free frames are those of before the launch, and each frame the launch has taken is freed
exactly once. -/
structure Conserved (before launched : Kernel) (proc : ProcessControlBlock) (exited : Kernel) :
    Prop where
  frames : ∀ frame, exited.pmm.isFrameReserved frame = before.pmm.isFrameReserved frame
  once : ∀ frame, before.pmm.isFrameReserved frame = false →
    launched.pmm.isFrameReserved frame = true →
    ((exitFrees launched.memory proc).map (· / frameSize)).count frame = 1
  counter : exited.pmm.stats.doubleFreeAttempts = before.pmm.stats.doubleFreeAttempts

theorem freeUserPageTables_reaches {memory : Memory} {pml4 page frame table3 table2 table1 : Nat}
    (leads : Leads memory pml4 page frame table3 table2 table1) (lower : p4Index page < 256) :
    frame ∈ freeUserPageTables memory 4 pml4 := by
  have step : ∀ {level table index next : Nat}, Open (entryAt memory (table + 8 * index)) next →
      (index < if level + 1 = 4 then 256 else 512) → 0 < level →
      frame ∈ freeUserPageTables memory level next →
      frame ∈ freeUserPageTables memory (level + 1) table := by
    intro level table index next entry bound inner member
    rw [freeUserPageTables, List.mem_flatMap]
    refine ⟨index, List.mem_range.mpr bound, ?_⟩
    have same : tableEntry memory table index = entryAt memory (table + 8 * index) := rfl
    simp only [same, entry.present, entry.small, entry.addr, Bool.not_true, Bool.false_eq_true,
      if_false, gt_iff_lt, Nat.lt_add_left_iff_pos, inner, if_true]
    exact member
  have last : frame ∈ freeUserPageTables memory 1 table1 := by
    rw [freeUserPageTables, List.mem_flatMap]
    refine ⟨p1Index page, List.mem_range.mpr (p1Index_lt page), ?_⟩
    have same : tableEntry memory table1 (p1Index page) = entryAt memory (slot1 table1 page) := rfl
    simp [same, leads.entry1.present, leads.entry1.small, leads.entry1.addr]
  refine step leads.entry4 lower (by decide) ?_
  refine step leads.entry3 (p3Index_lt page) (by decide) ?_
  exact step leads.entry2 (p2Index_lt page) (by decide) last

section Launch

variable {kernel launched : Kernel} {slot : Nat} {pml4 : PhysAddr}

theorem exitFrees_twice {memory : Memory} {proc : ProcessControlBlock} {frame : Nat}
    (space : proc.pml4Phys ≠ 0) (walked : frame ∈ freeUserPageTables memory 4 proc.pml4Phys)
    (stack : proc.userStackPhys = frame) (some : frame ≠ 0) :
    2 ≤ ((exitFrees memory proc).map (· / frameSize)).count (frame / frameSize) := by
  have once : 1 ≤ ((freeProcessAddressSpace memory proc.pml4Phys).map (· / frameSize)).count
      (frame / frameSize) := by
    rw [freeProcessAddressSpace, if_neg space]
    refine List.count_pos_iff.mpr (List.mem_map.mpr ⟨frame, ?_, rfl⟩)
    exact List.mem_append_left _ walked
  have again : (([frame] : List Nat).map (· / frameSize)).count (frame / frameSize) = 1 := by
    simp
  rw [exitFrees, stack, if_pos some, List.map_append, List.map_append, List.count_append,
    List.count_append]
  omega

/-- Without a PML4 the walk is left out, and a PML4 in frame 0 is taken for none. -/
theorem exitFrees_never {memory : Memory} {proc : ProcessControlBlock}
    (space : proc.pml4Phys = 0) (userStack : proc.userStackPhys / frameSize ≠ 0)
    (kernelStack : proc.kernelStackPhys / frameSize ≠ 0) :
    ((exitFrees memory proc).map (· / frameSize)).count 0 = 0 := by
  refine List.count_eq_zero.mpr fun member => ?_
  obtain ⟨phys, freed, frame⟩ := List.mem_map.mp member
  rw [exitFrees, freeProcessAddressSpace, if_pos space, List.nil_append, List.mem_append] at freed
  rcases freed with stack | stack
  · split at stack
    · rw [List.mem_singleton] at stack
      exact userStack (stack ▸ frame)
    · cases stack
  · split at stack
    · rw [List.mem_singleton] at stack
      exact kernelStack (stack ▸ frame)
    · cases stack

end Launch

/-- No life of a process conserves the frames. -/
theorem lifecycle_not_conserved {mapTo : MapTo} (documented : mapTo.Documented) (elfData : ElfData)
    (kernel launched : Kernel) (level : Nat → Nat) (proc : ProcessControlBlock) (code : Nat)
    (sound : kernel.pmm.NextFreeSound) (half : KernelHalf level kernel)
    (done : launchInitProcess mapTo elfData kernel = .ok () launched)
    (running : runningSlot launched = unusedSlot kernel)
    (exiting : exitingProcess launched = some proc) :
    ¬Conserved kernel launched proc (stateOf (exitProcess code launched)) := by
  obtain ⟨elfInfo, _, _, parsed, _⟩ := launchInitProcess_ok done
  obtain ⟨slot, pml4, before, free, given, levelStacked, levelTopped, stacked, topped, userStack,
    kernelStack, finished⟩ := launch_finished (fun pml4 => bothLevels level pml4.asU64) documented
      (fun _ _ given => half.opened_space given sound) parsed (fun _ _ _ _ => Half.covers_all)
      Half.covers_all Half.covers_all done
  have granted := allocateFrame_granted given
  have number : pml4.asU64 / frameSize = kernel.pmm.nextFree := granted.frame
  have next : kernel.pmm.nextFree < (opened kernel slot pml4).pmm.nextFree := granted.next
  have grown := finished.grows.grown
  have later := finished.growsTopped.grown
  obtain ⟨rsp, process⟩ := finished.process
  rw [exitingProcess, running, free, Option.bind_some, process, Option.some.injEq] at exiting
  have space : proc.pml4Phys = pml4.asU64 := by rw [← exiting]
  have stackOf : proc.userStackPhys = userStack.asU64 := by rw [← exiting]
  have topOf : proc.kernelStackPhys = kernelStack.asU64 := by rw [← exiting]
  intro conserved
  by_cases zero : pml4.asU64 = 0
  · have first : kernel.pmm.nextFree = 0 := by rw [← number, zero, Nat.zero_div]
    have taken : launched.pmm.isFrameReserved 0 = true := by
      have root : (opened kernel slot pml4).pmm.isFrameReserved (pml4.asU64 / 4096) = true :=
        opened_root_reserved given
      rw [zero, Nat.zero_div] at root
      rw [finished.pmm]
      exact later.reserved _ (grown.reserved _ root)
    have never := conserved.once 0 (first ▸ sound.free granted.bound) taken
    have top := (allocateFrame_granted finished.given).frame
    have up := finished.fresh.2
    have above := grown.nextFree
    rw [exitFrees_never (space.trans zero) (by rw [stackOf, frameSize]; omega)
      (by rw [topOf]; omega)] at never
    cases never
  · obtain ⟨part, table3, table2, table1, covered, holds⟩ := finished.stack
    obtain rfl : part = .lower := by
      cases part with
      | lower => rfl
      | upper => exact absurd (show 256 ≤ 255 from covered) (by decide)
    have low : Low levelStacked .lower stacked :=
      (opened_low given rfl : Low (bothLevels level pml4.asU64) .lower _).grows finished.grows
    have walked := freeUserPageTables_reaches (finished.leads low.apart holds.reaches) (by decide)
    have up := finished.fresh.2
    have before : kernel.pmm.isFrameReserved (userStack.asU64 / frameSize) = false := by
      by_contra reserved
      have held := (allocateFrame_grown kernel.pmm).reserved _ (by simpa using reserved)
      have free := finished.fresh.1
      rw [show (opened kernel slot pml4).pmm = kernel.pmm.allocateFrame.2 from rfl,
        show userStack.asU64 / 4096 = userStack.asU64 / frameSize from rfl, held] at free
      cases free
    have taken : launched.pmm.isFrameReserved (userStack.asU64 / frameSize) = true := by
      rw [finished.pmm]
      exact later.reserved _ holds.reserved
    have once := conserved.once _ before taken
    rw [← space] at walked zero
    have twice := exitFrees_twice zero walked stackOf (by omega)
    omega

theorem lifecycle_frees_stack_twice :
    ∃ launched proc, launchInitProcess offsetPageTable oneByteElf (idleKernel 20) = .ok () launched ∧
      runningSlot launched = unusedSlot (idleKernel 20) ∧ exitingProcess launched = some proc ∧
      2 ≤ ((exitFrees launched.memory proc).map (· / frameSize)).count 9 ∧
      ¬Conserved (idleKernel 20) launched proc (stateOf (exitProcess 0 launched)) := by
  have run : returnsWith (fun launched =>
      runningSlot launched == unusedSlot (idleKernel 20) &&
        (exitingProcess launched).any (fun proc =>
          proc.pml4Phys == 0x4000 && proc.userStackPhys == 0x9000) &&
        launched.memory.readU64 (slot4 0x4000 0x7FFFFFFFD000) == 0xA007 &&
        launched.memory.readU64 (slot3 0xA000 0x7FFFFFFFD000) == 0xB007 &&
        launched.memory.readU64 (slot2 0xB000 0x7FFFFFFFD000) == 0xC007 &&
        launched.memory.readU64 (slot1 0xC000 0x7FFFFFFFD000) == 0x9007 &&
        launched.pmm.isFrameReserved 9)
      (launchInitProcess offsetPageTable oneByteElf (idleKernel 20)) = true := by decide +kernel
  have free : (idleKernel 20).pmm.isFrameReserved 9 = false := by decide
  obtain ⟨_, launched, done, checked⟩ := returnsWith_ok run
  simp only [Bool.and_eq_true, beq_iff_eq] at checked
  obtain ⟨⟨⟨⟨⟨⟨running, exiting⟩, entry4⟩, entry3⟩, entry2⟩, entry1⟩, taken⟩ := checked
  obtain ⟨proc, found, fields⟩ := (Option.any_eq_true _ _).mp exiting
  simp only [Bool.and_eq_true, beq_iff_eq] at fields
  obtain ⟨space, stack⟩ := fields
  have leads : Leads launched.memory 0x4000 0x7FFFFFFFD000 0x9000 0xA000 0xB000 0xC000 := by
    refine ⟨?_, ?_, ?_, ?_⟩
    · rw [entryAt, entry4]
      exact ⟨by decide, by decide, by decide, by decide⟩
    · rw [entryAt, entry3]
      exact ⟨by decide, by decide, by decide, by decide⟩
    · rw [entryAt, entry2]
      exact ⟨by decide, by decide, by decide, by decide⟩
    · rw [entryAt, entry1]
      exact ⟨by decide, by decide, by decide, by decide⟩
  have walked := freeUserPageTables_reaches leads (by decide)
  rw [← space] at walked
  have twice := exitFrees_twice (by rw [space]; decide) walked stack (by decide)
  refine ⟨launched, proc, done, running, found, twice, fun conserved => ?_⟩
  have once := conserved.once 9 free taken
  rw [show 0x9000 / frameSize = 9 from rfl, once] at twice
  omega

theorem lifecycle_not_conserved_idle :
    ∃ launched proc, launchInitProcess offsetPageTable oneByteElf (idleKernel 20) = .ok () launched ∧
      exitingProcess launched = some proc ∧
      ¬Conserved (idleKernel 20) launched proc (stateOf (exitProcess 7 launched)) := by
  have run : returnsWith (fun launched =>
      runningSlot launched == unusedSlot (idleKernel 20) && (exitingProcess launched).isSome)
      (launchInitProcess offsetPageTable oneByteElf (idleKernel 20)) = true := by decide +kernel
  obtain ⟨_, launched, done, checked⟩ := returnsWith_ok run
  simp only [Bool.and_eq_true, beq_iff_eq] at checked
  obtain ⟨proc, found⟩ := Option.isSome_iff_exists.mp checked.2
  exact ⟨launched, proc, done, found, lifecycle_not_conserved offsetPageTable_documented oneByteElf
    (idleKernel 20) launched idleLevel proc 7 (idleKernel_sound 20) (idleKernel_half 20) done
    checked.1 found⟩

end ArcadiaOs.Process
