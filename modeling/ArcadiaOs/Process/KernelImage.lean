import ArcadiaOs.Process.Placement
import ArcadiaOs.Vmm.PageTable

/-!
The kernel image under the tables of a process.  It is linked at 1 MiB, behind entry 0 of
the PML4, and a new PML4 takes over the entries 256 to 511 only.
-/

namespace ArcadiaOs.Process

open Lib Memory PhysicalFrameAllocator Vmm

/-- Where `linker.ld` starts the image. -/
def imageStart : Nat := 0x100000

def ImageKept (kernel launched : Kernel) (pml4 bssEnd : Nat) : Prop :=
  ∀ addr, imageStart ≤ addr → addr < bssEnd →
    (PageTable.read launched.memory 4 pml4).translate addr =
      (PageTable.read kernel.memory 4 kernel.kernelPml4Phys.asU64).translate addr

theorem OwnedTables.leaf {owned covers : Nat → Prop} {level : Nat → Nat} {pml4 virt : Nat}
    {memory memory' : Memory} {pmm : PhysicalFrameAllocator}
    (mine : OwnedTables owned covers level pml4 memory) (tables : Tables covers level pml4 memory pmm)
    (covered : covers (tableIndex 3 virt))
    (same : ∀ table height, level table ≠ 0 → height < 4 →
      tableEntry memory' table (tableIndex height virt) = tableEntry memory table (tableIndex height virt))
    {height table : Nat} {found : Leaf} (known : level table = height + 1) (low : height < 4)
    (leads : (PageTable.read memory' (height + 1) table).leaf virt = some found) :
    owned found.addr ∧ found.size = 4096 := by
  have root := (tables.root pml4).mpr rfl
  induction height generalizing table with
  | zero =>
      have entry := mine table (tableIndex 0 virt) (by omega) (tableIndex_lt 0 virt) fun top => by
        rw [top] at known
        omega
      rw [PageTable.leaf_read, same table 0 (by omega) low] at leads
      split at leads
      · cases leads
      rename_i present
      rw [Bool.not_eq_true', Bool.not_eq_false] at present
      rw [if_pos (by rfl), Option.some.injEq] at leads
      rcases entry with unused | ⟨_, last⟩
      · exact absurd unused (PageTableEntry.bits_ne_zero present)
      · have start : (tableEntry memory table (tableIndex 0 virt)).addr / pageSize 0 * pageSize 0 =
            (tableEntry memory table (tableIndex 0 virt)).addr :=
          Nat.div_mul_cancel (Nat.dvd_mul_left _ _)
        rw [← leads, start]
        exact ⟨last known, rfl⟩
  | succ height ih =>
      have scope : table = pml4 → covers (tableIndex (height + 1) virt) := by
        intro top
        rw [top, root] at known
        obtain rfl : height = 2 := by omega
        exact covered
      have bound := tableIndex_lt (height + 1) virt
      have entry := mine table _ (by omega) bound scope
      have typed := tables.entries table _ (by omega) bound scope
      rw [PageTable.leaf_read, same table (height + 1) (by omega) low] at leads
      split at leads
      · cases leads
      rename_i present
      rw [Bool.not_eq_true', Bool.not_eq_false] at present
      rcases entry with unused | ⟨small, _⟩
      · exact absurd unused (PageTableEntry.bits_ne_zero present)
      have inner : mapsPage (height + 1) (tableEntry memory table (tableIndex (height + 1) virt)) = false := by
        rw [mapsPage, show (tableEntry memory table (tableIndex (height + 1) virt)).hugePage = false from small]
        simp
      rw [inner, if_neg Bool.false_ne_true] at leads
      refine ih ?_ (by omega) leads
      rcases typed with unused | ⟨_, huge | next⟩
      · exact absurd unused (PageTableEntry.bits_ne_zero present)
      · rw [small] at huge
        cases huge
      · change level (tableEntry memory table (tableIndex (height + 1) virt)).addr + 1 = _ at next
        omega

section Launch

variable {mapTo : MapTo} (documented : mapTo.Documented) {elfData : ElfData} {level : Nat → Nat}
  {kernel launched : Kernel} {proc : ProcessControlBlock}
include documented

/-- In the lower half a launched process reaches frames that were free, except behind the entries
that the frame on its kernel stack may have overwritten. -/
theorem launched_owned (sound : kernel.pmm.NextFreeSound) (half : KernelHalf level kernel)
    (done : launchInitProcess mapTo elfData kernel = .ok () launched)
    (process : launchedProcess kernel launched = some proc) {virt : Nat} (lower : virt < 2 ^ 47)
    (clear : ∀ height < 4, tableIndex height virt < 492) {found : Leaf}
    (leads : (PageTable.read launched.memory 4 proc.pml4Phys).leaf virt = some found) :
    kernel.pmm.isFrameReserved (found.addr / 4096) = false ∧ found.size = 4096 := by
  obtain ⟨elfInfo, slot, pml4, _, free, given, run⟩ := launchInitProcess_ok done
  obtain ⟨before, slotFound⟩ := unusedSlot_found free
  have opening : (opened kernel slot pml4).processTable[slot]? =
      some { before with pml4Phys := pml4.asU64 } := by
    simp only [opened, List.getElem?_modify_eq, slotFound, Option.map_eq_map, Option.map_some]
  have started := opened_owned given slot sound half
  obtain ⟨loaded, stacked, topped, userStack, kernelStack, stages⟩ := launchFrom_stages run
  obtain ⟨_, _, finished⟩ := stages.finished documented started.space
    (fun _ _ _ _ => Half.covers_all) Half.covers_all Half.covers_all opening
  obtain ⟨levelTopped, owned⟩ := started.run documented (stages.places documented)
  have tables := owned.space.part .lower
  have root : proc.pml4Phys = pml4.asU64 := finished.pml4 free process
  rw [root] at leads
  refine owned.lower.leaf tables (p4Index_lower lower) ?_ (owned.space.root .lower) (by decide) leads
  intro table height known small
  have aligned := tables.aligned table known
  have alignedStack : kernelStack.asU64 % 4096 = 0 := (allocateFrame_granted finished.given).aligned
  have below := clear height small
  have read : launched.memory.readU64 (table + 8 * tableIndex height virt) =
      topped.memory.readU64 (table + 8 * tableIndex height virt) := by
    refine Memory.readU64_congr fun place above inside => finished.pushed place ?_
    rw [show kernelStackSize = 8192 from rfl]
    omega
  rw [tableEntry, read, tableEntry]

/-- No process that was launched reaches the kernel image. -/
theorem image_lost (elfData : ElfData) (kernel launched : Kernel) (proc : ProcessControlBlock)
    (level : Nat → Nat) (bssEnd : Nat) (sound : kernel.pmm.NextFreeSound)
    (half : KernelHalf level kernel) (some_image : imageStart < bssEnd)
    (held : kernel.pmm.isFrameReserved (imageStart / frameSize) = true)
    (identity : ∀ addr, imageStart ≤ addr → addr < bssEnd →
      (PageTable.read kernel.memory 4 kernel.kernelPml4Phys.asU64).translate addr = some addr)
    (done : launchInitProcess mapTo elfData kernel = .ok () launched)
    (process : launchedProcess kernel launched = some proc) :
    ¬ImageKept kernel launched proc.pml4Phys bssEnd := by
  intro kept
  have first := (kept imageStart (Nat.le_refl _) some_image).trans
    (identity imageStart (Nat.le_refl _) some_image)
  obtain ⟨found, leads, place⟩ := Option.map_eq_some_iff.mp first
  obtain ⟨free, size⟩ := launched_owned documented sound half done process
    (show imageStart < 2 ^ 47 by decide) (by decide) leads
  have here : found.addr = imageStart := by
    rw [size] at place
    exact place
  rw [here] at free
  exact absurd (held.symm.trans free) (by decide)

end Launch

/-- A machine behind its boot: the first 2 MiB are reserved, and the tables are those of
`boot64.asm`. -/
def bootedKernel : Kernel where
  memory := bootMemory fun _ => 0
  pmm := { new (fun _ => 0#8) (0x220 * 4096) with
    bitmap := fun index => if index < 0x40 then 0xFF#8 else 0#8
    allocatedFrames := 0x200
    nextFree := 0x200 }
  processTable := [idleProcess]
  currentPid := 0
  kernelPml4Phys := ⟨0x1000, PhysAddr.page_inBounds⟩

theorem bootedKernel_sound : bootedKernel.pmm.NextFreeSound where
  bound := by decide
  free := by decide

theorem bootedKernel_half : KernelHalf (rootLevel 0x1000) bootedKernel := by
  refine ⟨fun table => ?_, fun table index high bound scope => ?_, fun table known => ?_,
    fun table known => ?_, bootedKernel_sound⟩
  · constructor
    · intro four
      exact rootLevel_known (show rootLevel 0x1000 table ≠ 0 by omega)
    · rintro rfl
      rfl
  · obtain rfl := rootLevel_known (show rootLevel 0x1000 table ≠ 0 by omega)
    have upper := scope rfl
    refine .inl (bootMemory_unused _ (by omega) (by omega) (by omega) ?_)
    simp only [bootEntries, List.forall_mem_cons, List.not_mem_nil, IsEmpty.forall_iff, implies_true,
      and_true]
    omega
  · rw [rootLevel_known known]
  · rw [rootLevel_known known]
    decide

theorem bootedKernel_identity (addr : Nat) (below : addr < 0x600000) :
    (PageTable.read bootedKernel.memory 4 bootedKernel.kernelPml4Phys.asU64).translate addr = some addr := by
  change (Vmm.bootTables fun _ => 0).translate addr = some addr
  rw [PageTable.translate, bootTables_leaf, if_pos (by omega), Option.map_some]
  simp only [Option.some.injEq]
  omega

theorem bootedKernel_runs : ∃ launched, ∃ proc : ProcessControlBlock,
    launchInitProcess offsetPageTable oneByteElf bootedKernel = .ok () launched ∧
      launchedProcess bootedKernel launched = some proc ∧
      (PageTable.read launched.memory 4 proc.pml4Phys).translate imageStart = none := by
  have run : returnsWith (fun launched =>
      (launchedProcess bootedKernel launched).any fun proc : ProcessControlBlock =>
        (PageTable.read launched.memory 4 proc.pml4Phys).translate imageStart == none)
      (launchInitProcess offsetPageTable oneByteElf bootedKernel) = true := by decide +kernel
  obtain ⟨_, launched, done, checked⟩ := returnsWith_ok run
  obtain ⟨proc, process, unmapped⟩ := (Option.any_eq_true _ _).mp checked
  exact ⟨launched, proc, done, process, beq_iff_eq.mp unmapped⟩

theorem image_lost_booted : ∃ launched, ∃ proc : ProcessControlBlock,
    launchInitProcess offsetPageTable oneByteElf bootedKernel = .ok () launched ∧
      ¬ImageKept bootedKernel launched proc.pml4Phys 0x200000 := by
  obtain ⟨launched, proc, done, process, _⟩ := bootedKernel_runs
  exact ⟨launched, proc, done, image_lost offsetPageTable_documented oneByteElf bootedKernel launched
    proc (rootLevel 0x1000) 0x200000 bootedKernel_sound bootedKernel_half (by decide) (by decide)
    (fun addr _ below => bootedKernel_identity addr (by omega)) done process⟩

/-- The first byte of the image is not mapped at all. -/
theorem launch_unmaps_image : ∃ launched, ∃ proc : ProcessControlBlock,
    launchInitProcess offsetPageTable oneByteElf bootedKernel = .ok () launched ∧
      launchedProcess bootedKernel launched = some proc ∧
      (∀ addr, imageStart ≤ addr → addr < 0x200000 →
        (PageTable.read bootedKernel.memory 4 bootedKernel.kernelPml4Phys.asU64).translate addr =
          some addr) ∧
      (PageTable.read launched.memory 4 proc.pml4Phys).translate imageStart = none ∧
      ¬ImageKept bootedKernel launched proc.pml4Phys 0x200000 := by
  obtain ⟨launched, proc, done, process, unmapped⟩ := bootedKernel_runs
  refine ⟨launched, proc, done, process, fun addr _ below => bootedKernel_identity addr (by omega),
    unmapped, fun kept => ?_⟩
  have first := kept imageStart (Nat.le_refl _) (by decide)
  rw [unmapped, bootedKernel_identity imageStart (by decide)] at first
  cases first

end ArcadiaOs.Process
