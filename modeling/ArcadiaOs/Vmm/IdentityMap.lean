import ArcadiaOs.Memory.BootFrames
import ArcadiaOs.Process.ProcessTable
import ArcadiaOs.Vmm.Regions

/-!
The frames that the kernel writes at their physical addresses.  Pages are cleared and page
tables are filled through the identity map: the first 6 MiB of `boot64.asm`, and what the
memory manager was asked to map to itself.
-/

namespace ArcadiaOs.Vmm

open Lib Memory Process PhysicalFrameAllocator

/-- What takes frames, gives them back or changes the kernel's tables. -/
inductive KernelCall
  | allocatePage
  | mapUserPage (pml4 virt phys flags : Nat)
  | launch (elfData : ElfData)
  | exit (code : Nat)
  | physmem (call : PmmCall)
  | vmm (request : VmmRequest)

/-- `allocate_page` with `zero_page` behind it. -/
def allocateCleared : Launch Unit := do
  match ← allocatePage with
  | some phys => zeroPage phys
  | none => pure ()

/-- The frames that the action takes are cleared, or become page tables. -/
def System.writing (system : System) (action : Launch Unit) : System :=
  let kernel := stateOf (action system.kernel)
  { system with kernel, identityWrites := system.identityWrites ++ system.newWrites kernel.pmm }

def KernelCall.run (userMapTo : MapTo) (mapper : Mapper) (system : System) : KernelCall → System
  | .allocatePage => system.writing allocateCleared
  | .mapUserPage pml4 virt phys flags =>
      system.writing (Process.mapUserPage userMapTo pml4 virt phys flags)
  | .launch elfData => system.writing (launchInitProcess userMapTo elfData)
  | .exit code => { system with kernel := stateOf (exitProcess code system.kernel) }
  | .physmem call =>
      { system with kernel := { system.kernel with pmm := (system.kernel.pmm.step call).2 } }
  | .vmm request => stateOf (request.run mapper system)

def kernelMachine (userMapTo : MapTo) (mapper : Mapper) : Machine System KernelCall Unit where
  step system call := ((), call.run userMapTo mapper system)

def IdentityWrite.Reaches (write : IdentityWrite) : Prop :=
  write.pageTable.translate write.address = some write.address

/-- A region of the manager maps the frame to itself. -/
def IdentityWrite.Recorded (write : IdentityWrite) : Prop :=
  ∃ region ∈ write.mappedRegions, region.flags.present = true ∧
    region.contains write.address = true ∧
    region.physicalAddr / region.size * region.size = region.virtualAddr

def bootFrames : Nat := 0x600

def LowMapped (table : PageTable 4) : Prop :=
  ∀ virt < bootFrames * frameSize, table.leaf virt = some ⟨virt / 2 ^ 21 * 2 ^ 21, 2 ^ 21⟩

/-- Through the tables of a write, its frame is tracked and the first 6 MiB are where they were. -/
structure Written (totalFrames : Nat) (write : IdentityWrite) : Prop where
  tracked : write.address < totalFrames * frameSize
  fits : Matches write.mappedRegions write.pageTable
  low : LowMapped write.pageTable

structure Logged (totalFrames : Nat) (system : System) : Prop where
  total : system.kernel.pmm.totalFrames = totalFrames
  fits : Matches system.vmm.mappedRegions system.vmm.pageTable
  low : LowMapped system.vmm.pageTable
  writes : ∀ write ∈ system.identityWrites, Written totalFrames write

section Write

variable {totalFrames : Nat} {write : IdentityWrite} (written : Written totalFrames write)
include written

theorem Written.reaches_low (low : write.address < bootFrames * frameSize) : write.Reaches := by
  have parts := Nat.div_add_mod' write.address (2 ^ 21)
  rw [IdentityWrite.Reaches, PageTable.translate, written.low _ low]
  exact congrArg some parts

theorem Written.reaches_iff (small : totalFrames ≤ maxTrackedFrames) :
    write.Reaches ↔ write.Recorded := by
  have tracked := written.tracked
  simp only [maxTrackedFrames, frameSize] at small tracked
  have inner : Inner write.address :=
    ⟨by simp only [canonical, Bool.or_eq_true, decide_eq_true_eq]; omega, by omega⟩
  constructor
  · intro reaches
    obtain ⟨leaf, leads, place⟩ := Option.map_eq_some_iff.mp reaches
    obtain ⟨region, member, covered, block⟩ :=
      written.fits.complete _ _ (blockAt_some.mpr ⟨inner, leads, rfl⟩)
    refine ⟨region, member, covered.2.1, covered.2.2, ?_⟩
    rw [MappedRegion.block, Prod.mk.injEq] at block
    obtain ⟨start, same⟩ := block
    have addr : region.physicalAddr / region.size * region.size = leaf.addr := congrArg Leaf.addr same
    have parts := Nat.div_add_mod' write.address leaf.size
    rw [start, addr]
    omega
  · rintro ⟨region, member, present, contains, same⟩
    obtain ⟨_, leads, start⟩ :=
      blockAt_some.mp (written.fits.sound region member write.address ⟨inner, present, contains⟩)
    have parts := Nat.div_add_mod' write.address region.size
    simp only at leads start
    rw [start] at parts
    rw [IdentityWrite.Reaches, PageTable.translate, leads, same]
    exact congrArg some parts

end Write

section Keep

variable {totalFrames : Nat} {system : System}

theorem Logged.newWrites (logged : Logged totalFrames system) (pmm : PhysicalFrameAllocator) :
    ∀ write ∈ system.identityWrites ++ system.newWrites pmm, Written totalFrames write := by
  intro write member
  rcases List.mem_append.mp member with old | new
  · exact logged.writes write old
  · obtain ⟨frame, handed, rfl⟩ := List.mem_map.mp new
    have inside := List.mem_range.mp (List.mem_filter.mp handed).1
    rw [logged.total] at inside
    exact ⟨Nat.mul_lt_mul_of_pos_right inside (by decide), logged.fits, logged.low⟩

theorem LowMapped.same {table table' : PageTable 4} (low : LowMapped table)
    (leaves : ∀ virt, table'.leaf virt = table.leaf virt) : LowMapped table' :=
  fun virt below => (leaves virt).trans (low virt below)

theorem LowMapped.page {table table' : PageTable 4} (low : LowMapped table) {page : Nat}
    {leaf after : Option Leaf} (held : table.leaf page = leaf)
    (other : ∀ start, leaf ≠ some ⟨start, 2 ^ 21⟩)
    (leaves : ∀ virt, table'.leaf virt = if SamePage 4 virt page then after else table.leaf virt) :
    LowMapped table' := by
  intro virt below
  rw [leaves, if_neg]
  · exact low virt below
  · intro same
    rw [← table.leaf_congr same, low virt below] at held
    exact other _ held.symm

theorem Logged.stable {mapper : Mapper} {tables : PageTable 4 → Prop}
    (documented : mapper.Documented tables fun _ => True) (totalFrames : Nat) :
    Stable mapper (fun _ _ => True) fun system =>
      tables system.vmm.pageTable ∧ Logged totalFrames system := by
  have grown : ∀ table pmm page frame flags,
      (mapper.mapTo table pmm page frame flags).2.2.totalFrames = pmm.totalFrames := by
    intro table pmm page frame flags
    obtain ⟨count, _, took⟩ := documented.allocates table pmm page frame flags
    rw [took]
    exact (allocations_grown count pmm).total
  constructor
  · rintro system virt phys flags description table' pmm' ⟨inside, logged⟩ _ aligned physAligned done
    obtain ⟨unused, leaves⟩ :=
      documented.maps _ _ _ _ _ _ _ inside trivial aligned physAligned phys.inBounds done
    have total := grown system.vmm.pageTable system.kernel.pmm virt.asU64 phys.asU64 flags
    rw [done] at total
    refine ⟨documented.mapTo_inside inside trivial aligned physAligned phys.inBounds done, ?_⟩
    constructor
    · exact total.trans logged.total
    · exact logged.fits.record aligned virt.isCanonical physAligned description unused leaves
    · exact logged.low.page unused nofun leaves
    · exact logged.newWrites pmm'
  · rintro system virt phys flags reason table' pmm' ⟨inside, logged⟩ _ aligned physAligned done
    have leaves :=
      documented.refuses _ _ _ _ _ _ _ _ inside trivial aligned physAligned phys.inBounds done
    have total := grown system.vmm.pageTable system.kernel.pmm virt.asU64 phys.asU64 flags
    rw [done] at total
    refine ⟨documented.mapTo_inside inside trivial aligned physAligned phys.inBounds done, ?_⟩
    exact ⟨total.trans logged.total, logged.fits.same leaves, logged.low.same leaves,
      logged.newWrites pmm'⟩
  · rintro system virt phys table' ⟨inside, logged⟩ aligned done
    obtain ⟨mapped, leaves⟩ := documented.unmaps _ _ _ _ done
    refine ⟨documented.unmap_inside inside done, ?_⟩
    constructor
    · exact logged.total
    · exact logged.fits.forget aligned virt.isCanonical mapped leaves
    · refine logged.low.page mapped (fun start same => ?_) leaves
      rw [Option.some.injEq, Leaf.mk.injEq] at same
      exact absurd same.2 (by decide)
    · exact logged.writes
  · rintro system virt reason table' ⟨inside, logged⟩ done
    have leaves := documented.keeps _ _ _ _ done
    refine ⟨documented.unmap_inside inside done, ?_⟩
    exact ⟨logged.total, logged.fits.same leaves, logged.low.same leaves, logged.writes⟩
  · rintro system ⟨inside, logged⟩
    exact ⟨inside, logged.total, logged.fits, logged.low, logged.writes⟩

def SameTotal (before after : Kernel) : Prop := after.pmm.totalFrames = before.pmm.totalFrames

theorem SameTotal.trans (before middle after : Kernel) (first : SameTotal before middle)
    (second : SameTotal middle after) : SameTotal before after := Eq.trans second first

theorem freePages_total (frees : List Nat) : Along SameTotal (freePages frees) := by
  induction frees with
  | nil => exact fun kernel => rfl
  | cons phys rest ih =>
      intro kernel
      rw [freePages]
      cases PhysAddr.new? phys with
      | none => rfl
      | some addr =>
          have freed : (kernel.pmm.freeFrame addr).2.totalFrames = kernel.pmm.totalFrames :=
            totalFrames_step kernel.pmm (.freeFrame addr)
          exact Eq.trans (ih { kernel with pmm := (kernel.pmm.freeFrame addr).2 }) freed

theorem exitProcess_total (code : Nat) : Along SameTotal (exitProcess code) := by
  intro kernel
  simp only [exitProcess]
  cases runningSlot kernel with
  | none => rfl
  | some slot =>
      cases found : kernel.processTable[slot]? with
      | none =>
          simp only [found]
          rfl
      | some proc =>
          simp only [found]
          have finishes : Along SameTotal (do
              freePages (exitFrees kernel.memory proc)
              modify fun kernel => { kernel with currentPid := 0 } : Launch Unit) :=
            .bind SameTotal.trans (freePages_total _) fun _ => .modify fun kernel => rfl
          exact finishes { kernel with
            processTable := kernel.processTable.set slot
              { proc with
                state := .exited
                exitCode := code
                kernelRsp := 0
                kernelStackPhys := 0
                userStackPhys := 0 } }

variable {userMapTo : MapTo} (userDocumented : userMapTo.Documented)
include userDocumented

theorem launchInitProcess_total (elfData : ElfData) :
    Along SameTotal (launchInitProcess userMapTo elfData) := by
  intro kernel
  rcases (Takes.rule userDocumented).launch elfData kernel with
    ⟨stop, after, ran, takes⟩ | ⟨slot, middle, ran, _, takes⟩
  · rw [ran]
    exact takes.total
  · rw [ran]
    exact takes.total

theorem mapUserPage_total (pml4 virt phys flags : Nat) :
    Along SameTotal (Process.mapUserPage userMapTo pml4 virt phys flags) := fun kernel =>
  ((Takes.rule userDocumented).mapUserPage pml4 virt phys flags kernel).total

omit userDocumented in
theorem allocateCleared_pmm (kernel : Kernel) :
    (stateOf (allocateCleared kernel)).pmm = kernel.pmm.allocateFrame.2 := by
  rw [allocateCleared, bind_apply, allocatePage]
  generalize kernel.pmm.allocateFrame = taken
  obtain ⟨frame, pmm⟩ := taken
  cases frame with
  | none => rfl
  | some frame => rfl

omit userDocumented in
theorem Logged.writing (logged : Logged totalFrames system) {action : Launch Unit}
    (same : Along SameTotal action) : Logged totalFrames (system.writing action) where
  total := Eq.trans (same system.kernel) logged.total
  fits := logged.fits
  low := logged.low
  writes := logged.newWrites _

variable {mapper : Mapper} {tables : PageTable 4 → Prop}
  (documented : mapper.Documented tables fun _ => True)
include documented

theorem Logged.step (inside : tables system.vmm.pageTable) (logged : Logged totalFrames system)
    (call : KernelCall) : tables (call.run userMapTo mapper system).vmm.pageTable ∧
      Logged totalFrames (call.run userMapTo mapper system) := by
  cases call with
  | allocatePage =>
      refine ⟨inside, logged.writing fun kernel => ?_⟩
      rw [SameTotal, allocateCleared_pmm]
      exact (allocateFrame_grown kernel.pmm).total
  | mapUserPage pml4 virt phys flags =>
      exact ⟨inside, logged.writing (mapUserPage_total userDocumented pml4 virt phys flags)⟩
  | launch elfData =>
      exact ⟨inside, logged.writing (launchInitProcess_total userDocumented elfData)⟩
  | exit code =>
      exact ⟨inside, Eq.trans (exitProcess_total code system.kernel) logged.total, logged.fits,
        logged.low, logged.writes⟩
  | physmem call =>
      exact ⟨inside, (totalFrames_step system.kernel.pmm call).trans logged.total, logged.fits,
        logged.low, logged.writes⟩
  | vmm request =>
      refine (Logged.stable documented totalFrames).request ⟨inside, logged⟩ ?_
      cases request <;> simp only [VmmRequest.Uses, implies_true]

theorem Logged.run (inside : tables system.vmm.pageTable) (logged : Logged totalFrames system)
    (calls : List KernelCall) :
    Logged totalFrames ((kernelMachine userMapTo mapper).final system calls) :=
  ((kernelMachine userMapTo mapper).final_invariant
    (fun system => tables system.vmm.pageTable ∧ Logged totalFrames system) (fun _ _ => True)
    (fun _ call here _ => here.2.step userDocumented documented here.1 call) system calls
    ⟨inside, logged⟩ ((kernelMachine userMapTo mapper).meets_trivial system calls)).2

end Keep

/-! The first frame behind the boot mapping is handed out where there is one. -/

section Reach

variable (userMapTo : MapTo) (mapper : Mapper)

theorem run_allocations (system : System) (count : Nat) :
    ((kernelMachine userMapTo mapper).final system (List.replicate count .allocatePage)).vmm = system.vmm ∧
      ((kernelMachine userMapTo mapper).final system
        (List.replicate count .allocatePage)).kernel.pmm = allocations count system.kernel.pmm := by
  induction count generalizing system with
  | zero => exact ⟨rfl, rfl⟩
  | succ count ih =>
      obtain ⟨vmm, pmm⟩ := ih (system.writing allocateCleared)
      rw [List.replicate_succ, Machine.final_cons]
      refine ⟨vmm, pmm.trans ?_⟩
      rw [allocations]
      exact congrArg (allocations count) (allocateCleared_pmm system.kernel)

theorem free_frame_written (system : System) (sound : system.kernel.pmm.NextFreeSound)
    (lowest : system.kernel.pmm.NextFreeLowest) {frame : Nat}
    (free : system.kernel.pmm.isFrameReserved frame = false) :
    ∃ count, { address := frame * frameSize
               pageTable := system.vmm.pageTable
               mappedRegions := system.vmm.mappedRegions : IdentityWrite } ∈
      ((kernelMachine userMapTo mapper).final system
        (List.replicate count .allocatePage)).identityWrites := by
  obtain ⟨count, reached⟩ := allocations_reach sound lowest free
  obtain ⟨vmm, pmm⟩ := run_allocations userMapTo mapper system count
  refine ⟨count + 1, ?_⟩
  rw [List.replicate_succ', Machine.final_append, Machine.final_cons, Machine.final_nil]
  generalize (kernelMachine userMapTo mapper).final system (List.replicate count .allocatePage) = before at *
  have tracked := lt_of_free free
  have total := (allocations_grown count system.kernel.pmm).total
  have soundBefore := allocations_sound count sound
  rw [← pmm] at reached total soundBefore
  rcases before.kernel.pmm.allocateFrame_spec with ⟨full, _⟩ | ⟨bound, _, _, reserved, _⟩
  · omega
  refine List.mem_append_right _ (List.mem_map.mpr ⟨frame, ?_, by rw [vmm]⟩)
  rw [handedOut, List.mem_filter, List.mem_range, total, allocateCleared_pmm, reserved,
    decide_eq_true reached.symm, ← reached, soundBefore.free bound, reached]
  exact ⟨tracked, rfl⟩

end Reach

section Boot

variable {memory : Memory}

theorem bootTables_low (memory : Memory) : LowMapped (bootTables memory) := by
  intro virt below
  simp only [bootFrames, frameSize] at below
  rw [bootTables_leaf, if_pos (by omega), Nat.mod_eq_of_lt (show virt / 2 ^ 21 < 512 by omega)]

theorem bootTables_high (memory : Memory) :
    (bootTables memory).translate (bootFrames * frameSize) = none := by
  rw [PageTable.translate, bootTables_leaf]
  rfl

/-- The kernel behind its boot: the allocator after `init`, and the manager on the boot tables. -/
structure Booted (bitmap : Bitmap 8) (totalMemoryBytes : Nat) (memory : Memory) (system : System) :
    Prop where
  pmm : system.kernel.pmm = bootAllocator bitmap totalMemoryBytes
  vmm : VirtualMemoryManager.init (bootTables memory) = some system.vmm
  identityWrites : system.identityWrites = []

variable {bitmap : Bitmap 8} {totalMemoryBytes : Nat} {system : System}
  (booted : Booted bitmap totalMemoryBytes memory system)
include booted

theorem Booted.pageTable : system.vmm.pageTable = bootTables memory := by
  rw [(init_discovered booted.vmm).1]
  rfl

theorem Booted.logged : Logged (bootAllocator bitmap totalMemoryBytes).totalFrames system where
  total := by rw [booted.pmm]
  fits := (discovered_tracked booted.vmm).fits
  low := by
    rw [booted.pageTable]
    exact bootTables_low memory
  writes := by
    rw [booted.identityWrites]
    exact nofun

theorem Booted.high_written (userMapTo : MapTo) (mapper : Mapper)
    (large : bootFrames < (bootAllocator bitmap totalMemoryBytes).totalFrames) :
    ∃ count, ∃ write ∈ ((kernelMachine userMapTo mapper).final system
        (List.replicate count .allocatePage)).identityWrites,
      write.address = bootFrames * frameSize ∧ ¬write.Reaches := by
  have lowest : system.kernel.pmm.NextFreeLowest := by
    rw [booted.pmm]
    exact (bootAllocator_first bitmap totalMemoryBytes
      (Nat.le_of_lt (Nat.lt_of_le_of_lt (by decide) large))).1
  have sound : system.kernel.pmm.NextFreeSound := by
    rw [booted.pmm]
    exact bootAllocator_sound bitmap totalMemoryBytes
  have free : system.kernel.pmm.isFrameReserved bootFrames = false := by
    rw [booted.pmm, Bool.eq_false_iff, ne_eq, bootAllocator_reserved bitmap totalMemoryBytes large]
    decide
  obtain ⟨count, member⟩ := free_frame_written userMapTo mapper system sound lowest free
  refine ⟨_, _, member, rfl, fun reaches => ?_⟩
  rw [IdentityWrite.Reaches, booted.pageTable, bootTables_high] at reaches
  cases reaches

end Boot

/-- Every frame that is written is reached, in every run, exactly when the boot tables map all the
memory that is tracked; in any run a frame is reached exactly when a region of the manager maps it
to itself. -/
theorem identity_writes_iff {userMapTo : MapTo} (userDocumented : userMapTo.Documented)
    {mapper : Mapper} {tables : PageTable 4 → Prop}
    (documented : mapper.Documented tables fun _ => True) (bitmap : Bitmap 8) (totalMemoryBytes : Nat)
    (memory : Memory) (inside : tables (bootTables memory)) (system : System) (booted : Booted bitmap totalMemoryBytes memory system) :
    ((∀ calls, ∀ write ∈ ((kernelMachine userMapTo mapper).final system calls).identityWrites,
      write.Reaches) ↔ (bootAllocator bitmap totalMemoryBytes).totalFrames ≤ bootFrames) ∧
    ∀ calls, ∀ write ∈ ((kernelMachine userMapTo mapper).final system calls).identityWrites,
      write.Reaches ↔ write.Recorded := by
  have logged := booted.logged.run userDocumented documented (booted.pageTable ▸ inside)
  refine ⟨⟨fun reaches => ?_, fun small calls write member => ?_⟩, fun calls write member => ?_⟩
  · by_contra large
    obtain ⟨count, write, member, _, lost⟩ :=
      booted.high_written userMapTo mapper (Nat.lt_of_not_le large)
    exact lost (reaches _ write member)
  · have written := (logged calls).writes write member
    exact written.reaches_low (Nat.lt_of_lt_of_le written.tracked (Nat.mul_le_mul_right _ small))
  · exact ((logged calls).writes write member).reaches_iff
      (bootAllocator bitmap totalMemoryBytes).totalBound

def bootedSystem (totalMemoryBytes : Nat) : System where
  kernel :=
    { memory := bootMemory fun _ => 0
      pmm := bootAllocator (fun _ => 0#8) totalMemoryBytes
      processTable := List.replicate maxProcesses emptyProcess
      currentPid := 0
      kernelPml4Phys := ⟨0x1000, PhysAddr.page_inBounds⟩ }
  vmm := .discovered (bootTables fun _ => 0)
  identityWrites := []

theorem bootedSystem_booted (totalMemoryBytes : Nat) :
    Booted (fun _ => 0#8) totalMemoryBytes (fun _ => 0) (bootedSystem totalMemoryBytes) where
  pmm := rfl
  vmm := bootTables_init _
  identityWrites := rfl

theorem identity_writes_small : (bootAllocator (fun _ => 0#8) 0x400000).totalFrames ≤ bootFrames ∧
    ∀ calls, ∀ write ∈ ((kernelMachine offsetPageTable treeMapper).final (bootedSystem 0x400000)
      calls).identityWrites, write.Reaches := by
  have small : (bootAllocator (fun _ => 0#8) 0x400000).totalFrames ≤ bootFrames := by
    rw [bootAllocator_total]
    decide
  exact ⟨small, (identity_writes_iff offsetPageTable_documented treeMapper_documented _ 0x400000 _
    (bootTables_tidy _) _ (bootedSystem_booted 0x400000)).1.mpr small⟩

/-- With 16 MiB, `allocate_page` gets to the first frame behind the boot mapping, which nothing maps. -/
theorem unmapped_frame_cleared : ∃ count, ∃ write ∈
    ((kernelMachine offsetPageTable treeMapper).final (bootedSystem 0x1000000)
      (List.replicate count .allocatePage)).identityWrites,
      write.address = 0x600000 ∧ ¬write.Reaches := by
  refine (bootedSystem_booted 0x1000000).high_written offsetPageTable treeMapper ?_
  rw [bootAllocator_total]
  decide

end ArcadiaOs.Vmm
