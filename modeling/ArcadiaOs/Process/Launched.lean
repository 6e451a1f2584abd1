import ArcadiaOs.Process.Loading
import ArcadiaOs.Process.Stages

/-!
A launch that returned, from its new PML4 to the frame on its kernel stack.
-/

namespace ArcadiaOs.Process

open Lib Memory PhysicalFrameAllocator

def opened (kernel : Kernel) (slot : Nat) (pml4 : PhysAddr) : Kernel :=
  { kernel with
    memory := (kernel.memory.fill pml4.asU64 4096 0).copy
      (kernel.kernelPml4Phys.asU64 + 256 * 8) (pml4.asU64 + 256 * 8) (256 * 8)
    pmm := kernel.pmm.allocateFrame.2
    processTable := kernel.processTable.modify slot fun proc => { proc with pml4Phys := pml4.asU64 } }

theorem createUserPageTables_ok {kernel kernel' : Kernel} {pml4 : Nat}
    (done : createUserPageTables kernel = .ok (some pml4) kernel') :
    ∃ frame, kernel.pmm.allocateFrame.1 = some frame ∧ pml4 = frame.asU64 ∧
      kernel' = { kernel with
        memory := (kernel.memory.fill frame.asU64 4096 0).copy
          (kernel.kernelPml4Phys.asU64 + 256 * 8) (frame.asU64 + 256 * 8) (256 * 8)
        pmm := kernel.pmm.allocateFrame.2 } := by
  rw [createUserPageTables] at done
  obtain ⟨taken, middle, took, done⟩ := bind_ok.mp done
  cases taken with
  | none =>
      obtain ⟨same, _⟩ := pure_ok.mp done
      cases same
  | some phys =>
      obtain ⟨frame, given, rfl, rfl⟩ := allocatePage_ok took
      obtain ⟨_, _, zeroed, done⟩ := bind_ok.mp done
      obtain rfl := modify_ok.mp zeroed
      obtain ⟨_, _, got, done⟩ := bind_ok.mp done
      injection got with same state
      subst same state
      obtain ⟨_, _, copied, done⟩ := bind_ok.mp done
      obtain rfl := modify_ok.mp copied
      obtain ⟨same, rfl⟩ := pure_ok.mp done
      injection same with same
      exact ⟨frame, given, same, rfl⟩

theorem launchIn_ok {mapTo : MapTo} {elfData : ElfData} {elfInfo : ElfLoadInfo} {slot : Nat}
    {kernel kernel' : Kernel} (done : launchIn mapTo elfData elfInfo slot kernel = .ok () kernel') :
    ∃ pml4, kernel.pmm.allocateFrame.1 = some pml4 ∧
      launchFrom mapTo elfData elfInfo slot pml4.asU64 (opened kernel slot pml4) =
        .ok () kernel' := by
  rw [launchIn] at done
  obtain ⟨pml4, middle, created, done⟩ := bind_ok.mp done
  obtain ⟨frame, given, rfl, rfl⟩ := createUserPageTables_ok (required_ok created)
  obtain ⟨_, _, updated, done⟩ := bind_ok.mp done
  obtain rfl := modify_ok.mp updated
  exact ⟨frame, given, done⟩

theorem launchInitProcess_ok {mapTo : MapTo} {elfData : ElfData} {kernel kernel' : Kernel}
    (done : launchInitProcess mapTo elfData kernel = .ok () kernel') :
    ∃ elfInfo slot pml4, parseElf elfData = .ok elfInfo ∧ unusedSlot kernel = some slot ∧
      kernel.pmm.allocateFrame.1 = some pml4 ∧
      launchFrom mapTo elfData elfInfo slot pml4.asU64 (opened kernel slot pml4) =
        .ok () kernel' := by
  cases parsed : parseElf elfData with
  | error stop =>
      rw [launch_rejected parsed] at done
      cases done
  | ok elfInfo =>
      cases free : unusedSlot kernel with
      | none =>
          rw [launch_full parsed free] at done
          cases done
      | some slot =>
          rw [launch_entered parsed free] at done
          obtain ⟨pml4, given, done⟩ := launchIn_ok done
          exact ⟨elfInfo, slot, pml4, rfl, rfl, given, done⟩

theorem pushValues_other {memory : Memory} {frame place : Nat} {values : List Nat}
    (room : 8 * values.length ≤ frame)
    (apart : place + 8 * values.length < frame ∨ frame ≤ place) :
    pushValues memory frame values place = memory place := by
  induction values generalizing memory frame with
  | nil => rfl
  | cons value rest ih =>
      rw [List.length_cons] at room apart
      rw [pushValues, ih (by omega) (by omega), Memory.writeU64_other (by omega)]

/-- The frame is written above the page of the stack: into the page behind it. -/
theorem buildInitialKernelStack_ok {slot : Nat} {kernel kernel' : Kernel}
    (done : buildInitialKernelStack slot kernel = .ok () kernel') {proc : ProcessControlBlock}
    (found : kernel.processTable[slot]? = some proc) :
    kernel'.pmm = kernel.pmm ∧
      kernel'.memory =
        pushValues kernel.memory (proc.kernelStackPhys + kernelStackSize) (initialFrame proc) ∧
      kernel'.processTable = kernel.processTable.modify slot fun old =>
        { old with
          kernelRsp := proc.kernelStackPhys + kernelStackSize - 8 * (initialFrame proc).length } := by
  rw [buildInitialKernelStack, found] at done
  injection done with _ state
  refine ⟨?_, ?_, ?_⟩
  · rw [← state]
  · rw [← state]
  · rw [← state]

def claimed (kernel : Kernel) (frame : PhysAddr) : Kernel :=
  { kernel with
    memory := kernel.memory.fill frame.asU64 4096 0
    pmm := kernel.pmm.allocateFrame.2 }

/-- The stages of a launch that returned, behind its new PML4: the segments are loaded, the user
stack and the kernel stack are mapped, and the frame is pushed. -/
structure Stages (mapTo : MapTo) (elfData : ElfData) (elfInfo : ElfLoadInfo) (slot pml4 : Nat)
    (kernel kernel' loaded stacked topped : Kernel) (userStack kernelStack : PhysAddr) : Prop where
  loads : loadSegments mapTo elfData pml4 elfInfo.segments kernel = .ok () loaded
  givenUser : loaded.pmm.allocateFrame.1 = some userStack
  mapsUser : mapUserPage mapTo pml4 (userStackTop - userStackSize) userStack.asU64
    (PageTableFlags.present + PageTableFlags.writable + PageTableFlags.userAccessible)
    (claimed loaded userStack) = .ok () stacked
  givenKernel : stacked.pmm.allocateFrame.1 = some kernelStack
  mapsKernel : mapUserPage mapTo pml4 kernelStack.asU64 kernelStack.asU64
    (PageTableFlags.present + PageTableFlags.writable)
    { claimed stacked kernelStack with
      processTable := (stacked.processTable.modify slot fun proc =>
        { proc with userStackPhys := userStack.asU64, userRsp := userStackTop }).modify slot fun proc =>
          { proc with
            kernelStackPhys := kernelStack.asU64
            kernelRsp := kernelStack.asU64 + kernelStackSize } } = .ok () topped
  builds : ∃ built, buildInitialKernelStack slot { topped with
      processTable := topped.processTable.modify slot fun proc =>
        { proc with elfEntry := elfInfo.entry } } = .ok () built ∧ kernel' = started slot built

theorem launchFrom_stages {mapTo : MapTo} {elfData : ElfData} {elfInfo : ElfLoadInfo}
    {slot pml4 : Nat} {kernel kernel' : Kernel}
    (done : launchFrom mapTo elfData elfInfo slot pml4 kernel = .ok () kernel') :
    ∃ loaded stacked topped userStack kernelStack,
      Stages mapTo elfData elfInfo slot pml4 kernel kernel' loaded stacked topped userStack
        kernelStack := by
  rw [launchFrom] at done
  obtain ⟨_, loaded, loads, done⟩ := bind_ok.mp done
  obtain ⟨stackPhys, taken, took, done⟩ := bind_ok.mp done
  obtain ⟨userStack, givenUser, rfl, rfl⟩ := allocatePage_ok (required_ok took)
  obtain ⟨_, _, zeroed, done⟩ := bind_ok.mp done
  obtain rfl := modify_ok.mp zeroed
  obtain ⟨_, stacked, mapsUser, done⟩ := bind_ok.mp done
  obtain ⟨_, _, updated, done⟩ := bind_ok.mp done
  obtain rfl := modify_ok.mp updated
  obtain ⟨topPhys, taken, took, done⟩ := bind_ok.mp done
  obtain ⟨kernelStack, givenKernel, rfl, rfl⟩ := allocatePage_ok (required_ok took)
  obtain ⟨_, _, zeroed, done⟩ := bind_ok.mp done
  obtain rfl := modify_ok.mp zeroed
  obtain ⟨_, _, updated, done⟩ := bind_ok.mp done
  obtain rfl := modify_ok.mp updated
  obtain ⟨_, topped, mapsKernel, done⟩ := bind_ok.mp done
  obtain ⟨_, _, updated, done⟩ := bind_ok.mp done
  obtain rfl := modify_ok.mp updated
  obtain ⟨_, built, builds, done⟩ := bind_ok.mp done
  obtain ⟨_, _, updated, done⟩ := bind_ok.mp done
  obtain rfl := modify_ok.mp updated
  obtain rfl := modify_ok.mp done
  exact ⟨loaded, stacked, topped, userStack, kernelStack, loads, givenUser, mapsUser, givenKernel,
    mapsKernel, built, builds, rfl⟩

section Process

variable {mapTo : MapTo} {elfData : ElfData} {elfInfo : ElfLoadInfo} {slot pml4 : Nat}
  {kernel kernel' loaded stacked topped : Kernel} {userStack kernelStack : PhysAddr}
  {proc : ProcessControlBlock}
  (stages : Stages mapTo elfData elfInfo slot pml4 kernel kernel' loaded stacked topped userStack
    kernelStack)
  (found : stacked.processTable[slot]? = some proc)
include stages found

theorem Stages.stacks : topped.processTable[slot]? = some { proc with
    userStackPhys := userStack.asU64
    userRsp := userStackTop
    kernelStackPhys := kernelStack.asU64
    kernelRsp := kernelStack.asU64 + kernelStackSize } := by
  obtain ⟨_, table, _⟩ := mapUserPage_ok stages.mapsKernel
  rw [table, List.getElem?_modify_eq, List.getElem?_modify_eq, found]
  rfl

theorem Stages.process : kernel'.processTable[slot]? = some { proc with
    userStackPhys := userStack.asU64
    userRsp := userStackTop
    kernelStackPhys := kernelStack.asU64
    kernelRsp := kernelStack.asU64 + kernelStackSize - 160
    elfEntry := elfInfo.entry
    state := .running } := by
  have here := stages.stacks found
  obtain ⟨built, builds, rfl⟩ := stages.builds
  obtain ⟨_, _, final⟩ := buildInitialKernelStack_ok builds
    (by rw [List.getElem?_modify_eq, here]; rfl)
  simp only [started, final, List.getElem?_modify_eq, here]
  rfl

end Process

section Finish

variable {ι : Type} [DecidableEq ι] {covers : ι → Nat → Prop} {level : ι → Nat → Nat} {pml4 : Nat}

/-- The stages of a launch behind its new PML4: `stacked` is the state with the segments and the user
stack, `topped` the one with the kernel stack too, before the frame is pushed. -/
structure Finished (covers : ι → Nat → Prop) (pml4 : Nat) (level : ι → Nat → Nat) (kernel : Kernel)
    (elfData : ElfData) (elfInfo : ElfLoadInfo) (slot : Nat) (proc : ProcessControlBlock)
    (kernel' : Kernel) (levelStacked levelTopped : ι → Nat → Nat) (stacked topped : Kernel)
    (userStack kernelStack : PhysAddr) : Prop where
  space : Space covers levelStacked pml4 stacked
  grows : Grows covers pml4 level kernel levelStacked stacked
  loaded : ∀ seg ∈ elfInfo.segments, ∀ pageIdx < seg.pageCount,
    Loaded covers levelStacked pml4 stacked elfData seg pageIdx
  fresh : kernel.pmm.isFrameReserved (userStack.asU64 / 4096) = false ∧
    kernel.pmm.nextFree ≤ userStack.asU64 / 4096
  stack : ∃ part table3 table2 table1, covers part 255 ∧
    Holds levelStacked part pml4 stacked (userStackTop - userStackSize) [] userStack.asU64
      table3 table2 table1
  given : stacked.pmm.allocateFrame.1 = some kernelStack
  spaceTopped : Space covers levelTopped pml4 topped
  growsTopped : Grows covers pml4 levelStacked stacked levelTopped topped
  pmm : kernel'.pmm = topped.pmm
  pushed : ∀ place, place + 160 < kernelStack.asU64 + kernelStackSize ∨
    kernelStack.asU64 + kernelStackSize ≤ place → kernel'.memory place = topped.memory place
  process : ∃ rsp, kernel'.processTable[slot]? = some { proc with
    userStackPhys := userStack.asU64
    userRsp := userStackTop
    kernelStackPhys := kernelStack.asU64
    kernelRsp := rsp
    elfEntry := elfInfo.entry
    state := .running }

theorem p4Index_low {addr : Nat} (low : addr < 2 ^ 39) : p4Index addr = 0 := by
  simp only [p4Index]
  omega

theorem PhysAddr_low {pmm : PhysicalFrameAllocator} {address : Nat} (granted : Granted pmm address) :
    address < 2 ^ 32 := by
  have total := pmm.totalBound
  have bound := granted.bound
  have place := granted.place
  simp only [maxTrackedFrames, frameSize] at total place
  omega

theorem Stages.finished {mapTo : MapTo} (documented : mapTo.Documented) {elfData : ElfData}
    {elfInfo : ElfLoadInfo} {slot : Nat} {kernel kernel' loaded stacked topped : Kernel}
    {userStack kernelStack : PhysAddr} {proc : ProcessControlBlock}
    (stages : Stages mapTo elfData elfInfo slot pml4 kernel kernel' loaded stacked topped userStack
      kernelStack)
    (space : Space covers level pml4 kernel)
    (covered : ∀ seg ∈ elfInfo.segments, ∀ pageIdx < seg.pageCount,
      ∃ part, covers part (p4Index (seg.virt pageIdx)))
    (ends : ∃ part, covers part 255) (starts : ∃ part, covers part 0)
    (found : kernel.processTable[slot]? = some proc) :
    ∃ levelStacked levelTopped, Finished covers pml4 level kernel elfData elfInfo slot proc kernel'
      levelStacked levelTopped stacked topped userStack kernelStack := by
  obtain ⟨partU, coversU⟩ := ends
  obtain ⟨partK, coversK⟩ := starts
  obtain ⟨level₁, loading, pages⟩ := loadSegments_ok documented space covered stages.loads
  have given := stages.givenUser
  have givenK := stages.givenKernel
  have grantedU := allocateFrame_granted given
  have alignedU : userStack.asU64 % 4096 = 0 := grantedU.aligned
  have numberU : userStack.asU64 / 4096 = loaded.pmm.nextFree := grantedU.frame
  obtain ⟨levelU, stepU, _, table3, table2, table1, holds⟩ := loading.space.place documented
    given stages.mapsUser rfl rfl
    (fun place other => Memory.fill_other (by omega))
    (fun offset inside => (Memory.fill_inside (by omega) (by omega)).trans
      (byteAt_beyond (show ([] : List UInt8).length ≤ offset from Nat.zero_le _)).symm)
    (show covers partU (p4Index (userStackTop - userStackSize)) from coversU)
    (by decide) (by decide) (by decide)
  have grantedK := allocateFrame_granted givenK
  have alignedK : kernelStack.asU64 % 4096 = 0 := grantedK.aligned
  have low := PhysAddr_low grantedK
  obtain ⟨levelK, spaceK, growsK, _⟩ := stepU.space.reserve documented givenK stages.mapsKernel
    rfl rfl (show covers partK (p4Index kernelStack.asU64) by rw [p4Index_low (by omega)]; exact coversK)
    (by decide) (by decide)
  have table : stacked.processTable[slot]? = some proc := by
    rw [stepU.processTable]
    exact (congrArg (·[slot]?) loading.processTable).trans found
  have here := stages.stacks table
  have process := stages.process table
  obtain ⟨built, builds, rfl⟩ := stages.builds
  obtain ⟨pmm, memory, _⟩ := buildInitialKernelStack_ok builds
    (by rw [List.getElem?_modify_eq, here]; rfl)
  refine ⟨levelU, levelK, stepU.space,
    loading.grows.trans stepU.grows, fun seg member pageIdx below =>
      (pages seg member pageIdx below).grows stepU.grows, ⟨?_, ?_⟩,
    ⟨partU, table3, table2, table1, coversU, holds⟩, givenK, spaceK, growsK, pmm, ?_, _, process⟩
  · rw [numberU]
    by_contra reserved
    have held := loading.grows.grown.reserved _ (by simpa using reserved)
    rw [(loading.space.sound partU).free grantedU.bound] at held
    cases held
  · rw [numberU]
    exact loading.grows.grown.nextFree
  · intro place apart
    have count : (initialFrame { proc with
        userStackPhys := userStack.asU64
        userRsp := userStackTop
        kernelStackPhys := kernelStack.asU64
        kernelRsp := kernelStack.asU64 + kernelStackSize
        elfEntry := elfInfo.entry }).length = 20 := by
      simp [initialFrame]
    have size : kernelStackSize = 8192 := by decide
    simp only [started, memory]
    refine pushValues_other ?_ ?_
    · rw [count, size]
      omega
    · rw [count, size]
      omega

variable {elfData : ElfData} {elfInfo : ElfLoadInfo} {slot : Nat} {kernel kernel' : Kernel}
  {proc : ProcessControlBlock} {levelStacked levelTopped : ι → Nat → Nat} {stacked topped : Kernel}
  {userStack kernelStack : PhysAddr}
  (finished : Finished covers pml4 level kernel elfData elfInfo slot proc kernel' levelStacked
    levelTopped stacked topped userStack kernelStack)
include finished

omit [DecidableEq ι] in
theorem Finished.behind {place : Nat} (other : place / 4096 ≠ stacked.pmm.nextFree + 1) :
    kernel'.memory place = topped.memory place := by
  have granted := allocateFrame_granted finished.given
  have number : kernelStack.asU64 / 4096 = stacked.pmm.nextFree := granted.frame
  have aligned : kernelStack.asU64 % 4096 = 0 := granted.aligned
  refine finished.pushed place ?_
  rw [show kernelStackSize = 8192 from rfl]
  omega

omit [DecidableEq ι] in
theorem Finished.leads {part : ι} {page frame table3 table2 table1 : Nat}
    (apart : ∀ table, levelStacked part table ≠ 0 → table / 4096 ≠ stacked.pmm.nextFree + 1)
    (reaches : Reaches levelStacked part pml4 stacked page frame table3 table2 table1) :
    Leads kernel'.memory pml4 page frame table3 table2 table1 := by
  have later := (reaches.grows finished.growsTopped).leads
  have same : ∀ {table index}, levelStacked part table ≠ 0 → index < 512 →
      kernel'.memory.readU64 (table + 8 * index) = topped.memory.readU64 (table + 8 * index) := by
    intro table index known bound
    have aligned := (finished.space.part part).aligned table known
    have other := apart table known
    exact Memory.readU64_congr fun place above inside => finished.behind (by omega)
  refine ⟨?_, ?_, ?_, ?_⟩
  · rw [entryAt, slot4, same reaches.top (p4Index_lt page)]
    exact later.entry4
  · rw [entryAt, slot3, same reaches.known3 (p3Index_lt page)]
    exact later.entry3
  · rw [entryAt, slot2, same reaches.known2 (p2Index_lt page)]
    exact later.entry2
  · rw [entryAt, slot1, same reaches.known1 (p1Index_lt page)]
    exact later.entry1

omit [DecidableEq ι] finished in
theorem Low.apart {part : ι} (low : Low level part kernel) (table : Nat)
    (known : level part table ≠ 0) : table / 4096 ≠ kernel.pmm.nextFree + 1 := by
  have below := low table known
  omega

omit [DecidableEq ι] in
theorem Finished.content {part : ι} {page frame table3 table2 table1 : Nat} {src : List UInt8}
    (holds : Holds levelStacked part pml4 stacked page src frame table3 table2 table1)
    {offset : Nat} (inside : offset < 4096) :
    kernel'.memory (frame + offset) = byteAt src offset := by
  have aligned := holds.aligned
  have placed := holds.placed
  rw [finished.behind (by omega)]
  exact (holds.grows finished.growsTopped).content offset inside

end Finish

end ArcadiaOs.Process
