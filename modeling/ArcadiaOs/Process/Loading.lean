import ArcadiaOs.Lib.Footprint
import ArcadiaOs.Process.Growth

/-!
Successful launches, step by step: every page of every segment gets a frame of its own
with the bytes copied for it, and a path for Ring 3 that no later step takes away.
-/

namespace ArcadiaOs.Process

open Lib Memory PhysicalFrameAllocator

theorem copy_length {copyStart copyEnd dataOffset stop length : Nat} (near : copyStart < 2 ^ 52)
    (addressable : length < 2 ^ 63) (start : dataOffset < 2 ^ 64)
    (ends : copyEnd ≤ copyStart + 4096)
    (stops : stop = (dataOffset + (copyEnd + 2 ^ 64 - copyStart % 2 ^ 64) % 2 ^ 64) % 2 ^ 64)
    (some : copyEnd > 0) (forward : dataOffset ≤ stop) (inside : stop ≤ length) :
    stop - dataOffset ≤ 4096 := by
  omega

theorem pageSource_length {data src : List UInt8} {seg : ElfSegment} {pageIdx : Nat}
    (near : pageIdx < 2 ^ 40) (addressable : data.length < 2 ^ 63)
    (source : pageSource data seg pageIdx = some src) : src.length ≤ 4096 := by
  simp only [pageSource] at source
  split at source
  · split at source
    · rename_i copies
      split at source
      · rename_i bounds
        simp only [Option.some.injEq] at source
        subst source
        rw [slice, List.length_take]
        refine Nat.le_trans (Nat.min_le_left _ _) ?_
        refine copy_length (show pageIdx * 4096 < 2 ^ 52 by omega) addressable ?_ ?_
          (by simp only [wrap64_eq, wrappingSub]) copies.2 bounds.1 bounds.2
        · rw [wrap64_eq]
          exact Nat.mod_lt _ (by decide)
        · refine Nat.le_trans (Nat.min_le_left _ _) ?_
          rw [wrap64_eq]
          exact Nat.mod_le _ _
      · cases source
    · simp only [Option.some.injEq] at source
      subst source
      exact Nat.zero_le _
  · simp only [Option.some.injEq] at source
    subst source
    exact Nat.zero_le _

theorem page_content (memory : Memory) {frame offset : Nat} {src : List UInt8}
    (inside : offset < 4096) :
    ((memory.fill frame 4096 0).write frame src) (frame + offset) = byteAt src offset := by
  by_cases copied : offset < src.length
  · exact Memory.write_inside copied
  · rw [Memory.write_other (by omega), Memory.fill_inside (by omega) (by omega),
      byteAt_beyond (by omega)]

theorem page_other (memory : Memory) {frame place : Nat} {src : List UInt8}
    (aligned : frame % 4096 = 0) (long : src.length ≤ 4096)
    (other : place / 4096 ≠ frame / 4096) :
    ((memory.fill frame 4096 0).write frame src) place = memory place := by
  rw [Memory.write_other (by omega), Memory.fill_other (by omega)]

theorem p4Index_page (addr : Nat) : p4Index (addr / 4096 * 4096) = p4Index addr := by
  simp only [p4Index]
  omega

section Steps

variable {reason : String} {kernel kernel' : Kernel}

theorem required_ok {α : Type} {action : Launch (Option α)} {value : α}
    (done : required reason action kernel = .ok value kernel') :
    action kernel = .ok (some value) kernel' := by
  rw [required] at done
  obtain ⟨result, middle, ran, rest⟩ := bind_ok.mp done
  cases result with
  | none => cases rest
  | some found =>
      obtain ⟨rfl, rfl⟩ := pure_ok.mp rest
      exact ran

theorem allocatePage_ok {phys : Nat} (done : allocatePage kernel = .ok (some phys) kernel') :
    ∃ frame, kernel.pmm.allocateFrame.1 = some frame ∧ phys = frame.asU64 ∧
      kernel' = { kernel with pmm := kernel.pmm.allocateFrame.2 } := by
  simp only [allocatePage, EStateM.Result.ok.injEq] at done
  obtain ⟨given, rfl⟩ := done
  cases frame : kernel.pmm.allocateFrame.1 with
  | none =>
      rw [frame] at given
      cases given
  | some found =>
      rw [frame, Option.map_some, Option.some.injEq] at given
      exact ⟨found, rfl, given.symm, rfl⟩

theorem mapUserPage_ok {mapTo : MapTo} {pml4 virt phys flags : Nat}
    (done : mapUserPage mapTo pml4 virt phys flags kernel = .ok () kernel') :
    canonical virt = true ∧ kernel'.processTable = kernel.processTable ∧
      mapTo kernel.memory kernel.pmm pml4 (virt / 4096 * 4096) (phys / 4096 * 4096) flags =
        (.ok (), kernel'.memory, kernel'.pmm) := by
  simp only [mapUserPage] at done
  split at done
  · cases done
  rename_i low
  split at done
  · rename_i mapped
    simp only [EStateM.Result.ok.injEq, true_and] at done
    subst done
    exact ⟨by simpa using low, rfl, mapped⟩
  · cases done

end Steps

section Space

variable {ι : Type} [DecidableEq ι] {covers : ι → Nat → Prop} {level level' level'' : ι → Nat → Nat}
  {pml4 : Nat} {kernel kernel' kernel'' : Kernel}

/-- A step of a launch on the address space. -/
structure Extends (covers : ι → Nat → Prop) (pml4 : Nat) (level : ι → Nat → Nat) (kernel : Kernel)
    (level' : ι → Nat → Nat) (kernel' : Kernel) : Prop where
  space : Space covers level' pml4 kernel'
  grows : Grows covers pml4 level kernel level' kernel'
  processTable : kernel'.processTable = kernel.processTable

omit [DecidableEq ι] in
theorem Extends.trans (first : Extends covers pml4 level kernel level' kernel')
    (second : Extends covers pml4 level' kernel' level'' kernel'') :
    Extends covers pml4 level kernel level'' kernel'' where
  space := second.space
  grows := first.grows.trans second.grows
  processTable := second.processTable.trans first.processTable

omit [DecidableEq ι] in
theorem Space.claim (space : Space covers level pml4 kernel) (part : ι) {frame : PhysAddr}
    (given : kernel.pmm.allocateFrame.1 = some frame)
    (taken : kernel'.pmm = kernel.pmm.allocateFrame.2)
    (others : ∀ place, place / 4096 ≠ frame.asU64 / 4096 →
      kernel'.memory place = kernel.memory place) :
    Space covers level pml4 kernel' ∧ Grows covers pml4 level kernel level kernel' := by
  have granted := allocateFrame_granted given
  have free := (space.sound part).free granted.bound
  refine space.claimed part ?_ ?_ fun place reserved => others place fun same => ?_
  · rw [taken]
    exact allocateFrame_grown _
  · rw [taken]
    exact granted.sound
  · rw [same, show frame.asU64 / 4096 = kernel.pmm.nextFree from granted.frame, free] at reserved
    cases reserved

theorem Space.map {mapTo : MapTo} (documented : mapTo.Documented)
    (space : Space covers level pml4 kernel) {part : ι} {virt phys flags : Nat}
    (covered : covers part (p4Index virt)) (aligned : phys % 4096 = 0) (bound : phys < 2 ^ 52)
    (small : flags < 8) (present : flags.testBit 0 = true)
    (done : mapUserPage mapTo pml4 virt phys flags kernel = .ok () kernel') :
    ∃ level', Extends covers pml4 level kernel level' kernel' ∧
      (flags.testBit 2 = true → ∃ table3 table2 table1,
        Reaches level' part pml4 kernel' (virt / 4096 * 4096) phys table3 table2 table1) := by
  obtain ⟨_, table, mapped⟩ := mapUserPage_ok done
  have physEq : phys / 4096 * 4096 = phys := by omega
  rw [physEq] at mapped
  rw [← p4Index_page] at covered
  obtain ⟨level₁, effect⟩ := documented.mapped (space.part part) covered mapped
    (Nat.mul_mod_left _ _) aligned bound small present
  obtain ⟨after, grows⟩ := space.mapped covered effect
  refine ⟨_, ⟨after, grows, table⟩, fun user => ?_⟩
  obtain ⟨table3, table2, table1, ⟨known3, known2, known1⟩, leads⟩ := effect.leads user
  refine ⟨table3, table2, table1, leads, ?_, ?_, ?_, ?_⟩
  · rw [after.root part]
    decide
  · rw [withPart_same]
    exact known3
  · rw [withPart_same]
    exact known2
  · rw [withPart_same]
    exact known1

structure Holds (level : ι → Nat → Nat) (part : ι) (pml4 : Nat) (kernel : Kernel) (page : Nat)
    (src : List UInt8) (frame table3 table2 table1 : Nat) : Prop where
  reaches : Reaches level part pml4 kernel page frame table3 table2 table1
  aligned : frame % 4096 = 0
  placed : frame / 4096 < kernel.pmm.nextFree
  reserved : kernel.pmm.isFrameReserved (frame / 4096) = true
  unknown : ∀ part, level part frame = 0
  content : ∀ offset < 4096, kernel.memory (frame + offset) = byteAt src offset

omit [DecidableEq ι] in
theorem Holds.grows {part : ι} {page frame table3 table2 table1 : Nat} {src : List UInt8}
    (holds : Holds level part pml4 kernel page src frame table3 table2 table1)
    (grows : Grows covers pml4 level kernel level' kernel') :
    Holds level' part pml4 kernel' page src frame table3 table2 table1 := by
  have aligned := holds.aligned
  refine ⟨holds.reaches.grows grows, holds.aligned,
    Nat.lt_of_lt_of_le holds.placed grows.grown.nextFree,
    grows.grown.reserved _ holds.reserved, grows.still holds.reserved holds.unknown, ?_⟩
  intro offset inside
  have same : (frame + offset) / 4096 * 4096 = frame := by omega
  have number : (frame + offset) / 4096 = frame / 4096 := by omega
  rw [grows.quiet (frame + offset) (by rw [number]; exact holds.reserved)
    (by rw [same]; exact holds.unknown), holds.content offset inside]

def Loaded (covers : ι → Nat → Prop) (level : ι → Nat → Nat) (pml4 : Nat) (kernel : Kernel)
    (elfData : ElfData) (seg : ElfSegment) (pageIdx : Nat) : Prop :=
  canonical (seg.virt pageIdx) = true ∧ ∃ part src frame table3 table2 table1,
    covers part (p4Index (seg.virt pageIdx)) ∧
    pageSource elfData.bytes seg pageIdx = some src ∧
    Holds level part pml4 kernel (seg.virt pageIdx / 4096 * 4096) src frame table3 table2 table1

omit [DecidableEq ι] in
theorem Loaded.grows {elfData : ElfData} {seg : ElfSegment} {pageIdx : Nat}
    (loaded : Loaded covers level pml4 kernel elfData seg pageIdx)
    (grows : Grows covers pml4 level kernel level' kernel') :
    Loaded covers level' pml4 kernel' elfData seg pageIdx := by
  obtain ⟨low, part, src, frame, table3, table2, table1, covered, source, holds⟩ := loaded
  exact ⟨low, part, src, frame, table3, table2, table1, covered, source, holds.grows grows⟩

theorem ElfSegment.flags_small (seg : ElfSegment) :
    seg.flags < 8 ∧ seg.flags.testBit 0 = true ∧ seg.flags.testBit 2 = true := by
  cases writable : seg.writable with
  | true =>
      simp only [ElfSegment.flags, writable, if_true]
      decide
  | false =>
      simp only [ElfSegment.flags, writable]
      decide

section Runs

variable {mapTo : MapTo} (documented : mapTo.Documented) {elfData : ElfData} {seg : ElfSegment}

theorem loadPage_filled {pageIdx : Nat} (near : pageIdx ≤ kernel.pmm.nextFree)
    (done : loadPage mapTo elfData pml4 seg pageIdx kernel = .ok () kernel') :
    ∃ frame src, ∃ middle : Kernel, kernel.pmm.allocateFrame.1 = some frame ∧
      pageSource elfData.bytes seg pageIdx = some src ∧
      middle.pmm = kernel.pmm.allocateFrame.2 ∧ middle.processTable = kernel.processTable ∧
      (∀ place, place / 4096 ≠ frame.asU64 / 4096 →
        middle.memory place = kernel.memory place) ∧
      (∀ offset < 4096, middle.memory (frame.asU64 + offset) = byteAt src offset) ∧
      mapUserPage mapTo pml4 (seg.virt pageIdx) frame.asU64 seg.flags middle = .ok () kernel' := by
  rw [loadPage] at done
  obtain ⟨pagePhys, taken, took, done⟩ := bind_ok.mp done
  obtain ⟨frame, given, rfl, rfl⟩ := allocatePage_ok (required_ok took)
  obtain ⟨_, cleared, zeroed, done⟩ := bind_ok.mp done
  obtain rfl := modify_ok.mp zeroed
  cases source : pageSource elfData.bytes seg pageIdx with
  | none =>
      rw [source] at done
      cases done
  | some src =>
      rw [source] at done
      obtain ⟨_, copied, wrote, done⟩ := bind_ok.mp done
      obtain rfl := modify_ok.mp wrote
      have granted := allocateFrame_granted given
      have aligned : frame.asU64 % 4096 = 0 := granted.aligned
      have bound := granted.bound
      have total := kernel.pmm.totalBound
      simp only [maxTrackedFrames, frameSize] at total
      have long := pageSource_length (show pageIdx < 2 ^ 40 by omega) elfData.addressable source
      refine ⟨frame, src, _, given, rfl, ?_, ?_, ?_, ?_, done⟩
      · rfl
      · rfl
      · exact fun place other => page_other kernel.memory aligned long other
      · exact fun offset inside => page_content kernel.memory inside

include documented

theorem Space.place (space : Space covers level pml4 kernel) {part : ι} {frame : PhysAddr}
    (given : kernel.pmm.allocateFrame.1 = some frame) {middle : Kernel} {src : List UInt8}
    {virt flags : Nat}
    (done : mapUserPage mapTo pml4 virt frame.asU64 flags middle = .ok () kernel')
    (taken : middle.pmm = kernel.pmm.allocateFrame.2)
    (table : middle.processTable = kernel.processTable)
    (others : ∀ place, place / 4096 ≠ frame.asU64 / 4096 →
      middle.memory place = kernel.memory place)
    (content : ∀ offset < 4096, middle.memory (frame.asU64 + offset) = byteAt src offset)
    (covered : covers part (p4Index virt)) (small : flags < 8) (present : flags.testBit 0 = true)
    (user : flags.testBit 2 = true) :
    ∃ level', Extends covers pml4 level kernel level' kernel' ∧
      kernel.pmm.nextFree < kernel'.pmm.nextFree ∧ ∃ table3 table2 table1,
        Holds level' part pml4 kernel' (virt / 4096 * 4096) src frame.asU64 table3 table2 table1 := by
  have granted := allocateFrame_granted given
  have aligned : frame.asU64 % 4096 = 0 := granted.aligned
  have number : frame.asU64 / 4096 = kernel.pmm.nextFree := granted.frame
  obtain ⟨claimed, claims⟩ := space.claim part given taken others
  obtain ⟨level', mapped, reaches⟩ := claimed.map documented covered aligned frame.inBounds
    small present done
  obtain ⟨table3, table2, table1, path⟩ := reaches user
  have later := Nat.lt_of_lt_of_le (taken ▸ granted.next) mapped.grows.grown.nextFree
  have unknown : ∀ part, level part frame.asU64 = 0 := fun part =>
    space.unreserved (by rw [number]; exact (space.sound part).free granted.bound) part
  have held : middle.pmm.isFrameReserved (frame.asU64 / 4096) = true := by
    rw [number, taken]
    exact granted.reserved
  refine ⟨level', ⟨mapped.space, claims.trans mapped.grows, mapped.processTable.trans table⟩, later, table3, table2, table1, path, aligned,
    by rw [number]; exact later, mapped.grows.grown.reserved _ held,
    mapped.grows.still held unknown, ?_⟩
  intro offset inside
  have same : (frame.asU64 + offset) / 4096 * 4096 = frame.asU64 := by omega
  have here : (frame.asU64 + offset) / 4096 = frame.asU64 / 4096 := by omega
  rw [mapped.grows.quiet (frame.asU64 + offset) (by rw [here]; exact held)
    (by rw [same]; exact unknown)]
  exact content offset inside

theorem Space.reserve (space : Space covers level pml4 kernel) {part : ι} {frame : PhysAddr}
    (given : kernel.pmm.allocateFrame.1 = some frame) {middle : Kernel} {virt flags : Nat}
    (done : mapUserPage mapTo pml4 virt frame.asU64 flags middle = .ok () kernel')
    (taken : middle.pmm = kernel.pmm.allocateFrame.2)
    (cleared : middle.memory = kernel.memory.fill frame.asU64 4096 0)
    (covered : covers part (p4Index virt)) (small : flags < 8)
    (present : flags.testBit 0 = true) :
    ∃ level', Space covers level' pml4 kernel' ∧ Grows covers pml4 level kernel level' kernel' ∧
      kernel'.processTable = middle.processTable := by
  have aligned : frame.asU64 % 4096 = 0 := (allocateFrame_granted given).aligned
  obtain ⟨claimed, claims⟩ := space.claim part given taken fun place other => by
    rw [cleared, Memory.fill_other (by omega)]
  obtain ⟨level', mapped, _⟩ := claimed.map documented covered aligned frame.inBounds small present
    done
  exact ⟨level', mapped.space, claims.trans mapped.grows, mapped.processTable⟩

theorem loadPage_ok (space : Space covers level pml4 kernel) {pageIdx : Nat}
    (near : pageIdx ≤ kernel.pmm.nextFree)
    (covered : ∃ part, covers part (p4Index (seg.virt pageIdx)))
    (done : loadPage mapTo elfData pml4 seg pageIdx kernel = .ok () kernel') :
    ∃ level', Extends covers pml4 level kernel level' kernel' ∧
      kernel.pmm.nextFree < kernel'.pmm.nextFree ∧
      Loaded covers level' pml4 kernel' elfData seg pageIdx := by
  obtain ⟨part, covered⟩ := covered
  obtain ⟨frame, src, middle, given, source, taken, table, others, content, done⟩ :=
    loadPage_filled near done
  obtain ⟨small, present, user⟩ := seg.flags_small
  obtain ⟨canon, _, _⟩ := mapUserPage_ok done
  obtain ⟨level', step, later, table3, table2, table1, holds⟩ := space.place documented given
    done taken table others content covered small present user
  exact ⟨level', step, later, canon, part, src, frame.asU64, table3, table2, table1, covered,
    source, holds⟩

theorem loadPages_ok {count index : Nat} (space : Space covers level pml4 kernel)
    (near : index ≤ kernel.pmm.nextFree)
    (covered : ∀ pageIdx, index ≤ pageIdx → pageIdx < index + count →
      ∃ part, covers part (p4Index (seg.virt pageIdx)))
    (done : loadPages mapTo elfData pml4 seg count index kernel = .ok () kernel') :
    ∃ level', Extends covers pml4 level kernel level' kernel' ∧
      ∀ pageIdx, index ≤ pageIdx → pageIdx < index + count →
        Loaded covers level' pml4 kernel' elfData seg pageIdx := by
  induction count generalizing index level kernel with
  | zero =>
      obtain ⟨_, rfl⟩ := pure_ok.mp done
      exact ⟨level, ⟨space, .refl _ _ _ _, rfl⟩, fun pageIdx above below => by omega⟩
  | succ count ih =>
      obtain ⟨_, middle, first, rest⟩ := bind_ok.mp done
      obtain ⟨level₁, step, later, loaded⟩ := loadPage_ok documented space near
        (covered index (Nat.le_refl _) (by omega)) first
      obtain ⟨level₂, run, others⟩ := ih step.space (by omega)
        (fun pageIdx above below => covered pageIdx (by omega) (by omega)) rest
      refine ⟨level₂, step.trans run, fun pageIdx above below => ?_⟩
      by_cases here : pageIdx = index
      · subst here
        exact loaded.grows run.grows
      · exact others pageIdx (by omega) (by omega)

theorem loadSegments_ok {segments : List ElfSegment} (space : Space covers level pml4 kernel)
    (covered : ∀ seg ∈ segments, ∀ pageIdx < seg.pageCount,
      ∃ part, covers part (p4Index (seg.virt pageIdx)))
    (done : loadSegments mapTo elfData pml4 segments kernel = .ok () kernel') :
    ∃ level', Extends covers pml4 level kernel level' kernel' ∧
      ∀ seg ∈ segments, ∀ pageIdx < seg.pageCount,
        Loaded covers level' pml4 kernel' elfData seg pageIdx := by
  induction segments generalizing level kernel with
  | nil =>
      obtain ⟨_, rfl⟩ := pure_ok.mp done
      exact ⟨level, ⟨space, .refl _ _ _ _, rfl⟩, nofun⟩
  | cons seg rest ih =>
      obtain ⟨_, middle, first, later⟩ := bind_ok.mp done
      obtain ⟨level₁, step, loaded⟩ := loadPages_ok documented space (Nat.zero_le _)
        (fun pageIdx _ below => covered seg List.mem_cons_self pageIdx (by omega)) first
      obtain ⟨level₂, run, others⟩ := ih step.space
        (fun seg member => covered seg (List.mem_cons_of_mem _ member)) later
      refine ⟨level₂, step.trans run, fun other member pageIdx below => ?_⟩
      rcases List.mem_cons.mp member with rfl | member
      · exact (loaded pageIdx (Nat.zero_le _) (by omega)).grows run.grows
      · exact others other member pageIdx below

end Runs

end Space

end ArcadiaOs.Process
