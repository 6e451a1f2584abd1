import ArcadiaOs.Process.LaunchFailure
import ArcadiaOs.Process.Launched
import ArcadiaOs.Process.ParserBounds

/-!
The arithmetic of the ELF loader.  The release build wraps; the checked loader below stops with a
panic where a sum or a difference of the page loop would, so a launch is free of such faults when
the checked one does not panic.
-/

namespace ArcadiaOs.Process

open Lib Memory PhysicalFrameAllocator

@[irreducible] def checkedAdd (left right : Nat) : Option Nat :=
  if left + right < 2 ^ 64 then some (left + right) else none

def checkedSub (left right : Nat) : Option Nat :=
  if right ≤ left then some (left - right) else none

def checkedSource (data : List UInt8) (seg : ElfSegment) (pageIdx : Nat) : Option (List UInt8) := do
  let copyStart := pageIdx * 4096
  let dataOffset ← checkedAdd seg.dataOffset copyStart
  let dataEnd ← checkedAdd seg.dataOffset seg.filesz
  if dataOffset < dataEnd then
    let pageEnd ← checkedAdd copyStart 4096
    let remaining ← checkedSub seg.filesz copyStart
    let copyEnd := min pageEnd remaining
    if copyStart < seg.filesz ∧ copyEnd > 0 then
      let count ← checkedSub copyEnd copyStart
      let stop ← checkedAdd dataOffset count
      if dataOffset ≤ stop ∧ stop ≤ data.length then
        some (slice data dataOffset (stop - dataOffset))
      else none
    else some []
  else some []

section Checked

variable (mapTo : MapTo) (elfData : ElfData) (pml4 : Nat)

def checkedPage (seg : ElfSegment) (pageIdx : Nat) : Launch Unit := do
  let pagePhys ← required "Out of memory for ELF" allocatePage
  zeroPage pagePhys
  match checkedAdd seg.vaddr (pageIdx * 4096), checkedSource elfData.bytes seg pageIdx with
  | some virt, some src => do
      modifyMemory fun memory => memory.write pagePhys src
      mapUserPage mapTo pml4 virt pagePhys seg.flags
  | _, _ => throw .panic

def checkedPages (seg : ElfSegment) : Nat → Nat → Launch Unit
  | 0, _ => pure ()
  | count + 1, index => do
      checkedPage mapTo elfData pml4 seg index
      checkedPages seg count (index + 1)

def checkedSegments : List ElfSegment → Launch Unit
  | [] => pure ()
  | seg :: rest =>
      match checkedAdd seg.memsz 4095 with
      | none => throw .panic
      | some bytes => do
          checkedPages mapTo elfData pml4 seg (bytes / 4096) 0
          checkedSegments rest

end Checked

/-- `launch_init_process` with checked sums in the page loop.  Behind the segments it goes on as a
launch without any. -/
def checkedLaunch (mapTo : MapTo) (elfData : ElfData) : Launch Unit := do
  match parseElf elfData with
  | .error stop => throw stop
  | .ok elfInfo => do
      match unusedSlot (← get) with
      | none => throw (.error "No free process slot")
      | some slot => do
          let pml4 ← required "Failed to create page tables" createUserPageTables
          updateProcess slot fun proc => { proc with pml4Phys := pml4 }
          checkedSegments mapTo elfData pml4 elfInfo.segments
          launchFrom mapTo elfData { elfInfo with segments := [] } slot pml4

/-- The launch returns, and no sum or difference of its page loop wraps. -/
structure Faultless (mapTo : MapTo) (elfData : ElfData) (kernel : Kernel) : Prop where
  returns : ¬StopsWith .panic (launchInitProcess mapTo elfData kernel)
  checked : ¬StopsWith .panic (checkedLaunch mapTo elfData kernel)

/-- The offsets of a page stay below 2^64, what the loader copies for it lies in the file, and its
address is canonical. -/
structure Harmless (data : List UInt8) (seg : ElfSegment) (pageIdx : Nat) : Prop where
  offset : seg.dataOffset + pageIdx * 4096 < 2 ^ 64
  file : seg.dataOffset + seg.filesz < 2 ^ 64
  source : pageIdx * 4096 < seg.filesz → 2 * (pageIdx * 4096) ≤ seg.filesz ∧
    seg.dataOffset + min (pageIdx * 4096 + 4096) (seg.filesz - pageIdx * 4096) ≤ data.length
  virt : canonical (seg.vaddr + pageIdx * 4096) = true

theorem canonical_lt {addr : Nat} (canon : canonical addr = true) : addr < 2 ^ 64 := by
  simp only [canonical, Bool.or_eq_true, Bool.and_eq_true, decide_eq_true_eq] at canon
  omega

theorem checkedAdd_some {left right sum : Nat} :
    checkedAdd left right = some sum ↔ left + right < 2 ^ 64 ∧ sum = left + right := by
  unfold checkedAdd
  split <;> simp_all [eq_comm]

/-! One page. -/

theorem checkedSource_straight {data : List UInt8} {seg : ElfSegment} {pageIdx : Nat}
    (offset : seg.dataOffset + pageIdx * 4096 < 2 ^ 64)
    (file : seg.dataOffset + seg.filesz < 2 ^ 64) :
    checkedSource data seg pageIdx =
      if pageIdx * 4096 < seg.filesz then
        let copyEnd := min (pageIdx * 4096 + 4096) (seg.filesz - pageIdx * 4096)
        if 2 * (pageIdx * 4096) ≤ seg.filesz ∧ seg.dataOffset + copyEnd ≤ data.length then
          some (slice data (seg.dataOffset + pageIdx * 4096) (copyEnd - pageIdx * 4096))
        else none
      else some [] := by
  generalize starts : pageIdx * 4096 = copyStart at offset ⊢
  simp only [checkedSource, starts, checkedAdd, if_pos offset, if_pos file, Option.bind_eq_bind,
    Option.bind_some, Nat.add_lt_add_iff_left]
  by_cases copies : copyStart < seg.filesz
  · rw [if_pos copies, if_pos copies]
    by_cases room : copyStart + 4096 < 2 ^ 64
    · rw [if_pos room, Option.bind_some, checkedSub, if_pos (Nat.le_of_lt copies), Option.bind_some,
        if_pos ⟨copies, by omega⟩]
      generalize ends : min (copyStart + 4096) (seg.filesz - copyStart) = copyEnd
      by_cases forward : copyStart ≤ copyEnd
      · rw [checkedSub, if_pos forward, Option.bind_some, if_pos (by omega), Option.bind_some]
        have stop : seg.dataOffset + copyStart + (copyEnd - copyStart) = seg.dataOffset + copyEnd := by
          omega
        rw [stop, show seg.dataOffset + copyEnd - (seg.dataOffset + copyStart) = copyEnd - copyStart by omega]
        congr 1
        simp only [eq_iff_iff]
        omega
      · rw [checkedSub, if_neg forward, if_neg (by omega)]
        rfl
    · rw [if_neg room, if_neg (by omega)]
      rfl
  · rw [if_neg copies, if_neg copies]

theorem pageSource_straight {data : List UInt8} {seg : ElfSegment} {pageIdx : Nat}
    (offset : seg.dataOffset + pageIdx * 4096 < 2 ^ 64)
    (file : seg.dataOffset + seg.filesz < 2 ^ 64)
    (source : pageIdx * 4096 < seg.filesz → 2 * (pageIdx * 4096) ≤ seg.filesz) :
    pageSource data seg pageIdx = checkedSource data seg pageIdx := by
  rw [checkedSource_straight offset file]
  generalize starts : pageIdx * 4096 = copyStart at offset source ⊢
  have start : wrap64 (seg.dataOffset + copyStart) = seg.dataOffset + copyStart := by
    rw [wrap64_eq, Nat.mod_eq_of_lt offset]
  have ends : wrap64 (seg.dataOffset + seg.filesz) = seg.dataOffset + seg.filesz := by
    rw [wrap64_eq, Nat.mod_eq_of_lt file]
  simp only [pageSource, starts, start, ends, Nat.add_lt_add_iff_left]
  by_cases copies : copyStart < seg.filesz
  · have half := source copies
    have page : wrap64 (copyStart + 4096) = copyStart + 4096 := by
      rw [wrap64_eq, Nat.mod_eq_of_lt (by omega)]
    have rest : wrappingSub seg.filesz copyStart = seg.filesz - copyStart := by
      rw [wrappingSub, wrap64_eq]
      omega
    rw [if_pos copies, if_pos copies, page, rest]
    generalize stop : min (copyStart + 4096) (seg.filesz - copyStart) = copyEnd
    have last : wrap64 (seg.dataOffset + copyStart + wrappingSub copyEnd copyStart) =
        seg.dataOffset + copyEnd := by
      simp only [wrappingSub, wrap64_eq]
      omega
    rw [if_pos ⟨copies, by omega⟩, last,
      show seg.dataOffset + copyEnd - (seg.dataOffset + copyStart) = copyEnd - copyStart by omega]
    congr 1
    simp only [eq_iff_iff]
    omega
  · rw [if_neg copies, if_neg copies]

theorem harmless_iff {data : List UInt8} {seg : ElfSegment} {pageIdx : Nat} :
    Harmless data seg pageIdx ↔ ∃ virt src, checkedAdd seg.vaddr (pageIdx * 4096) = some virt ∧
      checkedSource data seg pageIdx = some src ∧ canonical virt = true := by
  constructor
  · intro harmless
    have source := @checkedSource_straight data seg pageIdx harmless.offset harmless.file
    have virt := checkedAdd_some.mpr ⟨canonical_lt harmless.virt, rfl⟩
    by_cases copies : pageIdx * 4096 < seg.filesz
    · rw [if_pos copies] at source
      simp only [if_pos (harmless.source copies)] at source
      exact ⟨_, _, virt, source, harmless.virt⟩
    · rw [if_neg copies] at source
      exact ⟨_, _, virt, source, harmless.virt⟩
  · rintro ⟨virt, src, sum, source, canon⟩
    obtain ⟨_, rfl⟩ := checkedAdd_some.mp sum
    have ends := source
    simp only [checkedSource, Option.bind_eq_bind, Option.bind_eq_some_iff] at ends
    obtain ⟨_, start, _, stop, _⟩ := ends
    have offset := (checkedAdd_some.mp start).1
    have file := (checkedAdd_some.mp stop).1
    refine ⟨offset, file, fun copies => ?_, canon⟩
    rw [checkedSource_straight offset file, if_pos copies] at source
    by_contra outside
    simp only [if_neg outside] at source
    nomatch source

theorem claim_given {reason : String} {kernel : Kernel} {frame : PhysAddr}
    (given : kernel.pmm.allocateFrame.1 = some frame) (rest : Nat → Launch Unit) :
    (do
      let pagePhys ← required reason allocatePage
      zeroPage pagePhys
      rest pagePhys : Launch Unit) kernel = rest frame.asU64 (claimed kernel frame) := by
  have took : allocatePage kernel =
      .ok (some frame.asU64) { kernel with pmm := kernel.pmm.allocateFrame.2 } := by
    simp only [allocatePage, given, Option.map_some]
  have taken : required reason allocatePage kernel =
      .ok frame.asU64 { kernel with pmm := kernel.pmm.allocateFrame.2 } := by
    rw [required, bind_apply, took]
    rfl
  rw [bind_apply, taken]
  rfl

theorem claim_refused {reason : String} {kernel : Kernel}
    (refused : kernel.pmm.allocateFrame.1 = none) (rest : Nat → Launch Unit) :
    (do
      let pagePhys ← required reason allocatePage
      zeroPage pagePhys
      rest pagePhys : Launch Unit) kernel =
        .error (.error reason) { kernel with pmm := kernel.pmm.allocateFrame.2 } := by
  have took : allocatePage kernel = .ok none { kernel with pmm := kernel.pmm.allocateFrame.2 } := by
    simp only [allocatePage, refused, Option.map_none]
  have taken : required reason allocatePage kernel =
      .error (.error reason) { kernel with pmm := kernel.pmm.allocateFrame.2 } := by
    rw [required, bind_apply, took]
    rfl
  rw [bind_apply, taken]

theorem mapUserPage_stops {mapTo : MapTo} {pml4 virt phys flags : Nat} {kernel : Kernel} :
    StopsWith .panic (mapUserPage mapTo pml4 virt phys flags kernel) ↔ canonical virt = false := by
  rw [mapUserPage]
  cases canon : canonical virt with
  | false => exact iff_of_true rfl rfl
  | true =>
      refine iff_of_false ?_ (by simp)
      simp only [Bool.not_true, Bool.false_eq_true, if_false]
      split
      · exact id
      · intro stops
        cases stops

section Page

variable {mapTo : MapTo} {elfData : ElfData} {pml4 : Nat} {seg : ElfSegment} {pageIdx : Nat}
  {kernel : Kernel}

theorem checkedPage_stops :
    StopsWith .panic (checkedPage mapTo elfData pml4 seg pageIdx kernel) ↔
      kernel.pmm.allocateFrame.1 ≠ none ∧ ¬Harmless elfData.bytes seg pageIdx := by
  rw [checkedPage]
  cases given : kernel.pmm.allocateFrame.1 with
  | none =>
      rw [claim_refused given]
      exact iff_of_false nofun fun both => both.1 rfl
  | some frame =>
      rw [claim_given given, harmless_iff]
      simp only [ne_eq, reduceCtorEq, not_false_eq_true, true_and]
      cases checkedAdd seg.vaddr (pageIdx * 4096) with
      | none => exact iff_of_true rfl (by simp)
      | some virt =>
          cases checkedSource elfData.bytes seg pageIdx with
          | none => exact iff_of_true rfl (by simp)
          | some src =>
              simp only [Option.some.injEq, exists_and_left, exists_eq_left', Bool.not_eq_true]
              exact mapUserPage_stops

theorem checkedPage_eq
    (runs : ¬StopsWith .panic (checkedPage mapTo elfData pml4 seg pageIdx kernel)) :
    checkedPage mapTo elfData pml4 seg pageIdx kernel =
      loadPage mapTo elfData pml4 seg pageIdx kernel := by
  by_cases refused : kernel.pmm.allocateFrame.1 = none
  · rw [checkedPage, loadPage, claim_refused refused, claim_refused refused]
  · obtain ⟨frame, given⟩ := Option.ne_none_iff_exists'.mp refused
    have harmless : Harmless elfData.bytes seg pageIdx := by
      by_contra faulty
      exact runs (checkedPage_stops.mpr ⟨refused, faulty⟩)
    obtain ⟨virt, src, sum, source, _⟩ := harmless_iff.mp harmless
    obtain ⟨small, rfl⟩ := checkedAdd_some.mp sum
    have same : seg.virt pageIdx = seg.vaddr + pageIdx * 4096 := by
      rw [ElfSegment.virt, wrap64_eq, Nat.mod_eq_of_lt small]
    have copies := @pageSource_straight elfData.bytes seg pageIdx harmless.offset harmless.file
      fun copies => (harmless.source copies).1
    rw [checkedPage, loadPage, claim_given given, claim_given given, sum, copies, source, same]

end Page

/-! The page loop. -/

section Loop

variable {mapTo : MapTo} {elfData : ElfData} {pml4 : Nat}

/-- The loader comes to a page for which a frame is left, and the page is not harmless. -/
def PageFaults (mapTo : MapTo) (elfData : ElfData) (pml4 : Nat) (seg : ElfSegment)
    (count index : Nat) (kernel : Kernel) : Prop :=
  ∃ turns < count, ∃ ready, loadPages mapTo elfData pml4 seg turns index kernel = .ok () ready ∧
    ready.pmm.allocateFrame.1 ≠ none ∧ ¬Harmless elfData.bytes seg (index + turns)

theorem checkedPages_stops {seg : ElfSegment} {count index : Nat} {kernel : Kernel} :
    StopsWith .panic (checkedPages mapTo elfData pml4 seg count index kernel) ↔
      PageFaults mapTo elfData pml4 seg count index kernel := by
  induction count generalizing index kernel with
  | zero =>
      refine iff_of_false id ?_
      rintro ⟨_, below, _⟩
      exact Nat.not_lt_zero _ below
  | succ count ih =>
      rw [checkedPages, bind_stops]
      by_cases here : StopsWith .panic (checkedPage mapTo elfData pml4 seg index kernel)
      · refine iff_of_true (.inl here) ⟨0, Nat.succ_pos _, kernel, rfl, ?_⟩
        exact checkedPage_stops.mp here
      · rw [checkedPage_eq here]
        constructor
        · rintro (stops | ⟨_, middle, done, stops⟩)
          · rw [← checkedPage_eq here] at stops
            exact absurd stops here
          · obtain ⟨turns, below, ready, loaded, given, faulty⟩ := ih.mp stops
            refine ⟨turns + 1, by omega, ready, bind_ok.mpr ⟨_, middle, done, loaded⟩, given, ?_⟩
            rwa [show index + (turns + 1) = index + 1 + turns by omega]
        · rintro ⟨turns, below, ready, loaded, given, faulty⟩
          cases turns with
          | zero =>
              obtain ⟨_, rfl⟩ := pure_ok.mp loaded
              exact absurd (checkedPage_stops.mpr ⟨given, faulty⟩) here
          | succ turns =>
              obtain ⟨_, middle, done, loaded⟩ := bind_ok.mp loaded
              refine .inr ⟨_, middle, done, ih.mpr ⟨turns, by omega, ready, loaded, given, ?_⟩⟩
              rwa [show index + 1 + turns = index + (turns + 1) by omega]

theorem checkedPages_eq {seg : ElfSegment} {count index : Nat} {kernel : Kernel}
    (runs : ¬StopsWith .panic (checkedPages mapTo elfData pml4 seg count index kernel)) :
    checkedPages mapTo elfData pml4 seg count index kernel =
      loadPages mapTo elfData pml4 seg count index kernel := by
  induction count generalizing index kernel with
  | zero => rfl
  | succ count ih =>
      rw [checkedPages, bind_stops, not_or] at runs
      have same := checkedPage_eq runs.1
      rw [checkedPages, loadPages, bind_apply, bind_apply, same]
      cases done : loadPage mapTo elfData pml4 seg index kernel with
      | ok value middle => exact ih fun stops => runs.2 ⟨value, middle, same.trans done, stops⟩
      | error reason middle => rfl

def Rounds (seg : ElfSegment) : Prop := seg.memsz + 4095 < 2 ^ 64

def SegmentFaults (mapTo : MapTo) (elfData : ElfData) (pml4 : Nat) (seg : ElfSegment)
    (kernel : Kernel) : Prop :=
  ¬Rounds seg ∨ PageFaults mapTo elfData pml4 seg seg.pageCount 0 kernel

theorem checkedSegments_rounds {seg : ElfSegment} (rounds : Rounds seg) (rest : List ElfSegment)
    (kernel : Kernel) :
    checkedSegments mapTo elfData pml4 (seg :: rest) kernel =
      (do
        checkedPages mapTo elfData pml4 seg seg.pageCount 0
        checkedSegments mapTo elfData pml4 rest : Launch Unit) kernel := by
  have sum := checkedAdd_some.mpr ⟨rounds, rfl⟩
  rw [checkedSegments, sum, ElfSegment.pageCount, wrap64_eq, Nat.mod_eq_of_lt rounds]

theorem checkedSegments_wraps {seg : ElfSegment} (wraps : ¬Rounds seg) (rest : List ElfSegment)
    (kernel : Kernel) :
    checkedSegments mapTo elfData pml4 (seg :: rest) kernel = .error .panic kernel := by
  have sum : checkedAdd seg.memsz 4095 = none := by
    rw [checkedAdd]
    exact if_neg wraps
  rw [checkedSegments, sum]
  rfl

theorem checkedSegments_stops {segments : List ElfSegment} {kernel : Kernel} :
    StopsWith .panic (checkedSegments mapTo elfData pml4 segments kernel) ↔
      ∃ front seg back before, segments = front ++ seg :: back ∧
        loadSegments mapTo elfData pml4 front kernel = .ok () before ∧
        SegmentFaults mapTo elfData pml4 seg before := by
  induction segments generalizing kernel with
  | nil =>
      refine iff_of_false id ?_
      rintro ⟨front, seg, back, _, split, _⟩
      simp at split
  | cons seg rest ih =>
      by_cases here : SegmentFaults mapTo elfData pml4 seg kernel
      · refine iff_of_true ?_ ⟨[], seg, rest, kernel, rfl, rfl, here⟩
        by_cases rounds : Rounds seg
        · rw [checkedSegments_rounds rounds]
          exact bind_stops.mpr (.inl (checkedPages_stops.mpr
            (here.resolve_left (not_not_intro rounds))))
        · rw [checkedSegments_wraps rounds]
          exact rfl
      · obtain ⟨rounds, runs⟩ := not_or.mp here
        rw [← checkedPages_stops] at runs
        rw [checkedSegments_rounds (not_not.mp rounds), bind_stops, checkedPages_eq runs]
        constructor
        · rintro (stops | ⟨_, middle, done, stops⟩)
          · rw [← checkedPages_eq runs] at stops
            exact absurd stops runs
          · obtain ⟨front, faulty, back, before, rfl, loaded, faults⟩ := ih.mp stops
            exact ⟨seg :: front, faulty, back, before, rfl, bind_ok.mpr ⟨_, middle, done, loaded⟩,
              faults⟩
        · rintro ⟨front, faulty, back, before, split, loaded, faults⟩
          cases front with
          | nil =>
              obtain ⟨rfl, rfl⟩ := List.cons.inj split
              obtain ⟨_, rfl⟩ := pure_ok.mp loaded
              exact absurd faults here
          | cons first front =>
              obtain ⟨rfl, rfl⟩ := List.cons.inj split
              obtain ⟨_, middle, done, loaded⟩ := bind_ok.mp loaded
              exact .inr ⟨_, middle, done, ih.mpr ⟨front, faulty, back, before, rfl, loaded, faults⟩⟩

theorem checkedSegments_eq {segments : List ElfSegment} {kernel : Kernel}
    (runs : ¬StopsWith .panic (checkedSegments mapTo elfData pml4 segments kernel)) :
    checkedSegments mapTo elfData pml4 segments kernel =
      loadSegments mapTo elfData pml4 segments kernel := by
  induction segments generalizing kernel with
  | nil => rfl
  | cons seg rest ih =>
      by_cases rounds : Rounds seg
      · rw [checkedSegments_rounds rounds] at runs ⊢
        rw [bind_stops, not_or] at runs
        have same := checkedPages_eq runs.1
        rw [loadSegments, bind_apply, bind_apply, same]
        cases done : loadPages mapTo elfData pml4 seg seg.pageCount 0 kernel with
        | ok value middle => exact ih fun stops => runs.2 ⟨value, middle, same.trans done, stops⟩
        | error reason middle => rfl
      · rw [checkedSegments_wraps rounds] at runs
        exact absurd rfl runs

end Loop

/-! The launch. -/

section Launch

variable {mapTo : MapTo} {elfData : ElfData} {elfInfo : ElfLoadInfo} {slot pml4 : Nat}
  {kernel : Kernel}

theorem launchFrom_split : launchFrom mapTo elfData elfInfo slot pml4 = (do
    loadSegments mapTo elfData pml4 elfInfo.segments
    launchFrom mapTo elfData { elfInfo with segments := [] } slot pml4 : Launch Unit) := rfl

theorem required_stops {reason : String} :
    ¬StopsWith .panic (required reason allocatePage kernel) := by
  rw [required, bind_stops]
  rintro (stops | ⟨value, middle, _, stops⟩)
  · exact stops
  · cases value with
    | none => cases stops
    | some phys => exact stops

theorem launchFrom_stops :
    ¬StopsWith .panic (launchFrom mapTo elfData { elfInfo with segments := [] } slot pml4 kernel) := by
  intro stops
  rcases bind_stops.mp stops with none | ⟨_, _, _, stops⟩
  · exact none
  rcases bind_stops.mp stops with none | ⟨_, _, _, stops⟩
  · exact required_stops none
  rcases bind_stops.mp stops with none | ⟨_, _, _, stops⟩
  · exact none
  rcases bind_stops.mp stops with user | ⟨_, _, _, stops⟩
  · exact absurd (mapUserPage_stops.mp user) (by decide)
  rcases bind_stops.mp stops with none | ⟨_, _, _, stops⟩
  · exact none
  rcases bind_stops.mp stops with none | ⟨phys, _, taken, stops⟩
  · exact required_stops none
  rcases bind_stops.mp stops with none | ⟨_, _, _, stops⟩
  · exact none
  rcases bind_stops.mp stops with none | ⟨_, _, _, stops⟩
  · exact none
  rcases bind_stops.mp stops with top | ⟨_, _, _, stops⟩
  · obtain ⟨frame, given, rfl, _⟩ := allocatePage_ok (required_ok taken)
    have low := PhysAddr_low (allocateFrame_granted given)
    have canon := mapUserPage_stops.mp top
    simp only [canonical, Bool.or_eq_false_iff, decide_eq_false_iff_not] at canon
    omega
  rcases bind_stops.mp stops with none | ⟨_, _, _, stops⟩
  · exact none
  rcases bind_stops.mp stops with built | ⟨_, _, _, stops⟩
  · unfold buildInitialKernelStack at built
    split at built
    · exact built
    · exact built
  rcases bind_stops.mp stops with none | ⟨_, _, _, stops⟩
  · exact none
  · exact stops

def ReachesSegment (mapTo : MapTo) (elfData : ElfData) (kernel : Kernel) (pml4 : PhysAddr)
    (seg : ElfSegment) (before : Kernel) : Prop :=
  ∃ elfInfo slot front back, parseElf elfData = .ok elfInfo ∧ unusedSlot kernel = some slot ∧
    kernel.pmm.allocateFrame.1 = some pml4 ∧ elfInfo.segments = front ++ seg :: back ∧
    loadSegments mapTo elfData pml4.asU64 front (opened kernel slot pml4) = .ok () before

theorem launch_begins (mapTo : MapTo) (elfData : ElfData) (kernel : Kernel) :
    (∃ stop after, launchInitProcess mapTo elfData kernel = .error stop after ∧
      checkedLaunch mapTo elfData kernel = .error stop after ∧
      (stop = .panic ↔ parseElf elfData = .error .panic) ∧
      ∀ pml4 seg before, ¬ReachesSegment mapTo elfData kernel pml4 seg before) ∨
    ∃ elfInfo slot pml4, parseElf elfData = .ok elfInfo ∧ unusedSlot kernel = some slot ∧
      kernel.pmm.allocateFrame.1 = some pml4 ∧
      launchInitProcess mapTo elfData kernel =
        launchFrom mapTo elfData elfInfo slot pml4.asU64 (opened kernel slot pml4) ∧
      checkedLaunch mapTo elfData kernel = (do
        checkedSegments mapTo elfData pml4.asU64 elfInfo.segments
        launchFrom mapTo elfData { elfInfo with segments := [] } slot pml4.asU64 : Launch Unit)
          (opened kernel slot pml4) := by
  cases parsed : parseElf elfData with
  | error stop =>
      refine .inl ⟨stop, kernel, ?_, ?_, by simp, ?_⟩
      · exact launch_rejected parsed
      · rw [checkedLaunch, parsed]
        rfl
      · rintro pml4 seg before ⟨elfInfo, _, _, _, parse, _⟩
        rw [parsed] at parse
        cases parse
  | ok elfInfo =>
      cases free : unusedSlot kernel with
      | none =>
          have checking : checkedLaunch mapTo elfData kernel =
              .error (.error "No free process slot") kernel := by
            rw [checkedLaunch, parsed]
            simp only [bind_apply, get_apply, free]
            rfl
          refine .inl ⟨_, kernel, launch_full parsed free, checking, by simp, ?_⟩
          rintro pml4 seg before ⟨_, _, _, _, _, found, _⟩
          rw [free] at found
          cases found
      | some slot =>
          have opening : launchInitProcess mapTo elfData kernel = _ := launch_entered parsed free
          have checking : checkedLaunch mapTo elfData kernel = (do
              let pml4 ← required "Failed to create page tables" createUserPageTables
              updateProcess slot fun proc => { proc with pml4Phys := pml4 }
              checkedSegments mapTo elfData pml4 elfInfo.segments
              launchFrom mapTo elfData { elfInfo with segments := [] } slot pml4 : Launch Unit)
                kernel := by
            rw [checkedLaunch, parsed]
            simp only
            rw [bind_apply]
            simp only [get_apply, free]
          cases given : kernel.pmm.allocateFrame.1 with
          | none =>
              rw [launchIn, bind_apply, required_none given] at opening
              rw [bind_apply, required_none given] at checking
              refine .inl ⟨_, _, opening, checking, by simp, ?_⟩
              rintro pml4 seg before ⟨_, _, _, _, _, _, taken, _⟩
              rw [given] at taken
              cases taken
          | some pml4 =>
              rw [launchIn, bind_apply, required_pml4 given] at opening
              rw [bind_apply, required_pml4 given] at checking
              exact .inr ⟨elfInfo, slot, pml4, rfl, rfl, rfl, opening, checking⟩

theorem checkedLaunch_eq (runs : ¬StopsWith .panic (checkedLaunch mapTo elfData kernel)) :
    checkedLaunch mapTo elfData kernel = launchInitProcess mapTo elfData kernel := by
  rcases launch_begins mapTo elfData kernel with ⟨_, _, launch, checked, _⟩ |
    ⟨elfInfo, slot, pml4, _, _, _, launch, checked⟩
  · rw [launch, checked]
  · rw [checked, bind_stops, not_or] at runs
    rw [launchFrom_split] at launch
    rw [launch, checked, bind_apply, bind_apply, checkedSegments_eq runs.1]

theorem checkedLaunch_stops : StopsWith .panic (checkedLaunch mapTo elfData kernel) ↔
    parseElf elfData = .error .panic ∨ ∃ pml4 seg before,
      ReachesSegment mapTo elfData kernel pml4 seg before ∧
        SegmentFaults mapTo elfData pml4.asU64 seg before := by
  rcases launch_begins mapTo elfData kernel with ⟨stop, _, _, checked, panics, never⟩ |
    ⟨elfInfo, slot, pml4, parsed, free, given, _, checked⟩
  · rw [checked]
    constructor
    · exact fun stops => .inl (panics.mp stops)
    · rintro (parser | ⟨_, _, _, reaches, _⟩)
      · exact panics.mpr parser
      · exact absurd reaches (never _ _ _)
  · rw [checked, bind_stops, checkedSegments_stops]
    constructor
    · rintro (⟨front, seg, back, before, split, loaded, faults⟩ | ⟨_, _, _, stops⟩)
      · exact .inr ⟨pml4, seg, before, ⟨elfInfo, slot, front, back, parsed, free, given, split,
          loaded⟩, faults⟩
      · exact absurd stops launchFrom_stops
    · rintro (parser | ⟨other, seg, before, ⟨info, _, front, back, parse, found, taken, split,
        loaded⟩, faults⟩)
      · rw [parsed] at parser
        nomatch parser
      · obtain rfl := Except.ok.inj (parsed.symm.trans parse)
        obtain rfl := Option.some.inj (free.symm.trans found)
        obtain rfl := Option.some.inj (given.symm.trans taken)
        exact .inl ⟨front, seg, back, before, split, loaded, faults⟩

/-- The first program header does not wrap around the address space, and no segment and no page that
the launch comes to, with a frame left for it, would make a sum wrap, a slice leave the file or an
address lose its canonical form. -/
structure HeadersSafe (mapTo : MapTo) (elfData : ElfData) (kernel : Kernel) : Prop where
  table : Elf64Header.parse elfData = none ∨ phnumAt elfData.bytes = 0 ∨
    4 < phnumAt elfData.bytes ∨ ¬WrapsAround elfData.bytes
  rounds : ∀ pml4 seg before, ReachesSegment mapTo elfData kernel pml4 seg before → Rounds seg
  pages : ∀ pml4 seg before, ReachesSegment mapTo elfData kernel pml4 seg before →
    ∀ pageIdx < seg.pageCount, ∀ ready,
      loadPages mapTo elfData pml4.asU64 seg pageIdx 0 before = .ok () ready →
      ready.pmm.allocateFrame.1 ≠ none → Harmless elfData.bytes seg pageIdx

/-- The launch is free of faults exactly when the headers are safe for the pages it comes to. -/
theorem launch_faultless_iff (mapTo : MapTo) (elfData : ElfData) (kernel : Kernel) :
    Faultless mapTo elfData kernel ↔ HeadersSafe mapTo elfData kernel := by
  have faultless : Faultless mapTo elfData kernel ↔
      ¬StopsWith .panic (checkedLaunch mapTo elfData kernel) := by
    refine ⟨fun clean => clean.checked, fun runs => ⟨?_, runs⟩⟩
    rw [← checkedLaunch_eq runs]
    exact runs
  rw [faultless, checkedLaunch_stops, parseElf_panics_iff]
  constructor
  · intro runs
    obtain ⟨parser, segments⟩ := not_or.mp runs
    refine ⟨?_, fun pml4 seg before reaches => ?_, ?_⟩
    · by_contra wraps
      simp only [not_or, not_not, Nat.not_lt] at wraps
      exact parser wraps
    · by_contra wraps
      exact segments ⟨pml4, seg, before, reaches, .inl wraps⟩
    · intro pml4 seg before reaches pageIdx below ready loaded given
      by_contra faulty
      refine segments ⟨pml4, seg, before, reaches, .inr ⟨pageIdx, below, ready, loaded, given, ?_⟩⟩
      rwa [Nat.zero_add]
  · rintro safe (⟨accepted, entered, few, wraps⟩ | ⟨pml4, seg, before, reaches, faults⟩)
    · rcases safe.table with none | zero | many | straight
      · exact accepted none
      · exact entered zero
      · omega
      · exact straight wraps
    · rcases faults with wraps | ⟨pageIdx, below, ready, loaded, given, faulty⟩
      · exact wraps (safe.rounds pml4 seg before reaches)
      · rw [Nat.zero_add] at faulty
        exact faulty (safe.pages pml4 seg before reaches pageIdx below ready loaded given)

end Launch

/-- One byte at 2^47, the first address that is not canonical. -/
def highElf : ElfData := ⟨elfFile (2 ^ 47) 1 [7], fun _ => 0, by decide⟩

theorem highElf_panics : ¬Faultless offsetPageTable highElf (idleKernel 20) := by
  have run : failsWith .panic (fun _ => true)
      (launchInitProcess offsetPageTable highElf (idleKernel 20)) = true := by decide +kernel
  obtain ⟨after, stopped, _⟩ := failsWith_error run
  intro clean
  apply clean.returns
  rw [stopped]
  exact rfl

end ArcadiaOs.Process
