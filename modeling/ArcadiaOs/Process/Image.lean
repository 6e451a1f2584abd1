import ArcadiaOs.Process.Lifecycle
import ArcadiaOs.Process.UserPointer

/-!
The image of a launched program.  The copy of a page ends at an offset counted from the
segment and starts at one counted from the page, so only the first page is filled.
-/

namespace ArcadiaOs.Process

open Lib Memory PhysicalFrameAllocator

/-- A byte Ring 3 reads through 4 KiB pages. -/
def userByte (memory : Memory) (pml4 addr : Nat) : Option UInt8 :=
  match walk memory pml4 addr with
  | [p4Entry, p3Entry, p2Entry, p1Entry] =>
      if [p4Entry, p3Entry, p2Entry, p1Entry].all fun entry =>
        entry.present && entry.userAccessible then some (memory (p1Entry.addr + addr % 4096))
      else none
  | _ => none

/-- A segment as a linker lays it out, in the lower half. -/
structure WellPlaced (elfData : ElfData) (seg : ElfSegment) : Prop where
  aligned : seg.vaddr % 4096 = 0
  lower : seg.vaddr + seg.memsz ≤ 2 ^ 47
  fits : seg.filesz ≤ seg.memsz
  inFile : seg.dataOffset + seg.filesz ≤ elfData.bytes.length

/-- Every byte of every segment is where the program header puts it. -/
def ImageLoaded (elfData : ElfData) (segments : List ElfSegment) (memory : Memory) (pml4 : Nat) :
    Prop :=
  ∀ seg ∈ segments, ∀ offset < seg.memsz,
    userByte memory pml4 (seg.vaddr + offset) =
      some (if offset < seg.filesz then byteAt elfData.bytes (seg.dataOffset + offset) else 0)

/-- The file has only zeros for what lies behind the first page of the segment. -/
def BlankBeyondPage (elfData : ElfData) (seg : ElfSegment) : Prop :=
  ∀ offset, 4096 ≤ offset → offset < seg.filesz →
    byteAt elfData.bytes (seg.dataOffset + offset) = 0

section Leads

variable {memory : Memory} {pml4 page frame table3 table2 table1 addr : Nat}
  (leads : Leads memory pml4 page frame table3 table2 table1) (same : addr / 4096 = page / 4096)
include leads same

theorem Leads.walk : Process.walk memory pml4 addr = [entryAt memory (slot4 pml4 page),
    entryAt memory (slot3 table3 page), entryAt memory (slot2 table2 page),
    entryAt memory (slot1 table1 page)] := by
  have entry4 : tableEntry memory pml4 (p4Index page) = entryAt memory (slot4 pml4 page) := rfl
  have entry3 : tableEntry memory table3 (p3Index page) = entryAt memory (slot3 table3 page) := rfl
  have entry2 : tableEntry memory table2 (p2Index page) = entryAt memory (slot2 table2 page) := rfl
  have entry1 : tableEntry memory table1 (p1Index page) = entryAt memory (slot1 table1 page) := rfl
  rw [walk_page memory pml4 same]
  simp only [Process.walk, entry4, leads.entry4.present, leads.entry4.addr, entry3,
    leads.entry3.present, leads.entry3.small, leads.entry3.addr, entry2, leads.entry2.present,
    leads.entry2.small, leads.entry2.addr, entry1, Bool.not_true, Bool.or_self, Bool.false_eq_true,
    if_false]

theorem Leads.userMapped : UserMapped (Process.walk memory pml4 addr) := by
  rw [leads.walk same]
  intro entry member
  simp only [List.mem_cons, List.not_mem_nil, or_false] at member
  rcases member with rfl | rfl | rfl | rfl
  · exact ⟨leads.entry4.present, leads.entry4.user⟩
  · exact ⟨leads.entry3.present, leads.entry3.user⟩
  · exact ⟨leads.entry2.present, leads.entry2.user⟩
  · exact ⟨leads.entry1.present, leads.entry1.user⟩

theorem Leads.userByte : Process.userByte memory pml4 addr = some (memory (frame + addr % 4096)) := by
  simp only [Process.userByte, leads.walk same, List.all_cons, leads.entry4.present,
    leads.entry4.user, leads.entry3.present, leads.entry3.user, leads.entry2.present,
    leads.entry2.user, leads.entry1.present, leads.entry1.user, leads.entry1.addr, List.all_nil,
    Bool.and_self, if_true]

end Leads

theorem pageSource_eq {data : List UInt8} {seg : ElfSegment} {pageIdx : Nat}
    (inside : seg.dataOffset + seg.filesz < 2 ^ 63) (near : pageIdx * 4096 < 2 ^ 62) :
    pageSource data seg pageIdx =
      if pageIdx * 4096 < seg.filesz then
        let copyEnd := min (pageIdx * 4096 + 4096) (seg.filesz - pageIdx * 4096)
        if pageIdx * 4096 ≤ copyEnd ∧ seg.dataOffset + copyEnd ≤ data.length then
          some (slice data (seg.dataOffset + pageIdx * 4096) (copyEnd - pageIdx * 4096))
        else none
      else some [] := by
  generalize starts : pageIdx * 4096 = copyStart at near ⊢
  have ends : wrap64 (seg.dataOffset + seg.filesz) = seg.dataOffset + seg.filesz := by
    rw [wrap64_eq, Nat.mod_eq_of_lt (by omega)]
  have page : wrap64 (copyStart + 4096) = copyStart + 4096 := by
    rw [wrap64_eq, Nat.mod_eq_of_lt (by omega)]
  simp only [pageSource, starts, ends, page]
  by_cases copies : copyStart < seg.filesz
  · have offset : wrap64 (seg.dataOffset + copyStart) = seg.dataOffset + copyStart := by
      rw [wrap64_eq, Nat.mod_eq_of_lt (by omega)]
    have rest : wrappingSub seg.filesz copyStart = seg.filesz - copyStart := by
      rw [wrappingSub, wrap64_eq]
      omega
    rw [offset, rest, if_pos (by omega), if_pos copies]
    generalize stop : min (copyStart + 4096) (seg.filesz - copyStart) = copyEnd
    have last : wrap64 (seg.dataOffset + copyStart + wrappingSub copyEnd copyStart) =
        seg.dataOffset + copyEnd := by
      simp only [wrappingSub, wrap64_eq]
      omega
    rw [if_pos ⟨copies, by omega⟩, last]
    by_cases forward : copyStart ≤ copyEnd ∧ seg.dataOffset + copyEnd ≤ data.length
    · rw [if_pos forward, if_pos ⟨by omega, forward.2⟩]
      congr 2
      omega
    · rw [if_neg forward, if_neg (by omega)]
  · rw [if_neg copies]
    split
    · split
      · rename_i both
        exact absurd both.1 copies
      · rfl
    · rfl

section Segment

variable {elfData : ElfData} {seg : ElfSegment} (placed : WellPlaced elfData seg)
include placed

theorem WellPlaced.pageCount : seg.pageCount = (seg.memsz + 4095) / 4096 := by
  have lower := placed.lower
  rw [ElfSegment.pageCount, wrap64_eq, Nat.mod_eq_of_lt (by omega)]

theorem WellPlaced.virt {pageIdx : Nat} (inside : pageIdx < seg.pageCount) :
    seg.virt pageIdx = seg.vaddr + pageIdx * 4096 ∧ seg.vaddr + pageIdx * 4096 < 2 ^ 47 := by
  have lower := placed.lower
  rw [placed.pageCount] at inside
  rw [ElfSegment.virt, wrap64_eq]
  omega

theorem WellPlaced.source {pageIdx : Nat} (inside : pageIdx < seg.pageCount) :
    pageSource elfData.bytes seg pageIdx =
      if pageIdx * 4096 < seg.filesz then
        let copyEnd := min (pageIdx * 4096 + 4096) (seg.filesz - pageIdx * 4096)
        if pageIdx * 4096 ≤ copyEnd ∧ seg.dataOffset + copyEnd ≤ elfData.bytes.length then
          some (slice elfData.bytes (seg.dataOffset + pageIdx * 4096) (copyEnd - pageIdx * 4096))
        else none
      else some [] := by
  have lower := placed.lower
  have addressable := elfData.addressable
  have inFile := placed.inFile
  rw [placed.pageCount] at inside
  exact pageSource_eq (by omega) (by omega)

theorem WellPlaced.filesz (copied : ∀ pageIdx < seg.pageCount,
    pageSource elfData.bytes seg pageIdx ≠ none) : seg.filesz ≤ 4096 ∨ seg.filesz = 8192 := by
  by_contra long
  rw [not_or] at long
  have fits := placed.fits
  have last : (seg.filesz - 1) / 4096 < seg.pageCount := by
    rw [placed.pageCount]
    omega
  refine copied _ last ?_
  rw [placed.source last, if_pos (by omega)]
  exact if_neg (by omega)

/-- Pages behind the first one stay blank. -/
theorem WellPlaced.byte {pageIdx offset : Nat} {src : List UInt8}
    (long : seg.filesz ≤ 4096 ∨ seg.filesz = 8192) (inside : pageIdx < seg.pageCount)
    (source : pageSource elfData.bytes seg pageIdx = some src) (within : offset < 4096) :
    byteAt src offset =
      if pageIdx = 0 ∧ offset < seg.filesz then byteAt elfData.bytes (seg.dataOffset + offset)
      else 0 := by
  rw [placed.source inside] at source
  by_cases copies : pageIdx * 4096 < seg.filesz
  · rw [if_pos copies] at source
    simp only at source
    split at source
    · simp only [Option.some.injEq] at source
      subst source
      rw [byteAt_slice]
      by_cases first : pageIdx = 0
      · subst first
        simp only [Nat.zero_mul, Nat.add_zero, Nat.zero_add, Nat.sub_zero, true_and]
        have bound : offset < min 4096 seg.filesz ↔ offset < seg.filesz := by omega
        simp only [bound]
      · rw [if_neg (by omega), if_neg (fun both => first both.1)]
    · cases source
  · rw [if_neg copies, Option.some.injEq] at source
    subst source
    rw [if_neg (by omega)]
    exact byteAt_beyond (Nat.zero_le _)

end Segment

def parsesTo (elfData : ElfData) (segments : List ElfSegment) : Bool :=
  match parseElf elfData with
  | .ok elfInfo => elfInfo.segments == segments
  | .error _ => false

theorem parsesTo_ok {elfData : ElfData} {segments : List ElfSegment}
    (parses : parsesTo elfData segments = true) :
    ∃ elfInfo, parseElf elfData = .ok elfInfo ∧ elfInfo.segments = segments := by
  unfold parsesTo at parses
  split at parses
  · rename_i elfInfo parsed
    exact ⟨elfInfo, parsed, beq_iff_eq.mp parses⟩
  · cases parses

/-- What Ring 3 reads in the segments after a launch: the first page of each, and zeros. -/
theorem launched_byte {mapTo : MapTo} (documented : mapTo.Documented) {elfData : ElfData}
    {elfInfo : ElfLoadInfo} {kernel launched : Kernel} {proc : ProcessControlBlock}
    (parsed : parseElf elfData = .ok elfInfo)
    (placed : ∀ seg ∈ elfInfo.segments, WellPlaced elfData seg)
    (done : launchInitProcess mapTo elfData kernel = .ok () launched)
    (process : launchedProcess kernel launched = some proc) {seg : ElfSegment}
    (member : seg ∈ elfInfo.segments) {offset : Nat} (inside : offset < seg.memsz) :
    userByte launched.memory proc.pml4Phys (seg.vaddr + offset) =
      some (if offset < 4096 ∧ offset < seg.filesz then
        byteAt elfData.bytes (seg.dataOffset + offset) else 0) := by
  have covered : ∀ seg ∈ elfInfo.segments, ∀ pageIdx < seg.pageCount,
      ∃ part : Unit, p4Index (seg.virt pageIdx) < 256 := by
    intro seg member pageIdx within
    obtain ⟨virt, low⟩ := (placed seg member).virt within
    refine ⟨(), ?_⟩
    rw [virt, p4Index]
    omega
  obtain ⟨slot, pml4, before, free, given, levelStacked, levelTopped, stacked, topped, userStack,
    kernelStack, finished⟩ := launch_finished (fun pml4 (_ : Unit) => rootLevel pml4.asU64)
      documented (fun _ _ given => opened_space given) parsed covered ⟨(), by decide⟩
      ⟨(), by decide⟩ done
  have low : Low levelStacked () stacked :=
    (opened_low given rfl : Low (fun _ : Unit => rootLevel pml4.asU64) () _).grows finished.grows
  have pml4Of : proc.pml4Phys = pml4.asU64 := finished.pml4 free process
  have layout := placed seg member
  have page : offset / 4096 < seg.pageCount := by
    rw [layout.pageCount]
    omega
  have copied : ∀ pageIdx < seg.pageCount, pageSource elfData.bytes seg pageIdx ≠ none := by
    intro pageIdx within
    obtain ⟨_, _, src, _, _, _, _, _, source, _⟩ := finished.loaded seg member pageIdx within
    rw [source]
    exact Option.some_ne_none _
  obtain ⟨_, part, src, frame, table3, table2, table1, _, source, holds⟩ :=
    finished.loaded seg member (offset / 4096) page
  obtain ⟨virt, _⟩ := layout.virt page
  have aligned := layout.aligned
  have leads := finished.leads low.apart holds.reaches
  rw [pml4Of, leads.userByte (by omega), show (seg.vaddr + offset) % 4096 = offset % 4096 by omega,
    finished.content holds (by omega), layout.byte (layout.filesz copied) page source (by omega)]
  by_cases first : offset < 4096
  · rw [show offset / 4096 = 0 by omega, show offset % 4096 = offset by omega]
    by_cases short : offset < seg.filesz
    · rw [if_pos ⟨rfl, short⟩, if_pos ⟨first, short⟩]
    · rw [if_neg (fun both => short both.2), if_neg (fun both => short both.2)]
  · rw [if_neg (by omega), if_neg (fun both => first both.1)]

/-- The image is right exactly when the file has only zeros for what lies behind the first page of
each segment. -/
theorem launch_image_iff {mapTo : MapTo} (documented : mapTo.Documented) (elfData : ElfData)
    (elfInfo : ElfLoadInfo) (kernel launched : Kernel) (proc : ProcessControlBlock)
    (parsed : parseElf elfData = .ok elfInfo)
    (placed : ∀ seg ∈ elfInfo.segments, WellPlaced elfData seg)
    (done : launchInitProcess mapTo elfData kernel = .ok () launched)
    (process : launchedProcess kernel launched = some proc) :
    ImageLoaded elfData elfInfo.segments launched.memory proc.pml4Phys ↔
      ∀ seg ∈ elfInfo.segments, BlankBeyondPage elfData seg := by
  constructor
  · intro image seg member offset beyond inside
    have fits := (placed seg member).fits
    have byte := launched_byte documented parsed placed done process member
      (show offset < seg.memsz by omega)
    rw [image seg member offset (by omega), if_pos inside,
      if_neg (fun both => absurd both.1 (by omega)), Option.some.injEq] at byte
    exact byte
  · intro blank seg member offset inside
    rw [launched_byte documented parsed placed done process member inside]
    by_cases first : offset < 4096
    · simp only [first, true_and]
    · rw [if_neg (fun both => first both.1)]
      by_cases short : offset < seg.filesz
      · rw [if_pos short, blank seg member offset (by omega) short]
      · rw [if_neg short]

theorem oneByteElf_launched :
    ∃ elfInfo launched, ∃ proc : ProcessControlBlock, parseElf oneByteElf = .ok elfInfo ∧
      elfInfo.segments = [⟨0x400000, 1, 1, 120, true, false⟩] ∧
      launchInitProcess offsetPageTable oneByteElf (idleKernel 20) = .ok () launched ∧
      launchedProcess (idleKernel 20) launched = some proc := by
  obtain ⟨elfInfo, parsed, segments⟩ := parsesTo_ok
    (show parsesTo oneByteElf [⟨0x400000, 1, 1, 120, true, false⟩] = true by decide +kernel)
  have run : returnsWith (fun launched => (launchedProcess (idleKernel 20) launched).isSome)
      (launchInitProcess offsetPageTable oneByteElf (idleKernel 20)) = true := by decide +kernel
  obtain ⟨_, launched, done, started⟩ := returnsWith_ok run
  obtain ⟨proc, process⟩ := Option.isSome_iff_exists.mp started
  exact ⟨elfInfo, launched, proc, parsed, segments, done, process⟩

theorem launch_image_one_page :
    ∃ elfInfo launched, ∃ proc : ProcessControlBlock, parseElf oneByteElf = .ok elfInfo ∧
      launchInitProcess offsetPageTable oneByteElf (idleKernel 20) = .ok () launched ∧
      ImageLoaded oneByteElf elfInfo.segments launched.memory proc.pml4Phys := by
  obtain ⟨elfInfo, launched, proc, parsed, segments, done, process⟩ := oneByteElf_launched
  refine ⟨elfInfo, launched, proc, parsed, done, (launch_image_iff offsetPageTable_documented
    oneByteElf elfInfo (idleKernel 20) launched proc parsed ?_ done process).mpr ?_⟩
  · rw [segments]
    intro seg member
    rw [List.mem_singleton.mp member]
    exact ⟨by decide, by decide, by decide, (length_elfFile _ _ [7]).ge⟩
  · rw [segments]
    intro seg member offset beyond inside
    rw [List.mem_singleton.mp member] at inside
    simp only at inside
    omega

/-- A file part of two pages, whose last byte is 7. -/
def twoPageElf : ElfData where
  bytes := elfFile 0x400000 8192 (List.replicate 8191 0 ++ [7])
  behind := fun _ => 0
  addressable := by
    rw [length_elfFile, List.length_append, List.length_replicate, List.length_singleton]
    decide

theorem length_twoPageElf : twoPageElf.bytes.length = 8312 := by
  refine (length_elfFile _ _ _).trans ?_
  rw [List.length_append, List.length_replicate, List.length_singleton]

theorem launch_drops_second_page :
    ∃ elfInfo launched proc, parseElf twoPageElf = .ok elfInfo ∧
      (∀ seg ∈ elfInfo.segments, WellPlaced twoPageElf seg) ∧
      launchInitProcess offsetPageTable twoPageElf (idleKernel 20) = .ok () launched ∧
      launchedProcess (idleKernel 20) launched = some proc ∧
      byteAt twoPageElf.bytes (120 + 8191) = 7 ∧
      userByte launched.memory proc.pml4Phys 0x401FFF = some 0 ∧
      ¬ImageLoaded twoPageElf elfInfo.segments launched.memory proc.pml4Phys := by
  have bytes : parsesTo twoPageElf [⟨0x400000, 8192, 8192, 120, true, false⟩] = true ∧
      byteAt twoPageElf.bytes (120 + 8191) = 7 := by decide +kernel
  obtain ⟨parses, last⟩ := bytes
  obtain ⟨elfInfo, parsed, segments⟩ := parsesTo_ok parses
  have run : returnsWith (fun launched =>
      (launchedProcess (idleKernel 20) launched).any fun proc : ProcessControlBlock =>
        userByte launched.memory proc.pml4Phys 0x401FFF == some 0)
      (launchInitProcess offsetPageTable twoPageElf (idleKernel 20)) = true := by decide +kernel
  obtain ⟨_, launched, done, started⟩ := returnsWith_ok run
  obtain ⟨proc, process, blank⟩ := (Option.any_eq_true _ _).mp started
  rw [beq_iff_eq] at blank
  refine ⟨elfInfo, launched, proc, parsed, ?_, done, process, last, blank, fun image => ?_⟩
  · rw [segments]
    intro seg member
    rw [List.mem_singleton.mp member]
    exact ⟨by decide, by decide, by decide, by rw [length_twoPageElf]; decide⟩
  · have byte := image ⟨0x400000, 8192, 8192, 120, true, false⟩ (by rw [segments]; simp) 8191
      (by decide)
    rw [blank, if_pos (by decide), last] at byte
    cases byte

end ArcadiaOs.Process
