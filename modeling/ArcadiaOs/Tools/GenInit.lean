import ArcadiaOs.Process.Image
import ArcadiaOs.Process.ParserBounds

/-!
The program that `tools/gen_init.py` writes for Ring 3, and what a launch makes of it.  The message
is a parameter.
-/

namespace ArcadiaOs.Tools

open Lib Memory Process

/-- `struct.pack` of one little-endian field, which raises an error for a number that is too big. -/
def packLe (width val : Nat) : Option (List UInt8) :=
  if val < 256 ^ width then some (leBytes width val) else none

def entryAddress : Nat := 0x400000

def elfHeader : List UInt8 :=
  [0x7F, 0x45, 0x4C, 0x46] ++ [0x02] ++ [0x01] ++ [0x01] ++ [0x00] ++ zeros 8 ++
    leBytes 2 2 ++ leBytes 2 0x3E ++ leBytes 4 1 ++ leBytes 8 entryAddress ++ leBytes 8 64 ++
    leBytes 8 0 ++ leBytes 4 0 ++ leBytes 2 64 ++ leBytes 2 56 ++ leBytes 2 1 ++
    leBytes 2 0 ++ leBytes 2 0 ++ leBytes 2 0

/-- One pass over the code, for a message that starts at `msgStart`. -/
def initCode (msgStart msgSize : Nat) : Option (List UInt8) := do
  let code : List UInt8 := [0x48, 0xC7, 0xC0, 0x01, 0x00, 0x00, 0x00]
  let code := code ++ [0x48, 0xC7, 0xC7, 0x01, 0x00, 0x00, 0x00]
  let disp32 ← packLe 4 (msgStart - (code.length + 7))
  let code := code ++ [0x48, 0x8D, 0x35] ++ disp32
  let size ← packLe 4 msgSize
  let code := code ++ [0x48, 0xC7, 0xC2] ++ size
  let code := code ++ [0xCD, 0x80]
  let code := code ++ [0x48, 0xC7, 0xC0, 0x02, 0x00, 0x00, 0x00]
  pure (code ++ [0x48, 0x31, 0xFF] ++ [0xCD, 0x80])

def phdr (totalFileSize : Nat) : Option (List UInt8) := do
  let size ← packLe 8 totalFileSize
  pure (leBytes 4 1 ++ leBytes 4 5 ++ leBytes 8 0 ++ leBytes 8 0x400000 ++ leBytes 8 0x400000 ++
    size ++ size ++ leBytes 8 0x1000)

/-- The first pass assumes 30 bytes of code and gives the length for the second one. -/
def genInit (msg : List UInt8) : Option (List UInt8) := do
  let draft ← initCode (64 + 56 + 30) msg.length
  let code ← initCode (64 + 56 + draft.length) msg.length
  let header ← phdr (64 + 56 + code.length + msg.length)
  pure (elfHeader ++ header ++ code ++ msg)

def codeFront : List UInt8 :=
  [0x48, 0xC7, 0xC0, 0x01, 0x00, 0x00, 0x00, 0x48, 0xC7, 0xC7, 0x01, 0x00, 0x00, 0x00, 0x48, 0x8D,
    0x35]

def codeBack (msgSize : Nat) : List UInt8 :=
  [0x48, 0xC7, 0xC2] ++ leBytes 4 msgSize ++
    [0xCD, 0x80, 0x48, 0xC7, 0xC0, 0x02, 0x00, 0x00, 0x00, 0x48, 0x31, 0xFF, 0xCD, 0x80]

def codeBytes (disp32 msgSize : Nat) : List UInt8 := codeFront ++ leBytes 4 disp32 ++ codeBack msgSize

def phdrFront : List UInt8 :=
  leBytes 4 1 ++ leBytes 4 5 ++ leBytes 8 0 ++ leBytes 8 0x400000 ++ leBytes 8 0x400000

def phdrBytes (total : Nat) : List UInt8 :=
  phdrFront ++ leBytes 8 total ++ (leBytes 8 total ++ leBytes 8 0x1000)

section Generated

variable {msg bytes : List UInt8}

@[simp] theorem length_elfHeader : elfHeader.length = 64 := rfl

@[simp] theorem length_codeBytes (disp32 msgSize : Nat) : (codeBytes disp32 msgSize).length = 42 := by
  simp [codeBytes, codeFront, codeBack]

@[simp] theorem length_phdrBytes (total : Nat) : (phdrBytes total).length = 56 := by
  simp [phdrBytes, phdrFront]

theorem initCode_eq {msgStart msgSize : Nat} (near : msgStart < 2 ^ 32) :
    initCode msgStart msgSize =
      if msgSize < 2 ^ 32 then some (codeBytes (msgStart - 21) msgSize) else none := by
  have fits : msgStart - 21 < 256 ^ 4 := by omega
  simp only [initCode, packLe, List.length_append, List.length_cons, List.length_nil, fits, if_true]
  by_cases small : msgSize < 2 ^ 32
  · rw [if_pos small, if_pos (show msgSize < 256 ^ 4 from small)]
    simp [codeBytes, codeFront, codeBack]
  · rw [if_neg small, if_neg (show ¬msgSize < 256 ^ 4 from small)]
    rfl

/-- The second pass knows that the code has 42 bytes. -/
theorem genInit_eq (msg : List UInt8) : genInit msg =
    if msg.length < 2 ^ 32 then
      some (elfHeader ++ phdrBytes (162 + msg.length) ++ codeBytes 141 msg.length ++ msg)
    else none := by
  rw [genInit, initCode_eq (by decide)]
  by_cases small : msg.length < 2 ^ 32
  · have fits : 162 + msg.length < 256 ^ 8 := by omega
    simp only [if_pos small, Option.bind_eq_bind, Option.bind_some, length_codeBytes]
    rw [initCode_eq (by decide), if_pos small, Option.bind_some]
    simp only [length_codeBytes, phdr, packLe]
    rw [show 64 + 56 + 42 = 162 from rfl, if_pos fits]
    simp [phdrBytes, phdrFront]
  · rw [if_neg small, if_neg small]
    rfl

theorem genInit_bytes (generated : genInit msg = some bytes) : msg.length < 2 ^ 32 ∧
    bytes = elfHeader ++ (phdrBytes (162 + msg.length) ++ (codeBytes 141 msg.length ++ msg)) := by
  rw [genInit_eq] at generated
  by_cases small : msg.length < 2 ^ 32
  · rw [if_pos small, Option.some.injEq, List.append_assoc, List.append_assoc] at generated
    exact ⟨small, generated.symm⟩
  · rw [if_neg small] at generated
    cases generated

theorem genInit_length (generated : genInit msg = some bytes) : bytes.length = 162 + msg.length := by
  rw [(genInit_bytes generated).2]
  simp
  omega

def initSegment (total : Nat) : ElfSegment where
  vaddr := 0x400000
  memsz := total
  filesz := total
  dataOffset := 0
  writable := false
  executable := true

theorem phdrBytes_header {total : Nat} (fits : total < 2 ^ 64) (front back : List UInt8) :
    programHeaderAt (front ++ (phdrBytes total ++ back)) front.length =
      ⟨1, 5, 0, 0x400000, total, total⟩ := by
  have field {offset width : Nat} (inside : offset + width ≤ 56) :
      Process.fieldAt (front ++ (phdrBytes total ++ back)) (front.length + offset) width =
        Process.fieldAt (phdrBytes total) offset width := by
    rw [Process.fieldAt, slice_behind, slice_front back (by rwa [length_phdrBytes]), Process.fieldAt]
  have constant {offset width : Nat} (inside : offset + width ≤ 32) :
      Process.fieldAt (phdrBytes total) offset width = Process.fieldAt phdrFront offset width := by
    have front : phdrFront.length = 32 := rfl
    rw [Process.fieldAt, phdrBytes, List.append_assoc, slice_front _ (by rwa [front]), Process.fieldAt]
  have filesz : Process.fieldAt (phdrBytes total) 32 8 = total := ofLeBytes_slice rfl rfl fits
  have split : phdrBytes total =
      phdrFront ++ leBytes 8 total ++ leBytes 8 total ++ leBytes 8 0x1000 := by
    rw [phdrBytes, List.append_assoc, List.append_assoc, List.append_assoc]
  have memsz : Process.fieldAt (phdrBytes total) 40 8 = total := ofLeBytes_slice split rfl fits
  have pType := @field 0 4 (by decide)
  rw [Nat.add_zero] at pType
  simp only [programHeaderAt, pType, field (by decide : 4 + 4 ≤ 56), field (by decide : 8 + 8 ≤ 56),
    field (by decide : 16 + 8 ≤ 56), field (by decide : 32 + 8 ≤ 56),
    field (by decide : 40 + 8 ≤ 56), filesz, memsz, constant (by decide : 0 + 4 ≤ 32),
    constant (by decide : 4 + 4 ≤ 32), constant (by decide : 8 + 8 ≤ 32),
    constant (by decide : 16 + 8 ≤ 32)]
  rfl

theorem parse_genInit {elfData : ElfData} (generated : genInit msg = some elfData.bytes) :
    parseElf elfData = .ok ⟨0x400000, [initSegment (162 + msg.length)]⟩ := by
  have total := genInit_length generated
  obtain ⟨small, layout⟩ := genInit_bytes generated
  have front {offset width : Nat} (inside : offset + width ≤ 64) :
      elfData.field offset width = Process.fieldAt elfHeader offset width := by
    rw [field_inside (by omega), layout, Process.fieldAt, slice_front _ inside, Process.fieldAt]
  have magic : elfData.bytes.take 4 = elfMagic := by
    rw [layout]
    rfl
  have kind : byteAt elfData.bytes 4 = elfClass64 ∧ byteAt elfData.bytes 5 = elfData2Lsb := by
    rw [layout]
    exact ⟨rfl, rfl⟩
  have header : Elf64Header.parse elfData = some ⟨2, 0x3E, 0x400000, 64, 56, 1⟩ := by
    rw [Elf64Header.parse, if_neg (by omega), if_neg (by simp [magic]), if_neg (by simp [kind])]
    simp only [front (by decide : 16 + 2 ≤ 64), front (by decide : 18 + 2 ≤ 64),
      front (by decide : 24 + 8 ≤ 64), front (by decide : 32 + 8 ≤ 64),
      front (by decide : 54 + 2 ≤ 64), front (by decide : 56 + 2 ≤ 64)]
    rfl
  have segment : Elf64ProgramHeader.readAt elfData 64 =
      ⟨1, 5, 0, 0x400000, 162 + msg.length, 162 + msg.length⟩ := by
    rw [readAt_inside (by simp [programHeaderSize]; omega), layout]
    exact phdrBytes_header (by omega) elfHeader _
  have start : wrap64 (64 + 0 * 56) = 64 := by simp [wrap64_eq]
  have stop : wrap64 (64 + 56) = 120 := by simp [wrap64_eq]
  have loadable (size : Nat) : (Elf64ProgramHeader.mk 1 5 0 0x400000 size size).isLoadable = true :=
    rfl
  have described (size : Nat) : (Elf64ProgramHeader.mk 1 5 0 0x400000 size size).segment =
      initSegment size := by
    have flags : Nat.testBit 5 1 = false ∧ Nat.testBit 5 0 = true := by decide
    simp only [Elf64ProgramHeader.segment, Elf64ProgramHeader.isWritable,
      Elf64ProgramHeader.isExecutable, flags, initSegment]
  have headers : parseHeaders elfData 64 56 1 0 [] = .ok [initSegment (162 + msg.length)] := by
    simp only [parseHeaders, start, stop, segment, loadable, described, if_true]
    rw [if_neg (by omega), if_neg (by omega), if_neg (by decide), List.nil_append]
  simp only [parseElf, header, headers]
  rfl

end Generated

/-! The launched program. -/

def userBytes (memory : Lib.Memory) (pml4 addr count : Nat) : List (Option UInt8) :=
  (List.range count).map fun index => userByte memory pml4 (addr + index)

/-- What stands in the memory of the program.  The processor adds the displacement to the address
behind the instruction, at offset 21 of the code. -/
structure InitImage (msg : List UInt8) (memory : Lib.Memory) (proc : ProcessControlBlock) : Prop where
  entry : proc.elfEntry = entryAddress
  headers : userBytes memory proc.pml4Phys proc.elfEntry 64 = elfHeader.map some
  code : userBytes memory proc.pml4Phys (proc.elfEntry + 120) 42 =
    (codeBytes 141 msg.length).map some
  message : ∀ index < msg.length, userByte memory proc.pml4Phys (proc.elfEntry + 162 + index) =
    some (if 162 + index < 4096 then byteAt msg index else 0)
  loads : ∃ disp32, userBytes memory proc.pml4Phys (proc.elfEntry + 120 + 17) 4 =
      (leBytes 4 disp32).map some ∧
    proc.elfEntry + 120 + 21 + disp32 = proc.elfEntry + 162 + 120

section Launched

variable {mapTo : MapTo} (documented : mapTo.Documented) {elfData : ElfData} {elfInfo : ElfLoadInfo}
  {kernel launched : Kernel} {proc : ProcessControlBlock}
include documented

theorem launched_entry (parsed : parseElf elfData = .ok elfInfo)
    (placed : ∀ seg ∈ elfInfo.segments, WellPlaced elfData seg)
    (done : launchInitProcess mapTo elfData kernel = .ok () launched)
    (process : launchedProcess kernel launched = some proc) : proc.elfEntry = elfInfo.entry := by
  have covered : ∀ seg ∈ elfInfo.segments, ∀ pageIdx < seg.pageCount,
      ∃ part : Unit, p4Index (seg.virt pageIdx) < 256 := by
    intro seg member pageIdx within
    obtain ⟨virt, low⟩ := (placed seg member).virt within
    refine ⟨(), ?_⟩
    rw [virt, p4Index]
    omega
  obtain ⟨slot, _, _, free, _, _, _, _, _, _, _, finished⟩ :=
    launch_finished (fun pml4 (_ : Unit) => rootLevel pml4.asU64) documented
      (fun _ _ given => opened_space given) parsed covered ⟨(), by decide⟩ ⟨(), by decide⟩ done
  obtain ⟨rsp, final⟩ := finished.process
  rw [launchedProcess, free, Option.bind_some, final, Option.some.injEq] at process
  rw [← process]

/-- However the program is launched, it starts on the magic number of its headers, 120 bytes in front of
its code, and its code looks for the message 120 bytes behind it. -/
theorem init_enters_headers {msg : List UInt8} (generated : genInit msg = some elfData.bytes)
    (done : launchInitProcess mapTo elfData kernel = .ok () launched)
    (process : launchedProcess kernel launched = some proc) :
    InitImage msg launched.memory proc := by
  have total := genInit_length generated
  have parsed := parse_genInit generated
  obtain ⟨small, layout⟩ := genInit_bytes generated
  have placed : ∀ seg ∈ [initSegment (162 + msg.length)], WellPlaced elfData seg := by
    intro seg member
    obtain rfl := List.mem_singleton.mp member
    refine ⟨(by decide : 0x400000 % 4096 = 0), ?_, Nat.le_refl _, ?_⟩ <;>
      simp only [initSegment] <;> omega
  have entry := launched_entry documented parsed placed done process
  have byte (offset : Nat) (inside : offset < 162 + msg.length) :
      userByte launched.memory proc.pml4Phys (proc.elfEntry + offset) =
        some (if offset < 4096 then byteAt elfData.bytes offset else 0) := by
    have read := launched_byte documented parsed placed done process
      (List.mem_singleton.mpr rfl) inside
    simp only [initSegment, Nat.zero_add, inside, and_true] at read
    rw [entry]
    exact read
  have part (before part behind : List UInt8) {start count : Nat}
      (split : elfData.bytes = before ++ part ++ behind) (place : before.length = start)
      (long : part.length = count) (near : start + count ≤ 4096) :
      userBytes launched.memory proc.pml4Phys (proc.elfEntry + start) count = part.map some := by
    have inside : start + part.length ≤ elfData.bytes.length := by
      rw [split, List.length_append, List.length_append, place]
      omega
    have middle : bytesAt elfData.bytes start part.length = part := by
      rw [bytesAt_eq_slice inside, split, ← place, slice_middle]
    rw [← middle, length_bytesAt, long] at *
    rw [userBytes, bytesAt, List.map_map]
    refine List.map_congr_left fun index member => ?_
    have within := List.mem_range.mp member
    rw [Nat.add_assoc, byte _ (by omega), if_pos (by omega)]
    rfl
  have headers := part [] elfHeader _ (by rw [List.nil_append]; exact layout) rfl length_elfHeader
    (by decide)
  refine ⟨entry, headers, ?_, ?_, 141, ?_, by omega⟩
  · refine part (elfHeader ++ phdrBytes (162 + msg.length)) _ msg ?_ (by simp)
      (length_codeBytes _ _) (by decide)
    rw [layout, List.append_assoc, List.append_assoc]
  · intro index within
    have tail : byteAt elfData.bytes (162 + index) = byteAt msg index := by
      simp only [layout, byteAt_append, length_elfHeader, length_phdrBytes, length_codeBytes]
      rw [if_neg (by omega), if_neg (by omega), if_neg (by omega),
        show 162 + index - 64 - 56 - 42 = index by omega]
    rw [Nat.add_assoc, byte _ (by omega), tail]
  · rw [Nat.add_assoc]
    refine part (elfHeader ++ phdrBytes (162 + msg.length) ++ codeFront) _
      (codeBack msg.length ++ msg) ?_ (by simp [codeFront]) rfl (by decide)
    rw [layout, codeBytes]
    simp only [List.append_assoc]

end Launched

def greetingElf : ElfData :=
  ⟨elfHeader ++ phdrBytes 164 ++ codeBytes 141 2 ++ [0x48, 0x69], fun _ => 0, by simp⟩

theorem init_enters_headers_greeting : ∃ launched, ∃ proc : ProcessControlBlock,
    genInit [0x48, 0x69] = some greetingElf.bytes ∧
      launchInitProcess offsetPageTable greetingElf (idleKernel 20) = .ok () launched ∧
      InitImage [0x48, 0x69] launched.memory proc := by
  have run : returnsWith (fun launched => (launchedProcess (idleKernel 20) launched).isSome)
      (launchInitProcess offsetPageTable greetingElf (idleKernel 20)) = true := by decide +kernel
  obtain ⟨_, launched, done, started⟩ := returnsWith_ok run
  obtain ⟨proc, process⟩ := Option.isSome_iff_exists.mp started
  have generated : genInit [0x48, 0x69] = some greetingElf.bytes := genInit_eq _
  exact ⟨launched, proc, generated, done,
    init_enters_headers offsetPageTable_documented generated done process⟩

end ArcadiaOs.Tools
