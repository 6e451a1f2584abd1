import ArcadiaOs.Process.ElfCore

/-!
Where `parse_elf` reads.  The test of a program header uses `e_phentsize` and wrapped sums, while
the read takes 56 bytes, so whether the reads stay inside the file depends on three header fields.
-/

namespace ArcadiaOs.Process

open Lib Memory

def headerSize : Nat := 64
def programHeaderSize : Nat := 56

/-! What the bytes of the file say. -/

def fieldAt (bytes : List UInt8) (offset width : Nat) : Nat := ofLeBytes (slice bytes offset width)

def phoffAt (bytes : List UInt8) : Nat := fieldAt bytes 32 8
def phentsizeAt (bytes : List UInt8) : Nat := fieldAt bytes 54 2
def phnumAt (bytes : List UInt8) : Nat := fieldAt bytes 56 2

def programHeaderAt (bytes : List UInt8) (offset : Nat) : Elf64ProgramHeader where
  pType := fieldAt bytes offset 4
  pFlags := fieldAt bytes (offset + 4) 4
  pOffset := fieldAt bytes (offset + 8) 8
  pVaddr := fieldAt bytes (offset + 16) 8
  pFilesz := fieldAt bytes (offset + 32) 8
  pMemsz := fieldAt bytes (offset + 40) 8

def programHeaders (bytes : List UInt8) : List Elf64ProgramHeader :=
  (List.range (phnumAt bytes)).map fun index =>
    programHeaderAt bytes (phoffAt bytes + index * phentsizeAt bytes)

def loadableSegments (bytes : List UInt8) : List ElfSegment :=
  ((programHeaders bytes).filter Elf64ProgramHeader.isLoadable).map Elf64ProgramHeader.segment

/-! The reads of the parser. -/

/-- `parseHeaders` with the offsets at which it reads a program header. -/
def tracedHeaders (elfData : ElfData) (phoff phentsize : Nat) :
    Nat → Nat → List ElfSegment → List Nat × Except Stop (List ElfSegment)
  | 0, _, segments => ([], .ok segments)
  | count + 1, index, segments =>
      let offset := wrap64 (phoff + index * phentsize)
      if wrap64 (offset + phentsize) > elfData.bytes.length then
        ([], .error (.error "Program header out of bounds"))
      else if offset > elfData.bytes.length then ([], .error .panic)
      else
        let header := Elf64ProgramHeader.readAt elfData offset
        if header.isLoadable then
          if segments.length ≥ 4 then ([offset], .error (.error "Too many loadable segments"))
          else
            let rest := tracedHeaders elfData phoff phentsize count (index + 1)
              (segments ++ [header.segment])
            (offset :: rest.1, rest.2)
        else
          let rest := tracedHeaders elfData phoff phentsize count (index + 1) segments
          (offset :: rest.1, rest.2)

theorem tracedHeaders_result (elfData : ElfData) (phoff phentsize count index : Nat)
    (segments : List ElfSegment) :
    (tracedHeaders elfData phoff phentsize count index segments).2 =
      parseHeaders elfData phoff phentsize count index segments := by
  induction count generalizing index segments with
  | zero => rfl
  | succ count ih =>
      simp only [tracedHeaders, parseHeaders]
      split
      · rfl
      · split
        · rfl
        · split
          · split
            · rfl
            · exact ih _ _
          · exact ih _ _

/-- The offsets and lengths of what `parse_elf` reads. -/
def parseReads (elfData : ElfData) : List (Nat × Nat) :=
  if elfData.bytes.length < headerSize then []
  else
    (0, headerSize) ::
      match Elf64Header.parse elfData with
      | none => []
      | some header =>
          if header.ePhnum > 4 then []
          else
            (tracedHeaders elfData header.ePhoff header.ePhentsize header.ePhnum 0 []).1.map
              fun offset => (offset, programHeaderSize)

/-- The parser returns, reads the file alone, and finds the segments that the file records. -/
structure StaysInside (elfData : ElfData) : Prop where
  returns : parseElf elfData ≠ .error .panic
  inside : ∀ read ∈ parseReads elfData, read.1 + read.2 ≤ elfData.bytes.length
  decoded : ∀ elfInfo, parseElf elfData = .ok elfInfo →
    elfInfo.segments = loadableSegments elfData.bytes

/-- The first program header lies behind the file, and its end wraps around into it. -/
def WrapsAround (bytes : List UInt8) : Prop :=
  bytes.length < phoffAt bytes ∧ 2 ^ 64 ≤ phoffAt bytes + phentsizeAt bytes ∧
    phoffAt bytes + phentsizeAt bytes - 2 ^ 64 ≤ bytes.length

/-- The first header does not wrap, and no header's entry ends inside the file while the bytes read
at it do not. -/
def HeadersFit (bytes : List UInt8) : Prop :=
  ¬WrapsAround bytes ∧
    ∀ index, index < phnumAt bytes →
      phoffAt bytes + (index + 1) * phentsizeAt bytes ≤ bytes.length →
      phoffAt bytes + index * phentsizeAt bytes + programHeaderSize ≤ bytes.length

theorem field_inside {elfData : ElfData} {offset width : Nat}
    (inside : offset + width ≤ elfData.bytes.length) :
    elfData.field offset width = fieldAt elfData.bytes offset width := by
  unfold ElfData.field fieldAt
  congr 1
  apply List.ext_getElem?
  intro index
  rw [getElem?_slice, List.getElem?_map]
  by_cases within : index < width
  · have position : offset + index < elfData.bytes.length := by omega
    rw [List.getElem?_range within, if_pos within, List.getElem?_eq_getElem position]
    simp only [Option.map_some, ElfData.byte, if_pos position, byteAt, List.getD_eq_getElem?_getD,
      List.getElem?_eq_getElem position, Option.getD_some]
  · rw [if_neg within, List.getElem?_eq_none (by simpa using within), Option.map_none]

theorem readAt_inside {elfData : ElfData} {offset : Nat}
    (inside : offset + programHeaderSize ≤ elfData.bytes.length) :
    Elf64ProgramHeader.readAt elfData offset = programHeaderAt elfData.bytes offset := by
  unfold programHeaderSize at inside
  have fields (start width : Nat) (within : start + width ≤ 56) :
      elfData.field (offset + start) width = fieldAt elfData.bytes (offset + start) width :=
    field_inside (by omega)
  unfold Elf64ProgramHeader.readAt programHeaderAt
  rw [fields 4 4 (by decide), fields 8 8 (by decide), fields 16 8 (by decide),
    fields 32 8 (by decide), fields 40 8 (by decide)]
  exact congrArg (Elf64ProgramHeader.mk · _ _ _ _ _) (fields 0 4 (by decide))

theorem fieldAt_lt (bytes : List UInt8) (offset width : Nat) :
    fieldAt bytes offset width < 256 ^ width := by
  have bound := ofLeBytes_lt (slice bytes offset width)
  have short : (slice bytes offset width).length ≤ width := by
    simp only [slice, List.length_take]
    omega
  exact Nat.lt_of_lt_of_le bound (Nat.pow_le_pow_right (by decide) short)

theorem phentsizeAt_lt (bytes : List UInt8) : phentsizeAt bytes < 2 ^ 16 :=
  fieldAt_lt bytes 54 2

theorem phoffAt_lt (bytes : List UInt8) : phoffAt bytes < 2 ^ 64 :=
  fieldAt_lt bytes 32 8

theorem Elf64Header.parse_fields {elfData : ElfData} {header : Elf64Header}
    (parsed : Elf64Header.parse elfData = some header) :
    headerSize ≤ elfData.bytes.length ∧ header.ePhoff = phoffAt elfData.bytes ∧
      header.ePhentsize = phentsizeAt elfData.bytes ∧ header.ePhnum = phnumAt elfData.bytes := by
  unfold Elf64Header.parse at parsed
  simp only at parsed
  split at parsed
  · nomatch parsed
  · rename_i long
    split at parsed
    · nomatch parsed
    · split at parsed
      · nomatch parsed
      · split at parsed
        · nomatch parsed
        · obtain rfl := Option.some.inj parsed
          unfold headerSize
          exact ⟨by omega, field_inside (by omega), field_inside (by omega),
            field_inside (by omega)⟩

/-! The loop from a start inside the file, where no sum wraps. -/

section Loop

variable {elfData : ElfData} {phoff phentsize : Nat}

def loaded (elfData : ElfData) (offset : Nat) : List ElfSegment :=
  ([Elf64ProgramHeader.readAt elfData offset].filter Elf64ProgramHeader.isLoadable).map
    Elf64ProgramHeader.segment

theorem length_loaded (elfData : ElfData) (offset : Nat) : (loaded elfData offset).length ≤ 1 := by
  rw [loaded, List.length_map]
  exact List.length_filter_le _ _

theorem straight_sum (start : phoff ≤ elfData.bytes.length) (entry : phentsize < 2 ^ 16)
    (index : Nat) (few : index ≤ 4) :
    wrap64 (phoff + index * phentsize) = phoff + index * phentsize := by
  have addressable := elfData.addressable
  have product : index * phentsize ≤ 4 * phentsize := Nat.mul_le_mul_right phentsize few
  rw [wrap64_eq]
  omega

theorem tracedHeaders_step (start : phoff ≤ elfData.bytes.length) (entry : phentsize < 2 ^ 16)
    {count index : Nat} {segments : List ElfSegment} (few : index + (count + 1) ≤ 4)
    (room : segments.length < 4) :
    tracedHeaders elfData phoff phentsize (count + 1) index segments =
      if elfData.bytes.length < phoff + (index + 1) * phentsize then
        ([], .error (.error "Program header out of bounds"))
      else
        let rest := tracedHeaders elfData phoff phentsize count (index + 1)
          (segments ++ loaded elfData (phoff + index * phentsize))
        ((phoff + index * phentsize) :: rest.1, rest.2) := by
  have first := straight_sum start entry index (by omega)
  have next := straight_sum start entry (index + 1) (by omega)
  rw [Nat.succ_mul, ← Nat.add_assoc] at next
  rw [tracedHeaders, first, next, Nat.succ_mul, ← Nat.add_assoc]
  split
  · rfl
  · rename_i inside
    rw [if_neg (by omega)]
    simp only [loaded, List.filter_cons, List.filter_nil]
    split
    · rw [if_neg (by omega)]
      rfl
    · rw [List.map_nil, List.append_nil]

theorem mem_tracedHeaders (start : phoff ≤ elfData.bytes.length) (entry : phentsize < 2 ^ 16)
    (count index : Nat) (segments : List ElfSegment) (few : index + count ≤ 4)
    (room : segments.length ≤ index) (offset : Nat) :
    offset ∈ (tracedHeaders elfData phoff phentsize count index segments).1 ↔
      ∃ position, index ≤ position ∧ position < index + count ∧
        phoff + (position + 1) * phentsize ≤ elfData.bytes.length ∧
        offset = phoff + position * phentsize := by
  induction count generalizing index segments with
  | zero =>
      refine iff_of_false List.not_mem_nil ?_
      rintro ⟨position, lower, upper, _⟩
      omega
  | succ count ih =>
      have grown := length_loaded elfData (phoff + index * phentsize)
      rw [tracedHeaders_step start entry few (by omega)]
      split
      · rename_i outside
        refine iff_of_false List.not_mem_nil ?_
        rintro ⟨position, lower, _, within, _⟩
        have later : (index + 1) * phentsize ≤ (position + 1) * phentsize :=
          Nat.mul_le_mul_right phentsize (by omega)
        omega
      · rename_i inside
        have bounded : (segments ++ loaded elfData (phoff + index * phentsize)).length ≤
            index + 1 := by
          rw [List.length_append]
          omega
        rw [List.mem_cons, ih _ _ (by omega) bounded]
        constructor
        · rintro (rfl | ⟨position, lower, upper, within, place⟩)
          · exact ⟨index, Nat.le_refl _, by omega, Nat.le_of_not_lt inside, rfl⟩
          · exact ⟨position, by omega, by omega, within, place⟩
        · rintro ⟨position, lower, upper, within, place⟩
          by_cases first : position = index
          · subst position
            exact .inl place
          · exact .inr ⟨position, by omega, by omega, within, place⟩

theorem parseHeaders_result (start : phoff ≤ elfData.bytes.length) (entry : phentsize < 2 ^ 16)
    (count index : Nat) (segments : List ElfSegment) (few : index + count ≤ 4)
    (room : segments.length ≤ index) :
    parseHeaders elfData phoff phentsize count index segments =
        .error (.error "Program header out of bounds") ∨
      (parseHeaders elfData phoff phentsize count index segments =
          .ok (segments ++ (List.range' index count).flatMap fun position =>
            loaded elfData (phoff + position * phentsize)) ∧
        ∀ position, index ≤ position → position < index + count →
          phoff + (position + 1) * phentsize ≤ elfData.bytes.length) := by
  rw [← tracedHeaders_result]
  induction count generalizing index segments with
  | zero =>
      refine .inr ⟨by simp [tracedHeaders], fun position lower upper => ?_⟩
      omega
  | succ count ih =>
      have grown := length_loaded elfData (phoff + index * phentsize)
      rw [tracedHeaders_step start entry few (by omega)]
      split
      · exact .inl rfl
      · rename_i inside
        have bounded : (segments ++ loaded elfData (phoff + index * phentsize)).length ≤
            index + 1 := by
          rw [List.length_append]
          omega
        rcases ih _ _ (by omega) bounded with failed | ⟨collected, within⟩
        · exact .inl failed
        · refine .inr ⟨?_, fun position lower upper => ?_⟩
          · rw [collected, List.range'_succ, List.flatMap_cons, List.append_assoc]
          · by_cases first : position = index
            · subst position
              exact Nat.le_of_not_lt inside
            · exact within position (by omega) (by omega)

theorem tracedHeaders_behind (start : elfData.bytes.length < phoff) (bound : phoff < 2 ^ 64)
    (phentsize count : Nat) (segments : List ElfSegment) :
    tracedHeaders elfData phoff phentsize (count + 1) 0 segments =
      ([], .error (if elfData.bytes.length < wrap64 (phoff + phentsize) then
        .error "Program header out of bounds" else .panic)) := by
  have first : wrap64 phoff = phoff := by rw [wrap64_eq, Nat.mod_eq_of_lt bound]
  rw [tracedHeaders, Nat.zero_mul, Nat.add_zero, first]
  split
  · rfl
  · rfl

end Loop

theorem wrapsAround_iff {bytes : List UInt8} (start : bytes.length < phoffAt bytes) :
    WrapsAround bytes ↔ wrap64 (phoffAt bytes + phentsizeAt bytes) ≤ bytes.length := by
  have low := phoffAt_lt bytes
  have entry := phentsizeAt_lt bytes
  rw [wrap64_eq]
  unfold WrapsAround
  omega

section Parse

variable {elfData : ElfData} {header : Elf64Header}

theorem parseReads_accepted (parsed : Elf64Header.parse elfData = some header)
    (few : phnumAt elfData.bytes ≤ 4) :
    parseReads elfData = (0, headerSize) ::
      (tracedHeaders elfData (phoffAt elfData.bytes) (phentsizeAt elfData.bytes)
        (phnumAt elfData.bytes) 0 []).1.map fun offset => (offset, programHeaderSize) := by
  obtain ⟨long, phoff, phentsize, phnum⟩ := Elf64Header.parse_fields parsed
  rw [parseReads, if_neg (Nat.not_lt_of_le long), parsed]
  simp only [phoff, phentsize, phnum]
  rw [if_neg (Nat.not_lt_of_le few)]

theorem parseElf_accepted (parsed : Elf64Header.parse elfData = some header)
    (few : phnumAt elfData.bytes ≤ 4) :
    parseElf elfData =
      match parseHeaders elfData (phoffAt elfData.bytes) (phentsizeAt elfData.bytes)
        (phnumAt elfData.bytes) 0 [] with
      | .error stop => .error stop
      | .ok segments =>
          if segments = [] then .error (.error "No loadable segments")
          else .ok ⟨header.eEntry, segments⟩ := by
  obtain ⟨_, phoff, phentsize, phnum⟩ := Elf64Header.parse_fields parsed
  rw [parseElf, parsed]
  simp only [phoff, phentsize, phnum]
  exact if_neg (Nat.not_lt_of_le few)

theorem staysInside_of_stopped {reason : String}
    (stopped : parseElf elfData = .error (.error reason))
    (inside : ∀ read ∈ parseReads elfData, read.1 + read.2 ≤ elfData.bytes.length) :
    StaysInside elfData := by
  refine ⟨?_, inside, fun elfInfo success => ?_⟩
  · rw [stopped]
    nofun
  · rw [stopped] at success
    nomatch success

theorem staysInside_of_refused (refused : Elf64Header.parse elfData = none ∨
    phnumAt elfData.bytes = 0 ∨ 4 < phnumAt elfData.bytes) : StaysInside elfData := by
  cases parsed : Elf64Header.parse elfData with
  | none =>
      have stopped : parseElf elfData = .error (.error "Invalid ELF header") := by
        rw [parseElf, parsed]
      apply staysInside_of_stopped stopped
      intro read member
      unfold parseReads at member
      rw [parsed] at member
      split at member
      · nomatch member
      · rename_i long
        rw [List.mem_singleton.mp member]
        exact Nat.le_of_not_lt long
  | some header =>
      obtain ⟨long, _, _, phnum⟩ := Elf64Header.parse_fields parsed
      rcases refused with none | zero | many
      · rw [parsed] at none
        nomatch none
      · have few : phnumAt elfData.bytes ≤ 4 := by omega
        have stopped : parseElf elfData = .error (.error "No loadable segments") := by
          rw [parseElf_accepted parsed few, zero]
          rfl
        apply staysInside_of_stopped stopped
        intro read member
        rw [parseReads_accepted parsed few, zero] at member
        rw [List.mem_singleton.mp member]
        exact long
      · have stopped : parseElf elfData = .error (.error "Too many program headers") := by
          rw [parseElf, parsed]
          exact if_pos (by rw [phnum]; exact many)
        apply staysInside_of_stopped stopped
        intro read member
        rw [parseReads, if_neg (Nat.not_lt_of_le long), parsed] at member
        simp only [phnum, gt_iff_lt, many, if_true] at member
        rw [List.mem_singleton.mp member]
        exact long

theorem parseElf_behind (parsed : Elf64Header.parse elfData = some header)
    (few : phnumAt elfData.bytes ≤ 4) (entered : phnumAt elfData.bytes ≠ 0)
    (start : elfData.bytes.length < phoffAt elfData.bytes) :
    parseElf elfData = .error
      (if elfData.bytes.length < wrap64 (phoffAt elfData.bytes + phentsizeAt elfData.bytes) then
        .error "Program header out of bounds" else .panic) := by
  obtain ⟨count, number⟩ := Nat.exists_eq_succ_of_ne_zero entered
  have result := tracedHeaders_result elfData (phoffAt elfData.bytes)
    (phentsizeAt elfData.bytes) (count + 1) 0 []
  rw [tracedHeaders_behind start (phoffAt_lt elfData.bytes)] at result
  rw [parseElf_accepted parsed few, number, ← result]

theorem staysInside_behind (parsed : Elf64Header.parse elfData = some header)
    (few : phnumAt elfData.bytes ≤ 4) (entered : phnumAt elfData.bytes ≠ 0)
    (start : elfData.bytes.length < phoffAt elfData.bytes) :
    StaysInside elfData ↔ ¬WrapsAround elfData.bytes := by
  have stopped := parseElf_behind parsed few entered start
  rw [wrapsAround_iff start, Nat.not_le]
  constructor
  · intro stays
    by_contra wraps
    rw [if_neg wraps] at stopped
    exact stays.returns stopped
  · intro far
    rw [if_pos far] at stopped
    apply staysInside_of_stopped stopped
    intro read member
    obtain ⟨count, number⟩ := Nat.exists_eq_succ_of_ne_zero entered
    rw [parseReads_accepted parsed few, number,
      tracedHeaders_behind start (phoffAt_lt elfData.bytes), List.map_nil,
      List.mem_singleton] at member
    subst member
    exact (Elf64Header.parse_fields parsed).1

theorem parseElf_within (parsed : Elf64Header.parse elfData = some header)
    (few : phnumAt elfData.bytes ≤ 4) (start : phoffAt elfData.bytes ≤ elfData.bytes.length) :
    parseElf elfData ≠ .error .panic := by
  have entry := phentsizeAt_lt elfData.bytes
  rw [parseElf_accepted parsed few]
  rcases parseHeaders_result start entry (phnumAt elfData.bytes) 0 [] (by omega)
    (Nat.le_refl _) with failed | ⟨collected, _⟩
  · rw [failed]
    nofun
  · rw [collected]
    simp only
    split <;> nofun

theorem staysInside_within (parsed : Elf64Header.parse elfData = some header)
    (few : phnumAt elfData.bytes ≤ 4) (start : phoffAt elfData.bytes ≤ elfData.bytes.length) :
    StaysInside elfData ↔ HeadersFit elfData.bytes := by
  have entry := phentsizeAt_lt elfData.bytes
  have reads := mem_tracedHeaders start entry (phnumAt elfData.bytes) 0 [] (by omega)
    (Nat.le_refl _)
  have result := parseHeaders_result start entry (phnumAt elfData.bytes) 0 [] (by omega)
    (Nat.le_refl _)
  have trace := parseReads_accepted parsed few
  have parse := parseElf_accepted parsed few
  constructor
  · intro stays
    refine ⟨fun wraps => Nat.not_lt_of_le start wraps.1, fun index below within => ?_⟩
    apply stays.inside (phoffAt elfData.bytes + index * phentsizeAt elfData.bytes,
      programHeaderSize)
    rw [trace]
    apply List.mem_cons_of_mem
    exact List.mem_map.mpr ⟨_, (reads _).mpr ⟨index, by omega, by omega, within, rfl⟩, rfl⟩
  · intro fit
    refine ⟨?_, ?_, ?_⟩
    · exact parseElf_within parsed few start
    · intro read member
      rw [trace] at member
      rcases List.mem_cons.mp member with rfl | rest
      · exact (Elf64Header.parse_fields parsed).1
      · obtain ⟨offset, found, rfl⟩ := List.mem_map.mp rest
        obtain ⟨index, _, below, within, rfl⟩ := (reads offset).mp found
        exact fit.2 index (by omega) within
    · intro elfInfo success
      rcases result with failed | ⟨collected, within⟩
      · rw [parse, failed] at success
        nomatch success
      · rw [parse, collected] at success
        simp only at success
        split at success
        · nomatch success
        · obtain rfl := Except.ok.inj success
          -- Each header that was read is the one the file records.
          have headers (index : Nat) (below : index < phnumAt elfData.bytes) :
              loaded elfData (phoffAt elfData.bytes + index * phentsizeAt elfData.bytes) =
                ([programHeaderAt elfData.bytes (phoffAt elfData.bytes +
                  index * phentsizeAt elfData.bytes)].filter
                    Elf64ProgramHeader.isLoadable).map Elf64ProgramHeader.segment := by
            have inside := fit.2 index below (within index (Nat.zero_le _) (by omega))
            rw [loaded, readAt_inside inside]
          simp only [List.nil_append, loadableSegments, programHeaders]
          rw [← List.range_eq_range', List.flatMap_congr fun index member =>
            headers index (List.mem_range.mp member), ← List.map_flatMap, ← List.filter_flatMap,
            ← List.map_eq_flatMap]

def ReadsFit (elfData : ElfData) : Prop :=
  Elf64Header.parse elfData = none ∨ phnumAt elfData.bytes = 0 ∨ 4 < phnumAt elfData.bytes ∨
    HeadersFit elfData.bytes

/-- The parser stays inside its input exactly when the program headers it reads fit. -/
theorem parser_inside_iff (elfData : ElfData) : StaysInside elfData ↔ ReadsFit elfData := by
  by_cases refused : Elf64Header.parse elfData = none ∨ phnumAt elfData.bytes = 0 ∨
      4 < phnumAt elfData.bytes
  · refine iff_of_true (staysInside_of_refused refused) ?_
    rcases refused with none | zero | many
    · exact .inl none
    · exact .inr (.inl zero)
    · exact .inr (.inr (.inl many))
  · obtain ⟨accepted, entered, few⟩ := not_or.mp refused |>.imp_right not_or.mp
    obtain ⟨header, parsed⟩ := Option.ne_none_iff_exists'.mp accepted
    have reduced : ReadsFit elfData ↔ HeadersFit elfData.bytes := by
      simp [ReadsFit, accepted, entered, few]
    rw [reduced]
    by_cases start : phoffAt elfData.bytes ≤ elfData.bytes.length
    · exact staysInside_within parsed (Nat.le_of_not_lt few) start
    · have behind := Nat.lt_of_not_le start
      rw [staysInside_behind parsed (Nat.le_of_not_lt few) entered behind]
      refine ⟨fun straight => ⟨straight, fun index _ within => ?_⟩, fun fit => fit.1⟩
      omega

/-- The parser panics exactly when it enters the loop and the end of the first header wraps. -/
theorem parseElf_panics_iff (elfData : ElfData) : parseElf elfData = .error .panic ↔
    Elf64Header.parse elfData ≠ none ∧ phnumAt elfData.bytes ≠ 0 ∧ phnumAt elfData.bytes ≤ 4 ∧
      WrapsAround elfData.bytes := by
  by_cases refused : Elf64Header.parse elfData = none ∨ phnumAt elfData.bytes = 0 ∨
      4 < phnumAt elfData.bytes
  · refine iff_of_false (staysInside_of_refused refused).returns ?_
    rintro ⟨accepted, entered, few, _⟩
    rcases refused with none | zero | many
    · exact accepted none
    · exact entered zero
    · omega
  · obtain ⟨accepted, entered, many⟩ := not_or.mp refused |>.imp_right not_or.mp
    obtain ⟨header, parsed⟩ := Option.ne_none_iff_exists'.mp accepted
    have few := Nat.le_of_not_lt many
    rcases Nat.lt_or_ge elfData.bytes.length (phoffAt elfData.bytes) with start | start
    · rw [parseElf_behind parsed few entered start, wrapsAround_iff start]
      split
      · rename_i far
        exact iff_of_false nofun fun wraps => Nat.not_le_of_lt far wraps.2.2.2
      · rename_i near
        exact iff_of_true rfl ⟨accepted, entered, few, Nat.le_of_not_lt near⟩
    · refine iff_of_false (parseElf_within parsed few start) fun panics => ?_
      exact Nat.not_lt_of_ge start panics.2.2.2.1

end Parse

/-- The header of `oneByteElf` alone, with an `e_phentsize` of zero. -/
def emptyEntryElf : ElfData :=
  ⟨((elfFile 0x400000 1 [7]).take headerSize).set 54 0, fun _ => 0, by decide⟩

/-- The one program header starts where the file ends, and its 56 bytes lie behind it. -/
theorem emptyEntry_read_outside : ¬StaysInside emptyEntryElf := by
  obtain ⟨header, parsed⟩ : ∃ header, Elf64Header.parse emptyEntryElf = some header := ⟨_, rfl⟩
  rw [staysInside_within parsed (by decide) (by decide)]
  intro fit
  have outside := fit.2 0 (by decide) (by decide)
  exact absurd outside (by decide)

end ArcadiaOs.Process
