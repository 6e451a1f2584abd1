import ArcadiaOs.Fs.VfsCore

/-!
`String::from_utf8_lossy` on names.  A first byte fixes the ranges of the bytes that follow it; the
lossy reading keeps what is well formed, is stable under itself and does not mix with
the case of ASCII letters.
-/

namespace ArcadiaOs.Fs

/-- The ranges of the bytes behind a first byte; none for a byte that starts nothing. -/
def utf8Ranges (first : UInt8) : Option (List (UInt8 × UInt8)) :=
  if first < 0x80 then some []
  else if first < 0xC2 then none
  else if first < 0xE0 then some [(0x80, 0xBF)]
  else if first = 0xE0 then some [(0xA0, 0xBF), (0x80, 0xBF)]
  else if first = 0xED then some [(0x80, 0x9F), (0x80, 0xBF)]
  else if first < 0xF0 then some [(0x80, 0xBF), (0x80, 0xBF)]
  else if first = 0xF0 then some [(0x90, 0xBF), (0x80, 0xBF), (0x80, 0xBF)]
  else if first < 0xF4 then some [(0x80, 0xBF), (0x80, 0xBF), (0x80, 0xBF)]
  else if first = 0xF4 then some [(0x80, 0x8F), (0x80, 0xBF), (0x80, 0xBF)]
  else none

def matchRanges : List (UInt8 × UInt8) → List UInt8 → Nat
  | [], _ => 0
  | _, [] => 0
  | range :: ranges, byte :: rest =>
      if range.1 ≤ byte && byte ≤ range.2 then matchRanges ranges rest + 1 else 0

def inRange (rest : List UInt8) (index : Nat) (range : UInt8 × UInt8) : Bool :=
  match rest[index]? with
  | some byte => range.1 ≤ byte && byte ≤ range.2
  | none => false

theorem matchRanges_cons (range : UInt8 × UInt8) (ranges : List (UInt8 × UInt8))
    (rest : List UInt8) : matchRanges (range :: ranges) rest =
      if inRange rest 0 range then matchRanges ranges rest.tail + 1 else 0 := by
  cases rest with
  | nil => rfl
  | cons byte rest => rfl

theorem inRange_tail (rest : List UInt8) (index : Nat) (range : UInt8 × UInt8) :
    inRange rest.tail index range = inRange rest (index + 1) range := by
  cases rest with
  | nil => rfl
  | cons byte rest => rfl

theorem matchRanges_nil (rest : List UInt8) : matchRanges [] rest = 0 := by
  cases rest <;> rfl

theorem match_one (rest : List UInt8) (range : UInt8 × UInt8) :
    (if inRange rest 0 range then (1, true) else (0, false)) =
      (matchRanges [range] rest, decide (matchRanges [range] rest = 1)) := by
  rw [matchRanges_cons, matchRanges_nil]
  cases inRange rest 0 range <;> rfl

theorem match_two (rest : List UInt8) (first second : UInt8 × UInt8) :
    (if !inRange rest 0 first then (0, false)
      else if !inRange rest 1 second then (1, false)
      else (2, true)) =
      (matchRanges [first, second] rest, decide (matchRanges [first, second] rest = 2)) := by
  rw [matchRanges_cons, matchRanges_cons, matchRanges_nil, inRange_tail]
  cases inRange rest 0 first <;> cases inRange rest 1 second <;> rfl

theorem match_three (rest : List UInt8) (first second third : UInt8 × UInt8) :
    (if !inRange rest 0 first then (0, false)
      else if !inRange rest 1 second then (1, false)
      else if !inRange rest 2 third then (2, false)
      else (3, true)) =
      (matchRanges [first, second, third] rest,
        decide (matchRanges [first, second, third] rest = 3)) := by
  rw [matchRanges_cons, matchRanges_cons, matchRanges_cons, matchRanges_nil, inRange_tail,
    inRange_tail, inRange_tail]
  cases inRange rest 0 first <;> cases inRange rest 1 second <;>
    cases inRange rest 2 third <;> rfl

theorem utf8Sequence_eq (first : UInt8) (rest : List UInt8) : utf8Sequence first rest =
    match utf8Ranges first with
    | none => (0, false)
    | some ranges => (matchRanges ranges rest, matchRanges ranges rest = ranges.length) := by
  unfold utf8Sequence utf8Ranges
  by_cases ascii : first < 0x80
  · simp only [ascii, if_true, matchRanges_nil]
    rfl
  by_cases stray : first < 0xC2
  · simp only [ascii, stray, if_true, if_false]
  by_cases two : first < 0xE0
  · simp only [ascii, stray, two, if_true, if_false]
    exact match_one rest (0x80, 0xBF)
  by_cases e0 : first = 0xE0
  · subst e0
    exact match_two rest (0xA0, 0xBF) (0x80, 0xBF)
  by_cases ed : first = 0xED
  · subst ed
    exact match_two rest (0x80, 0x9F) (0x80, 0xBF)
  by_cases three : first < 0xF0
  · simp only [ascii, stray, two, e0, ed, three, if_true, if_false]
    exact match_two rest (0x80, 0xBF) (0x80, 0xBF)
  by_cases f0 : first = 0xF0
  · subst f0
    exact match_three rest (0x90, 0xBF) (0x80, 0xBF) (0x80, 0xBF)
  by_cases four : first < 0xF4
  · simp only [ascii, stray, two, e0, ed, three, f0, four, if_true, if_false]
    exact match_three rest (0x80, 0xBF) (0x80, 0xBF) (0x80, 0xBF)
  by_cases f4 : first = 0xF4
  · subst f4
    exact match_three rest (0x80, 0x8F) (0x80, 0xBF) (0x80, 0xBF)
  · simp only [ascii, stray, two, e0, ed, three, f0, four, f4, if_false]

theorem matchRanges_le (ranges : List (UInt8 × UInt8)) (rest : List UInt8) :
    matchRanges ranges rest ≤ rest.length := by
  induction ranges generalizing rest with
  | nil => rw [matchRanges_nil]; exact Nat.zero_le _
  | cons range ranges ih =>
      cases rest with
      | nil => exact Nat.le_refl 0
      | cons byte rest =>
          have later := ih rest
          rw [matchRanges]
          split
          · rw [List.length_cons]
            omega
          · exact Nat.zero_le _

theorem utf8Sequence_le (first : UInt8) (rest : List UInt8) :
    (utf8Sequence first rest).1 ≤ rest.length := by
  rw [utf8Sequence_eq]
  cases utf8Ranges first with
  | none => exact Nat.zero_le _
  | some ranges => exact matchRanges_le ranges rest

theorem matchRanges_whole (ranges : List (UInt8 × UInt8)) (rest more : List UInt8)
    (whole : matchRanges ranges rest = ranges.length) :
    matchRanges ranges (rest.take ranges.length ++ more) = ranges.length := by
  induction ranges generalizing rest with
  | nil => exact matchRanges_nil _
  | cons range ranges ih =>
      cases rest with
      | nil => cases whole
      | cons byte rest =>
          rw [matchRanges] at whole
          split at whole
          · rename_i inside
            have later := ih rest (Nat.succ.inj whole)
            rw [List.length_cons, List.take_succ_cons, List.cons_append, matchRanges, if_pos inside,
              later]
          · cases whole

theorem utf8Sequence_whole {first : UInt8} {rest : List UInt8}
    (valid : (utf8Sequence first rest).2 = true) (more : List UInt8) :
    utf8Sequence first (rest.take (utf8Sequence first rest).1 ++ more) =
      ((utf8Sequence first rest).1, true) := by
  rw [utf8Sequence_eq first rest] at valid ⊢
  rw [utf8Sequence_eq]
  cases known : utf8Ranges first with
  | none =>
      rw [known] at valid
      cases valid
  | some ranges =>
      rw [known] at valid
      have whole : matchRanges ranges rest = ranges.length := by simpa using valid
      simp only [whole, matchRanges_whole ranges rest more whole, decide_true]

theorem fromUtf8LossyTurns_congr (turns others : Nat) (bytes : List UInt8)
    (enough : bytes.length ≤ turns) (enoughOthers : bytes.length ≤ others) :
    fromUtf8LossyTurns turns bytes = fromUtf8LossyTurns others bytes := by
  induction turns generalizing others bytes with
  | zero =>
      have empty := List.length_eq_zero_iff.mp (Nat.le_zero.mp enough)
      subst empty
      cases others <;> rfl
  | succ turns ih =>
      cases bytes with
      | nil => cases others <;> rfl
      | cons first rest =>
          cases others with
          | zero => cases enoughOthers
          | succ others =>
              have short := List.length_drop (i := (utf8Sequence first rest).1) (l := rest)
              simp only [List.length_cons] at enough enoughOthers
              simp only [fromUtf8LossyTurns]
              rw [ih others _ (by omega) (by omega)]

theorem fromUtf8Lossy_cons (first : UInt8) (rest : List UInt8) : fromUtf8Lossy (first :: rest) =
    (if (utf8Sequence first rest).2 then first :: rest.take (utf8Sequence first rest).1
      else [0xEF, 0xBF, 0xBD]) ++ fromUtf8Lossy (rest.drop (utf8Sequence first rest).1) := by
  have short : (rest.drop (utf8Sequence first rest).1).length ≤ rest.length :=
    Nat.le_trans (Nat.le_of_eq List.length_drop) (Nat.sub_le _ _)
  have later := fromUtf8LossyTurns_congr rest.length _ _ short (Nat.le_refl _)
  exact congrArg (_ ++ ·) later

theorem fromUtf8Lossy_whole {first : UInt8} {rest : List UInt8}
    (valid : (utf8Sequence first rest).2 = true) (more : List UInt8) :
    fromUtf8Lossy (first :: rest.take (utf8Sequence first rest).1 ++ more) =
      first :: rest.take (utf8Sequence first rest).1 ++ fromUtf8Lossy more := by
  have size : (rest.take (utf8Sequence first rest).1).length = (utf8Sequence first rest).1 := by
    rw [List.length_take, Nat.min_eq_left (utf8Sequence_le first rest)]
  rw [List.cons_append, fromUtf8Lossy_cons, utf8Sequence_whole valid more, if_pos rfl]
  rw [List.take_left' size, List.drop_left' size]

theorem fromUtf8Lossy_replacement (more : List UInt8) :
    fromUtf8Lossy ([0xEF, 0xBF, 0xBD] ++ more) = [0xEF, 0xBF, 0xBD] ++ fromUtf8Lossy more :=
  fromUtf8Lossy_cons 0xEF (0xBF :: 0xBD :: more)

/-- Induction over the sequences that the lossy reading takes. -/
theorem sequence_induction {motive : List UInt8 → Prop} (nil : motive [])
    (cons : ∀ first rest, motive (rest.drop (utf8Sequence first rest).1) → motive (first :: rest))
    (bytes : List UInt8) : motive bytes := by
  generalize size : bytes.length = length
  induction length using Nat.strongRecOn generalizing bytes with
  | ind length ih =>
      cases bytes with
      | nil => exact nil
      | cons first rest =>
          apply cons
          refine ih _ ?_ _ rfl
          rw [← size, List.length_drop, List.length_cons]
          omega

theorem fromUtf8Lossy_idem (bytes : List UInt8) :
    fromUtf8Lossy (fromUtf8Lossy bytes) = fromUtf8Lossy bytes := by
  induction bytes using sequence_induction with
  | nil => rfl
  | cons first rest ih =>
      rw [fromUtf8Lossy_cons]
      cases valid : (utf8Sequence first rest).2 with
      | true => rw [if_pos rfl, fromUtf8Lossy_whole valid, ih]
      | false => rw [if_neg Bool.false_ne_true, fromUtf8Lossy_replacement, ih]

/-! The case of letters. -/

/-- A map that moves ASCII bytes among themselves and keeps the others. -/
structure AsciiMap (convert : UInt8 → UInt8) : Prop where
  ascii : ∀ byte, byte < 0x80 → convert byte < 0x80
  other : ∀ byte, ¬byte < 0x80 → convert byte = byte

theorem utf8Ranges_high {first : UInt8} {ranges : List (UInt8 × UInt8)}
    (known : utf8Ranges first = some ranges) : ∀ range ∈ ranges, 0x80 ≤ range.1 := by
  unfold utf8Ranges at known
  repeat' split at known
  all_goals
    first
      | (injection known with same; subst same; simp)
      | cases known

theorem AsciiMap.ranges {convert : UInt8 → UInt8} (mapped : AsciiMap convert) (first : UInt8) :
    utf8Ranges (convert first) = utf8Ranges first := by
  by_cases ascii : first < 0x80
  · rw [utf8Ranges, if_pos (mapped.ascii first ascii), utf8Ranges, if_pos ascii]
  · rw [mapped.other first ascii]

theorem AsciiMap.matchRanges {convert : UInt8 → UInt8} (mapped : AsciiMap convert)
    {ranges : List (UInt8 × UInt8)} (high : ∀ range ∈ ranges, 0x80 ≤ range.1) (rest : List UInt8) :
    matchRanges ranges (rest.map convert) = matchRanges ranges rest := by
  induction ranges generalizing rest with
  | nil => rw [matchRanges_nil, matchRanges_nil]
  | cons range ranges ih =>
      cases rest with
      | nil => rfl
      | cons byte rest =>
          have low := high range List.mem_cons_self
          have later := ih (fun other member => high other (List.mem_cons_of_mem _ member)) rest
          rw [List.map_cons, Fs.matchRanges, Fs.matchRanges, later]
          by_cases ascii : byte < 0x80
          · have below := mapped.ascii byte ascii
            have outside (letter : UInt8) (small : letter < 0x80) :
                ¬(decide (range.1 ≤ letter) && decide (letter ≤ range.2)) = true := by
              rw [Bool.and_eq_true, decide_eq_true_eq]
              rintro ⟨lower, _⟩
              exact UInt8.lt_irrefl _ (UInt8.lt_of_le_of_lt (UInt8.le_trans low lower) small)
            rw [if_neg (outside _ below), if_neg (outside _ ascii)]
          · rw [mapped.other byte ascii]

theorem AsciiMap.sequence {convert : UInt8 → UInt8} (mapped : AsciiMap convert) (first : UInt8)
    (rest : List UInt8) :
    utf8Sequence (convert first) (rest.map convert) = utf8Sequence first rest := by
  rw [utf8Sequence_eq, utf8Sequence_eq, mapped.ranges]
  cases known : utf8Ranges first with
  | none => rfl
  | some ranges => simp only [mapped.matchRanges (utf8Ranges_high known)]

theorem AsciiMap.fromUtf8Lossy {convert : UInt8 → UInt8} (mapped : AsciiMap convert)
    (bytes : List UInt8) :
    fromUtf8Lossy (bytes.map convert) = (fromUtf8Lossy bytes).map convert := by
  induction bytes using sequence_induction with
  | nil => rfl
  | cons first rest ih =>
      rw [List.map_cons, fromUtf8Lossy_cons, fromUtf8Lossy_cons, mapped.sequence, ← List.map_drop,
        ih, List.map_append]
      congr 1
      split
      · rw [List.map_cons, List.map_take]
      · simp only [List.map_cons, List.map_nil]
        rw [mapped.other 0xEF (by decide), mapped.other 0xBF (by decide),
          mapped.other 0xBD (by decide)]

theorem asciiLower_map : AsciiMap asciiLower := by
  constructor
  · intro byte small
    rw [asciiLower]
    split <;> grind
  · intro byte large
    rw [asciiLower, if_neg]
    grind

theorem asciiUpper_map : AsciiMap asciiUpper := by
  constructor
  · intro byte small
    rw [asciiUpper]
    split <;> grind
  · intro byte large
    rw [asciiUpper, if_neg]
    grind

theorem asciiUpper_idem (byte : UInt8) : asciiUpper (asciiUpper byte) = asciiUpper byte := by
  simp only [asciiUpper]
  grind

theorem asciiUpper_lower (byte : UInt8) : asciiUpper (asciiLower byte) = asciiUpper byte := by
  simp only [asciiUpper, asciiLower]
  grind

/-! ASCII names. -/

theorem utf8Sequence_ascii {first : UInt8} (ascii : first < 0x80) (rest : List UInt8) :
    utf8Sequence first rest = (0, true) := by
  rw [utf8Sequence_eq, utf8Ranges, if_pos ascii]
  simp only [matchRanges_nil, List.length_nil, decide_true]

theorem fromUtf8Lossy_ascii {bytes : List UInt8} (ascii : ∀ byte ∈ bytes, byte < 0x80) :
    fromUtf8Lossy bytes = bytes := by
  induction bytes with
  | nil => rfl
  | cons first rest ih =>
      have later := ih fun byte member => ascii byte (List.mem_cons_of_mem _ member)
      rw [fromUtf8Lossy_cons, utf8Sequence_ascii (ascii first List.mem_cons_self)]
      simp only [if_true, List.take_zero, List.drop_zero, List.cons_append, List.nil_append, later]

theorem eq_of_fromUtf8Lossy_ascii {bytes : List UInt8}
    (ascii : ∀ byte ∈ fromUtf8Lossy bytes, byte < 0x80) : fromUtf8Lossy bytes = bytes := by
  induction bytes using sequence_induction with
  | nil => rfl
  | cons first rest ih =>
      rw [fromUtf8Lossy_cons] at ascii ⊢
      cases valid : (utf8Sequence first rest).2 with
      | false =>
          rw [valid] at ascii
          have replaced := ascii 0xEF (by simp)
          exact absurd replaced (by decide)
      | true =>
          rw [valid] at ascii
          have later := ih fun byte member => ascii byte (List.mem_append_right _ member)
          rw [if_pos rfl, later, List.cons_append, List.take_append_drop]

theorem fromUtf8Lossy_eq_ascii_iff {bytes name : List UInt8} (ascii : ∀ byte ∈ name, byte < 0x80) :
    fromUtf8Lossy bytes = name ↔ bytes = name := by
  constructor
  · rintro rfl
    exact (eq_of_fromUtf8Lossy_ascii ascii).symm
  · rintro rfl
    exact fromUtf8Lossy_ascii ascii

end ArcadiaOs.Fs
