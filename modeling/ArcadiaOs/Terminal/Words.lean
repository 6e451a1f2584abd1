import ArcadiaOs.Terminal.ShellCore

/-!
The words of a line and their bytes.  Words hold no white space, joined they are no longer than the
line, and their bytes are printed as they are exactly when they are all ASCII.
-/

namespace ArcadiaOs.Terminal

open Lib Fs

@[simp] theorem encode_nil : encode [] = [] := rfl

@[simp] theorem encode_cons (char : Char) (rest : Line) :
    encode (char :: rest) = String.utf8EncodeChar char ++ encode rest := rfl

theorem encode_append (front back : Line) : encode (front ++ back) = encode front ++ encode back :=
  List.flatMap_append

theorem encodeChar_bytes (char : Char) :
    char.toNat < 0x80 ∧ String.utf8EncodeChar char = [UInt8.ofNat char.toNat] ∨
      0x80 ≤ char.toNat ∧ 2 ≤ (String.utf8EncodeChar char).length ∧
        ∀ byte ∈ String.utf8EncodeChar char, 0x80 ≤ byte.toNat := by
  simp only [Char.toNat, String.utf8EncodeChar]
  split
  · exact .inl ⟨by omega, rfl⟩
  right
  refine ⟨by omega, ?_⟩
  split
  · refine ⟨le_rfl, ?_⟩
    simp only [List.mem_cons, List.not_mem_nil, or_false]
    rintro byte (rfl | rfl) <;> rw [UInt8.toNat_ofNat'] <;> omega
  split
  · refine ⟨by simp, ?_⟩
    simp only [List.mem_cons, List.not_mem_nil, or_false]
    rintro byte (rfl | rfl | rfl) <;> rw [UInt8.toNat_ofNat'] <;> omega
  · refine ⟨by simp, ?_⟩
    simp only [List.mem_cons, List.not_mem_nil, or_false]
    rintro byte (rfl | rfl | rfl | rfl) <;> rw [UInt8.toNat_ofNat'] <;> omega

theorem encodeChar_pos (char : Char) : 1 ≤ (String.utf8EncodeChar char).length := by
  rcases encodeChar_bytes char with ⟨_, same⟩ | ⟨_, length, _⟩
  · rw [same]
    exact le_rfl
  · omega

theorem encode_sublist {front line : Line} (sublist : front.Sublist line) :
    (encode front).length ≤ (encode line).length := by
  induction sublist with
  | slnil => exact le_rfl
  | cons _ _ ih =>
      rw [encode_cons, List.length_append]
      omega
  | cons_cons _ _ ih =>
      rw [encode_cons, encode_cons, List.length_append, List.length_append]
      omega

theorem encode_ascii {line : Line} {byte : UInt8} (member : byte ∈ encode line)
    (ascii : byte.toNat < 0x80) : ∃ char ∈ line, char.toNat = byte.toNat := by
  obtain ⟨char, inside, among⟩ := List.mem_flatMap.mp member
  refine ⟨char, inside, ?_⟩
  rcases encodeChar_bytes char with ⟨small, same⟩ | ⟨_, _, large⟩
  · rw [same, List.mem_singleton] at among
    rw [among, UInt8.toNat_ofNat', Nat.mod_eq_of_lt (by omega)]
  · have high := large byte among
    omega

/-! White space. -/

theorem trim_sublist (line : Line) : (trim line).Sublist line := by
  rw [trim]
  have inner := List.dropWhile_sublist (l := (line.dropWhile isWhitespace).reverse) isWhitespace
  have outer := List.reverse_sublist.mpr inner
  rw [List.reverse_reverse] at outer
  exact outer.trans (List.dropWhile_sublist isWhitespace)

theorem trim_last {line : Line} (some : trim line ≠ []) :
    ∃ char ∈ trim line, isWhitespace char = false := by
  have reversed : (line.dropWhile isWhitespace).reverse.dropWhile isWhitespace ≠ [] := by
    rw [trim] at some
    exact fun none => some (List.reverse_eq_nil_iff.mpr none)
  refine ⟨_, ?_, List.head_dropWhile_not isWhitespace reversed⟩
  rw [trim, List.mem_reverse]
  exact List.head_mem reversed

theorem pieces_ne_nil (line : Line) : pieces line ≠ [] := by
  cases line with
  | nil => exact List.cons_ne_nil _ _
  | cons char rest =>
      rw [pieces]
      split
      · exact List.cons_ne_nil _ _
      · split <;> exact List.cons_ne_nil _ _

theorem pieces_space {char : Char} (space : isWhitespace char = true) (rest : Line) :
    pieces (char :: rest) = [] :: pieces rest := by
  rw [pieces, if_pos space]

theorem pieces_char {char : Char} (other : isWhitespace char = false) (rest : Line) :
    ∃ first others, pieces rest = first :: others ∧
      pieces (char :: rest) = (char :: first) :: others := by
  obtain ⟨first, others, same⟩ := List.exists_cons_of_ne_nil (pieces_ne_nil rest)
  refine ⟨first, others, same, ?_⟩
  rw [pieces, if_neg (by rw [other]; exact Bool.false_ne_true), same]

theorem mem_pieces (line : Line) (char : Char) :
    (∃ piece ∈ pieces line, char ∈ piece) ↔ char ∈ line ∧ isWhitespace char = false := by
  induction line with
  | nil => simp [pieces]
  | cons head rest ih =>
      cases space : isWhitespace head with
      | true =>
          simp only [pieces_space space, List.mem_cons, exists_eq_or_imp, List.not_mem_nil, false_or,
            ih]
          grind
      | false =>
          obtain ⟨first, others, same, whole⟩ := pieces_char space rest
          rw [same] at ih
          simp only [whole, List.mem_cons, exists_eq_or_imp] at ih ⊢
          grind

theorem word_facts {line word : Line} (member : word ∈ splitWhitespace line) :
    word ≠ [] ∧ ∀ char ∈ word, isWhitespace char = false := by
  rw [splitWhitespace, List.mem_filter, decide_eq_true_eq] at member
  exact ⟨member.2, fun char inside => ((mem_pieces line char).mp ⟨word, member.1, inside⟩).2⟩

theorem splitWhitespace_trim {line : Line} (some : trim line ≠ []) :
    splitWhitespace (trim line) ≠ [] := by
  obtain ⟨char, inside, other⟩ := trim_last some
  obtain ⟨piece, member, within⟩ := (mem_pieces _ char).mpr ⟨inside, other⟩
  have word : piece ∈ splitWhitespace (trim line) := by
    rw [splitWhitespace, List.mem_filter, decide_eq_true_eq]
    exact ⟨member, List.ne_nil_of_mem within⟩
  exact List.ne_nil_of_mem word

/-! Lengths. -/

/-- The bytes of the words and one for each. -/
def weight (words : List Line) : Nat := (words.map fun word => (encode word).length + 1).sum

theorem weight_pieces (line : Line) : weight (pieces line) ≤ (encode line).length + 1 := by
  induction line with
  | nil => exact le_rfl
  | cons char rest ih =>
      have pos := encodeChar_pos char
      rw [encode_cons, List.length_append]
      cases space : isWhitespace char with
      | true =>
          rw [pieces_space space]
          simp only [weight, List.map_cons, List.sum_cons, encode_nil, List.length_nil] at ih ⊢
          omega
      | false =>
          obtain ⟨first, others, same, whole⟩ := pieces_char space rest
          rw [same] at ih
          rw [whole]
          simp only [weight, List.map_cons, List.sum_cons, encode_cons, List.length_append] at ih ⊢
          omega

theorem weight_filter (keep : Line → Bool) (words : List Line) :
    weight (words.filter keep) ≤ weight words := by
  induction words with
  | nil => exact le_rfl
  | cons word rest ih =>
      rw [List.filter_cons]
      simp only [weight] at ih ⊢
      split <;> simp only [List.map_cons, List.sum_cons] <;> omega

theorem weight_words (line : Line) : weight (splitWhitespace line) ≤ (encode line).length + 1 :=
  (weight_filter _ _).trans (weight_pieces line)

theorem length_join (words : List Line) :
    (join (words.map encode)).length ≤ weight words := by
  induction words with
  | nil => exact Nat.zero_le _
  | cons word rest ih =>
      cases rest with
      | nil => simp [join, weight]
      | cons next more =>
          simp only [join, weight, List.map_cons, List.intercalate_cons_cons, List.length_append,
            List.length_singleton, List.sum_cons] at ih ⊢
          omega

theorem length_join_words {line cmd path : Line} {words : List Line}
    (split : splitWhitespace (trim line) = cmd :: path :: words) :
    (join (words.map encode)).length ≤ (encode line).length := by
  have all := weight_words (trim line)
  have shorter := encode_sublist (trim_sublist line)
  have joined := length_join words
  rw [split] at all
  simp only [weight, List.map_cons, List.sum_cons] at all joined
  omega

/-! What `cat` prints. -/

theorem mem_join {args : List Path} {byte : UInt8} (member : byte ∈ join args) :
    byte = 0x20 ∨ ∃ arg ∈ args, byte ∈ arg := by
  induction args with
  | nil => cases member
  | cons arg rest ih =>
      cases rest with
      | nil => exact .inr ⟨arg, List.mem_cons_self, by simpa [join] using member⟩
      | cons next more =>
          rw [join, List.intercalate_cons_cons, List.append_assoc, List.mem_append,
            List.mem_append, List.mem_singleton] at member
          rcases member with inside | rfl | later
          · exact .inr ⟨arg, List.mem_cons_self, inside⟩
          · exact .inl rfl
          · rcases ih later with space | ⟨other, among, inside⟩
            · exact .inl space
            · exact .inr ⟨other, List.mem_cons_of_mem _ among, inside⟩

theorem join_plain {words : List Line}
    (plain : ∀ word ∈ words, ∀ char ∈ word, isWhitespace char = false) :
    0x0D ∉ join (words.map encode) ∧ 0x0A ∉ join (words.map encode) := by
  have none : ∀ byte : UInt8, byte ≠ 0x20 → byte.toNat < 0x80 →
      isWhitespace (Char.ofNat byte.toNat) = true → byte ∉ join (words.map encode) := by
    intro byte other ascii space member
    rcases mem_join member with rfl | ⟨arg, among, inside⟩
    · exact other rfl
    · obtain ⟨word, listed, rfl⟩ := List.mem_map.mp among
      obtain ⟨char, within, same⟩ := encode_ascii inside ascii
      rw [← same, Char.ofNat_toNat] at space
      rw [plain word listed char within] at space
      cases space
  exact ⟨none _ (by decide) (by decide) (by decide), none _ (by decide) (by decide) (by decide)⟩

theorem latin_number (byte : UInt8) : (Char.ofNat byte.toNat).toNat = byte.toNat := by
  have bound := byte.toNat_lt
  rw [Char.ofNat, dif_pos (.inl (by omega))]
  rfl

theorem latin_bytes (byte : UInt8) :
    byte.toNat < 0x80 ∧ String.utf8EncodeChar (Char.ofNat byte.toNat) = [byte] ∨
      0x80 ≤ byte.toNat ∧ 2 ≤ (String.utf8EncodeChar (Char.ofNat byte.toNat)).length := by
  have number := latin_number byte
  rcases encodeChar_bytes (Char.ofNat byte.toNat) with ⟨small, same⟩ | ⟨large, length, _⟩
  · rw [number] at small same
    exact .inl ⟨small, by rw [same, UInt8.ofNat_toNat]⟩
  · rw [number] at large
    exact .inr ⟨large, length⟩

/-- Bytes come out as they are exactly when all of them are ASCII. -/
theorem latin_iff (data : List UInt8) :
    data.length ≤ (encode (data.map fun byte => Char.ofNat byte.toNat)).length ∧
    (encode (data.map fun byte => Char.ofNat byte.toNat) = data ↔
      ∀ byte ∈ data, byte.toNat < 0x80) := by
  induction data with
  | nil => simp
  | cons byte rest ih =>
      obtain ⟨length, same⟩ := ih
      rw [List.map_cons, encode_cons, List.length_append, List.length_cons, List.forall_mem_cons]
      rcases latin_bytes byte with ⟨ascii, single⟩ | ⟨high, double⟩
      · rw [single, List.singleton_append, List.cons.injEq, eq_self_iff_true, true_and, same]
        refine ⟨?_, ?_⟩
        · rw [List.length_singleton]
          omega
        · exact (and_iff_right ascii).symm
      · refine ⟨by omega, iff_of_false (fun equal => ?_) fun all => by omega⟩
        have lengths := congrArg List.length equal
        rw [List.length_append, List.length_cons] at lengths
        omega

theorem catText_join {words : List Line}
    (plain : ∀ word ∈ words, ∀ char ∈ word, isWhitespace char = false) :
    catText (join (words.map encode)) = println (join (words.map encode)) ↔
      ∀ byte ∈ join (words.map encode), byte.toNat < 0x80 := by
  obtain ⟨noReturn, noEnd⟩ := join_plain plain
  have all : (join (words.map encode)).filter (· ≠ 0x0D) = join (words.map encode) := by
    refine List.filter_eq_self.mpr fun byte member => decide_eq_true fun same => ?_
    exact noReturn (same ▸ member)
  have last : (join (words.map encode)).getLast? ≠ some 0x0A :=
    fun same => noEnd (List.mem_of_getLast? same)
  rw [catText, println, all, if_neg last, List.append_left_inj]
  exact (latin_iff _).2

end ArcadiaOs.Terminal
