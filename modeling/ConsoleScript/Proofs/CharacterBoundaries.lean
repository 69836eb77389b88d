import ConsoleScript.Proofs.FrontEnds
import ConsoleScript.Proofs.TokenLanguages

/-! # Tokens and the boundaries of characters

The lexer reads bytes, but almost everywhere it stops between two characters: a piece ends with an
ASCII byte, with a whole letter, or before a byte that continues no character.

* **`Bytes.IsEncoded`** — the bytes of one character, of which the first alone is no continuation
  byte. Well-formed text is made of them (`Bytes.isUtf8_iff_flatten`), so it can be split before
  every byte that continues no character (`Bytes.isUtf8_split`);
* **`Bytes.Boundary`** — an offset between two characters;
* **`Piece.keeps_first`** — one step of the lexer keeps characters whole, with one exception. The
  rest of a malformed number is taken byte by byte as long as a letter stands at the front, so of a
  letter above the ASCII range only the first byte is taken, and the others make the next piece;
* **`Piece.AllKept`**, **`pieces_allKept`** — the same for all pieces of a text.

`characters_kept` puts these together, and `letter_split` is the shortest source with a letter that
is split. -/

namespace ConsoleScript

namespace Bytes

/-! ## Encoded characters -/

/-- The bytes of one character. -/
def IsEncoded (unit : Bytes) : Prop :=
  ∃ scalar, scalar? unit = some (scalar, unit.length)

/-- ASCII bytes throughout. -/
def AllAscii (text : Bytes) : Prop :=
  ∀ byte ∈ text, byte < 0x80

instance (text : Bytes) : Decidable (AllAscii text) :=
  inferInstanceAs (Decidable (∀ byte ∈ text, byte < 0x80))

/-- A byte of the ASCII range is a character. -/
theorem isEncoded_ascii {byte : UInt8} (low : byte < 0x80) : IsEncoded [byte] :=
  ⟨byte.toNat, by simp [scalar?, low]⟩

/-- No character starts with a continuation byte. -/
theorem scalar?_of_isTrail {byte : UInt8} (trail : isTrail byte = true) (rest : Bytes) :
    scalar? (byte :: rest) = none := by
  simp only [isTrail, Bool.and_eq_true, decide_eq_true_eq, UInt8.le_iff_toNat_le] at trail
  simp only [scalar?, UInt8.lt_iff_toNat_lt, UInt8.le_iff_toNat_le]
  simp at trail ⊢
  rw [if_neg (by omega), if_neg (by omega), if_neg (by omega), if_neg (by omega)]

/-- A character is a first byte and continuation bytes, which there are above the ASCII range. -/
theorem IsEncoded.exists_lead {unit : Bytes} (encoded : IsEncoded unit) :
    ∃ lead trails, unit = lead :: trails ∧ isTrail lead = false ∧
      (∀ byte ∈ trails, isTrail byte = true) ∧ (0x80 ≤ lead → trails ≠ []) := by
  obtain ⟨scalar, decoded⟩ := encoded
  cases unit with
  | nil => cases decoded
  | cons lead trails =>
    refine ⟨lead, trails, rfl, ?_, ?_⟩
    · cases trail : isTrail lead with
      | false => rfl
      | true =>
        rw [scalar?_of_isTrail trail] at decoded
        cases decoded
    · -- The width of what was decoded is that of all bytes, so there are no others.
      simp only [scalar?] at decoded
      repeat' split at decoded
      all_goals simp only [Option.some.injEq, Prod.mk.injEq, List.length_cons, reduceCtorEq,
        Nat.right_eq_add, List.length_eq_zero_iff] at decoded
      · rename_i low
        exact ⟨by simp [decoded.2], fun high => absurd low (UInt8.not_lt.2 high)⟩
      all_goals
        rename_i trail
        simp [decoded.2, trail]

/-- A character at the front of a text is one of its units, whatever follows. -/
theorem IsEncoded.characters_append {unit : Bytes} (encoded : IsEncoded unit) :
    ∃ scalar, ∀ rest, characters (unit ++ rest) = ⟨some scalar, unit⟩ :: characters rest := by
  obtain ⟨scalar, decoded⟩ := encoded
  refine ⟨scalar, fun rest => ?_⟩
  cases unit with
  | nil => cases decoded
  | cons lead trails =>
    have first : Character.first lead (trails ++ rest) = ⟨some scalar, lead :: trails⟩ := by
      have same := scalar?_append decoded rest
      rw [List.cons_append] at same
      simp [Character.first, same]
    rw [List.cons_append, characters, first]
    simp

/-- A unit of a text that is no stray byte is a character. -/
theorem isEncoded_of_mem_characters {text : Bytes} {unit : Character}
    (member : unit ∈ characters text) (decoded : unit.scalar?.isSome = true) :
    IsEncoded unit.bytes := by
  induction text using characters.induct with
  | case1 => simp at member
  | case2 lead rest ih =>
    rw [characters] at member
    rcases List.mem_cons.1 member with rfl | later
    · rw [Character.first] at decoded ⊢
      split at decoded
      · rename_i scalar width found
        obtain ⟨own, positive⟩ := scalar?_take found
        have length : ((lead :: rest).take width).length = width :=
          List.length_take_of_le (scalar?_width_le found)
        obtain ⟨width, rfl⟩ := Nat.exists_eq_add_of_lt positive
        rw [Nat.zero_add] at own length
        refine ⟨scalar, ?_⟩
        dsimp only
        rw [Nat.zero_add, Nat.add_sub_cancel, ← List.take_succ_cons, length]
        exact own
      · cases decoded
    · exact ih later

theorem IsEncoded.isUtf8_append {unit : Bytes} (encoded : IsEncoded unit) (rest : Bytes) :
    isUtf8 (unit ++ rest) = isUtf8 rest := by
  obtain ⟨scalar, front⟩ := encoded.characters_append
  simp [isUtf8, front rest]

@[simp] theorem isUtf8_nil : isUtf8 [] = true := by
  simp [isUtf8]

/-- Characters at the front of a text do not matter to what follows. -/
theorem isUtf8_flatten_append {units : List Bytes} (all : ∀ unit ∈ units, IsEncoded unit)
    (rest : Bytes) : isUtf8 (units.flatten ++ rest) = isUtf8 rest := by
  induction units with
  | nil => rfl
  | cons unit units ih =>
    obtain ⟨encoded, others⟩ := List.forall_mem_cons.1 all
    rw [List.flatten_cons, List.append_assoc, encoded.isUtf8_append, ih others]

theorem IsEncoded.isUtf8 {unit : Bytes} (encoded : IsEncoded unit) : isUtf8 unit = true := by
  simpa using encoded.isUtf8_append []

/-- **Well-formed text is a sequence of characters.** -/
theorem isUtf8_iff_flatten (text : Bytes) :
    isUtf8 text = true ↔ ∃ units : List Bytes, (∀ unit ∈ units, IsEncoded unit) ∧
      text = units.flatten := by
  constructor
  · intro valid
    refine ⟨(characters text).map Character.bytes, ?_, (flatMap_bytes_characters text).symm⟩
    intro unit member
    obtain ⟨character, inside, rfl⟩ := List.mem_map.1 member
    exact isEncoded_of_mem_characters inside (List.all_eq_true.1 valid character inside)
  · rintro ⟨units, all, rfl⟩
    simpa using isUtf8_flatten_append all []

/-- Well-formed text at the front does not matter to what follows. -/
theorem isUtf8_append {front : Bytes} (valid : isUtf8 front = true) (rest : Bytes) :
    isUtf8 (front ++ rest) = isUtf8 rest := by
  obtain ⟨units, all, rfl⟩ := (isUtf8_iff_flatten front).1 valid
  exact isUtf8_flatten_append all rest

theorem AllAscii.isUtf8 {text : Bytes} (ascii : AllAscii text) : isUtf8 text = true := by
  induction text with
  | nil => exact isUtf8_nil
  | cons byte rest ih =>
    obtain ⟨low, others⟩ := List.forall_mem_cons.1 ascii
    rw [← List.singleton_append, (isEncoded_ascii low).isUtf8_append, ih others]

/-- Well-formed text does not start with a continuation byte. -/
theorem isTrail_head {text : Bytes} (valid : isUtf8 text = true) :
    ∀ byte, text.head? = some byte → isTrail byte = false := by
  intro byte next
  obtain ⟨units, all, rfl⟩ := (isUtf8_iff_flatten text).1 valid
  cases units with
  | nil => cases next
  | cons unit units =>
    obtain ⟨lead, trails, rfl, no_trail, -⟩ := (all unit List.mem_cons_self).exists_lead
    obtain rfl := Option.some.inj next
    exact no_trail

/-- **Well-formed text can be split before every byte that continues no character.** -/
theorem isUtf8_split {front back : Bytes} (valid : isUtf8 (front ++ back) = true)
    (next : ∀ byte, back.head? = some byte → isTrail byte = false) :
    isUtf8 front = true ∧ isUtf8 back = true := by
  obtain ⟨units, all, whole⟩ := (isUtf8_iff_flatten _).1 valid
  -- By the characters of the text: the split is behind the first one, or it is before it.
  induction units generalizing front with
  | nil =>
    obtain ⟨rfl, rfl⟩ := List.append_eq_nil_iff.1 whole
    exact ⟨valid, valid⟩
  | cons unit units ih =>
    obtain ⟨encoded, others⟩ := List.forall_mem_cons.1 all
    rw [List.flatten_cons] at whole
    rcases List.append_eq_append_iff.1 whole with ⟨middle, rfl, rest⟩ | ⟨middle, rfl, rest⟩
    · -- Bytes of a character behind its first are continuation bytes.
      obtain ⟨lead, trails, same, -, are_trails, -⟩ := encoded.exists_lead
      cases front with
      | nil => exact ⟨isUtf8_nil, valid⟩
      | cons first front =>
        cases middle with
        | nil =>
          rw [List.append_nil] at encoded
          rw [encoded.isUtf8_append] at valid
          exact ⟨encoded.isUtf8, valid⟩
        | cons byte middle =>
          obtain ⟨-, rfl⟩ := List.cons.inj same
          have trail : isTrail byte = true := are_trails byte (by simp)
          have no_trail := next byte (by rw [rest]; rfl)
          rw [trail] at no_trail
          cases no_trail
    · rw [List.append_assoc, encoded.isUtf8_append] at valid
      rw [encoded.isUtf8_append]
      exact ih valid others rest.symm

/-! ## Boundaries -/

/-- An offset at which a character of the text ends or begins. -/
def Boundary (text : Bytes) (offset : Int) : Prop :=
  ∃ front back : List Character, characters text = front ++ back ∧
    offset = (front.flatMap Character.bytes).length

/-- Behind well-formed text stands a boundary. -/
theorem boundary_append {front : Bytes} (valid : isUtf8 front = true) (back : Bytes) :
    Boundary (front ++ back) front.length := by
  have cut : characters (front ++ back) = characters front ++ characters back := by
    obtain ⟨units, all, rfl⟩ := (isUtf8_iff_flatten front).1 valid
    clear valid
    induction units with
    | nil => simp
    | cons unit units ih =>
      obtain ⟨encoded, others⟩ := List.forall_mem_cons.1 all
      obtain ⟨scalar, first⟩ := encoded.characters_append
      rw [List.flatten_cons, List.append_assoc, first, first, ih others, List.cons_append]
  exact ⟨_, _, cut, by rw [flatMap_bytes_characters]⟩

/-- In well-formed text no continuation byte stands behind a boundary. -/
theorem not_boundary {front back : Bytes} {byte : UInt8}
    (valid : isUtf8 (front ++ byte :: back) = true) (trail : isTrail byte = true) :
    ¬Boundary (front ++ byte :: back) front.length := by
  rintro ⟨before, behind, cut, same⟩
  have whole := flatMap_bytes_characters (front ++ byte :: back)
  rw [cut, List.flatMap_append] at whole
  obtain ⟨-, rest⟩ := List.append_inj whole (Int.ofNat.inj same).symm
  have well_formed : isUtf8 (byte :: back) = true := by
    refine (isUtf8_iff_flatten _).2 ⟨behind.map Character.bytes, ?_, rest.symm⟩
    intro unit member
    obtain ⟨character, inside, rfl⟩ := List.mem_map.1 member
    have among : character ∈ characters (front ++ byte :: back) := by
      rw [cut]
      exact List.mem_append_right before inside
    exact isEncoded_of_mem_characters among (List.all_eq_true.1 valid character among)
  have no_trail := isTrail_head well_formed byte rfl
  rw [trail] at no_trail
  cases no_trail

/-! ## Classes of text -/

/-- A part of well-formed text that is well-formed leaves well-formed text behind it. -/
theorem isUtf8_behind {own behind : Bytes} (valid : isUtf8 (own ++ behind) = true)
    (kept : isUtf8 own = true) : isUtf8 own = true ∧ isUtf8 behind = true :=
  ⟨kept, by rwa [isUtf8_append kept] at valid⟩

theorem AllAscii.append {front back : Bytes} (one : AllAscii front) (two : AllAscii back) :
    AllAscii (front ++ back) :=
  List.forall_mem_append.2 ⟨one, two⟩

theorem AllDigits.allAscii {text : Bytes} (digits : AllDigits text) : AllAscii text :=
  fun byte member => (not_plain_of_digit (digits byte member)).2

theorem IsNumeral.allAscii {text : Bytes} (number : IsNumeral text) : AllAscii text := by
  have point {fraction : Bytes} (digits : AllDigits fraction) : AllAscii (0x2e :: fraction) :=
    List.forall_mem_cons.2 ⟨by decide, digits.allAscii⟩
  rcases number with ⟨whole, -, digits, rfl | ⟨fraction, more, rfl⟩⟩ | ⟨fraction, -, digits, rfl⟩
  · exact digits.allAscii
  · exact digits.allAscii.append (point more)
  · exact point digits

/-- A letter is a character. -/
theorem IsLetter.isEncoded {unit : Bytes} (letter : IsLetter unit) : IsEncoded unit := by
  rcases letter with ⟨byte, plain, rfl⟩ | ⟨lead, rest, scalar, rfl, -, decoded, -⟩
  · refine isEncoded_ascii ?_
    by_contra high
    rw [(not_plain_of_high (UInt8.not_lt.1 high)).1] at plain
    cases plain
  · exact ⟨scalar, decoded⟩

/-- A letter above the ASCII range has continuation bytes. -/
theorem IsLetter.exists_trail {head : UInt8} {trails : Bytes} (letter : IsLetter (head :: trails))
    (high : 0x80 ≤ head) :
    ∃ byte more, trails = byte :: more ∧ isTrail byte = true ∧
      ∀ other ∈ trails, isTrail other = true := by
  obtain ⟨_, _, same, -, are_trails, continued⟩ := letter.isEncoded.exists_lead
  obtain ⟨rfl, rfl⟩ := List.cons.inj same
  cases trails with
  | nil => exact absurd rfl (continued high)
  | cons byte more => exact ⟨byte, more, rfl, are_trails byte List.mem_cons_self, are_trails⟩

theorem IsNamePart.isEncoded {unit : Bytes} (part : IsNamePart unit) : IsEncoded unit := by
  rcases part with letter | ⟨byte, digit, rfl⟩
  · exact letter.isEncoded
  · exact isEncoded_ascii (not_plain_of_digit digit).2

theorem IsWord.isUtf8 {text : Bytes} (is_word : IsWord text) : isUtf8 text = true := by
  obtain ⟨first, parts, letter, are_parts, rfl⟩ := is_word
  refine (isUtf8_iff_flatten _).2 ⟨first :: parts, ?_, rfl⟩
  exact List.forall_mem_cons.2
    ⟨letter.isEncoded, fun part member => (are_parts part member).isEncoded⟩

theorem high_of_isTrail {byte : UInt8} (trail : isTrail byte = true) : 0x80 ≤ byte := by
  simp only [isTrail, Bool.and_eq_true, decide_eq_true_eq] at trail
  exact trail.1

/-- No letter starts with a continuation byte. -/
theorem letterWidth_of_isTrail {byte : UInt8} (trail : isTrail byte = true) (rest : Bytes) :
    letterWidth (byte :: rest) = 0 := by
  obtain ⟨not_plain, -, not_low⟩ := not_plain_of_high (high_of_isTrail trail)
  rw [letterWidth, not_plain, if_neg not_low, scalar?_of_isTrail trail]
  rfl

/-- No character of a name starts with a continuation byte. -/
theorem nameCharWidth_of_isTrail {byte : UInt8} (trail : isTrail byte = true) (rest : Bytes) :
    nameCharWidth (byte :: rest) = 0 := by
  obtain ⟨-, not_digit, -⟩ := not_plain_of_high (high_of_isTrail trail)
  rw [nameCharWidth, not_digit, letterWidth_of_isTrail trail]
  rfl

/-- A character of a name above the ASCII range is a letter. -/
theorem exists_letter_of_high {lead : UInt8} {rest : Bytes} (high : 0x80 ≤ lead)
    (part : 0 < nameCharWidth (lead :: rest)) :
    ∃ trails more, rest = trails ++ more ∧ IsLetter (lead :: trails) := by
  rw [nameCharWidth, (not_plain_of_high high).2.1, if_neg Bool.false_ne_true] at part
  have letter := isLetter_take part
  have parts := List.take_append_drop (letterWidth (lead :: rest)) (lead :: rest)
  obtain ⟨first, trails, unit, -⟩ := letter.isEncoded.exists_lead
  rw [unit] at letter parts
  obtain ⟨rfl, same⟩ := List.cons.inj parts
  exact ⟨trails, _, same.symm, letter⟩

/-- A malformed number does not go on with a continuation byte. -/
theorem numeralTail_of_isTrail {byte : UInt8} (trail : isTrail byte = true) (rest : Bytes) :
    numeralTail (byte :: rest) = [] := by
  have no_point : byte ≠ 0x2e := by
    rintro rfl
    cases trail
  rw [numeralTail, nameCharWidth_of_isTrail trail]
  simp [no_point]

/-- The rest of a malformed number is ASCII text, or it ends with the first byte of a letter above
the ASCII range. -/
theorem numeralTail_cases {text : Bytes} (valid : isUtf8 text = true) :
    AllAscii (numeralTail text) ∨
      ∃ front lead trails more, numeralTail text = front ++ [lead] ∧ AllAscii front ∧
        text = front ++ lead :: trails ++ more ∧ IsLetter (lead :: trails) ∧ 0x80 ≤ lead := by
  induction text with
  | nil => exact .inl (by simp [AllAscii, numeralTail])
  | cons lead rest ih =>
    rw [numeralTail]
    split
    · rename_i goes_on
      by_cases low : lead < 0x80
      · rw [← List.singleton_append, (isEncoded_ascii low).isUtf8_append] at valid
        rcases ih valid with ascii | ⟨front, head, trails, more, tail, ascii, rfl, letter, high⟩
        · exact .inl (List.forall_mem_cons.2 ⟨low, ascii⟩)
        · refine .inr ⟨lead :: front, head, trails, more, ?_, ?_, rfl, letter, high⟩
          · rw [tail]
            rfl
          · exact List.forall_mem_cons.2 ⟨low, ascii⟩
      · -- Behind the first byte of a letter stands a continuation byte, where the number stops.
        have high : 0x80 ≤ lead := UInt8.not_lt.1 low
        have no_point : lead ≠ 0x2e := by
          rintro rfl
          exact low (by decide)
        obtain ⟨trails, more, rfl, letter⟩ :=
          exists_letter_of_high high (goes_on.resolve_right no_point)
        obtain ⟨byte, others, rfl, trail, -⟩ := letter.exists_trail high
        rw [List.cons_append, numeralTail_of_isTrail trail]
        exact .inr ⟨[], lead, byte :: others, more, rfl, by simp [AllAscii], rfl, letter, high⟩
    · exact .inl (by simp [AllAscii])

end Bytes

/-! ## Pieces -/

/-- Signs of two bytes are ASCII. -/
theorem TokenKind.allAscii_of_ofPair? {lead next : UInt8} {kind : TokenKind}
    (sign : ofPair? lead next = some kind) : Bytes.AllAscii [lead, next] := by
  unfold ofPair? at sign
  split at sign
  all_goals cases sign
  all_goals simp [Bytes.AllAscii]

/-- Signs of one byte are ASCII. -/
theorem TokenKind.allAscii_of_ofByte? {lead : UInt8} {kind : TokenKind}
    (sign : ofByte? lead = some kind) : Bytes.AllAscii [lead] := by
  unfold ofByte? at sign
  split at sign
  all_goals cases sign
  all_goals simp [Bytes.AllAscii]

namespace Piece

open Bytes (AllAscii IsLetter isUtf8 isUtf8_behind isUtf8_split)

/-- A text literal, closed or not, keeps characters whole. -/
theorem keeps_ofQuoted {rest behind : Bytes} (whole : (ofQuoted rest).text ++ behind = 0x22 :: rest)
    (valid : isUtf8 (0x22 :: rest) = true) :
    isUtf8 (ofQuoted rest).text = true ∧ isUtf8 behind = true := by
  have after : rest.drop (Bytes.quotedTail rest).1.length = behind := by
    rw [ofQuoted, List.cons_append, List.cons.injEq] at whole
    exact Bytes.drop_length_of_append whole.2
  obtain ⟨closes, breaks⟩ := Bytes.quotedTail_spec rest
  rw [after] at closes breaks
  rw [← whole] at valid
  rw [ofQuoted] at valid ⊢
  dsimp only at valid ⊢
  cases closed : (Bytes.quotedTail rest).2 with
  | true =>
    obtain ⟨body, -, tail, -⟩ := closes closed
    rw [tail] at valid ⊢
    have quote : isUtf8 [0x22] = true := AllAscii.isUtf8 (by simp [AllAscii])
    -- The text before the closing quote is well-formed, so the text with it is, too.
    have split : isUtf8 ((0x22 :: body) ++ 0x22 :: behind) = true := by simpa using valid
    obtain ⟨front, -⟩ := isUtf8_split split (by simp [Bytes.isTrail])
    refine isUtf8_behind valid ?_
    rw [← List.cons_append, Bytes.isUtf8_append front, quote]
  | false =>
    refine isUtf8_split valid fun byte next => ?_
    rw [(breaks closed).2 byte next]
    rfl

/-- A malformed number that ends with the first byte of a letter above the ASCII range. The other
bytes of the letter are the first of the text `behind`. -/
def Splits (piece : Piece) (behind : Bytes) : Prop :=
  ∃ number head trails more, piece = ⟨.flaw .malformedNumber, number ++ [head]⟩ ∧
    behind = trails ++ more ∧ number ≠ [] ∧ AllAscii number ∧ IsLetter (head :: trails) ∧
    0x80 ≤ head

/-- A number keeps characters whole, unless it is malformed and splits a letter. -/
theorem keeps_ofNumeral {lead : UInt8} {rest behind : Bytes}
    (starts : Bytes.isDigit lead = true ∨ (lead = 0x2e ∧ rest.head?.any Bytes.isDigit = true))
    (whole : (ofNumeral (lead :: rest)).text ++ behind = lead :: rest)
    (valid : isUtf8 (lead :: rest) = true) :
    (isUtf8 (ofNumeral (lead :: rest)).text = true ∧ isUtf8 behind = true) ∨
      (ofNumeral (lead :: rest)).Splits behind := by
  have ascii := (Bytes.isNumeral_numeral starts).allAscii
  have not_empty : Bytes.numeral (lead :: rest) ≠ [] :=
    Bytes.numeral_ne_nil (starts.imp_right And.left)
  obtain ⟨tail, parts⟩ := Bytes.numeral_isPrefix (lead :: rest)
  have after := Bytes.drop_length_of_append parts
  have valid_tail : isUtf8 tail = true := by
    rwa [← parts, Bytes.isUtf8_append ascii.isUtf8] at valid
  rw [← whole] at valid
  rw [ofNumeral, after] at whole valid ⊢
  split at whole
  · rename_i runs_on
    simp only [runs_on, if_true] at valid ⊢
    have tails := whole.trans parts.symm
    rw [List.append_assoc, List.append_cancel_left_eq] at tails
    rcases Bytes.numeralTail_cases valid_tail with
      plain | ⟨front, head, trails, more, cut, plain, same, letter, high⟩
    · exact .inl (isUtf8_behind valid (ascii.append plain).isUtf8)
    · refine .inr ⟨Bytes.numeral (lead :: rest) ++ front, head, trails, more, ?_, ?_, ?_,
        ascii.append plain, letter, high⟩
      · rw [cut, List.append_assoc]
      · rw [cut, same, List.append_assoc, List.append_assoc, List.append_cancel_left_eq] at tails
        exact (List.cons.inj tails).2
      · exact List.append_ne_nil_of_left_ne_nil not_empty front
  · rename_i ends
    simp only [ends] at valid ⊢
    exact .inl (isUtf8_behind valid ascii.isUtf8)

/-- A sign or an unexpected character keeps characters whole. -/
theorem keeps_ofSign {lead : UInt8} {rest behind : Bytes}
    (whole : (ofSign lead rest).text ++ behind = lead :: rest)
    (valid : isUtf8 (lead :: rest) = true) :
    isUtf8 (ofSign lead rest).text = true ∧ isUtf8 behind = true := by
  rw [← whole] at valid
  generalize made : ofSign lead rest = piece at whole valid ⊢
  unfold ofSign at made
  split at made
  · rename_i kind pair
    obtain ⟨next, first, sign⟩ := Option.bind_eq_some_iff.1 pair
    obtain ⟨more, rfl⟩ := List.head?_eq_some_iff.1 first
    subst made
    exact isUtf8_behind valid (TokenKind.allAscii_of_ofPair? sign).isUtf8
  · split at made
    · rename_i kind sign
      subst made
      exact isUtf8_behind valid (TokenKind.allAscii_of_ofByte? sign).isUtf8
    · split at made
      · rename_i low
        subst made
        exact isUtf8_behind valid (Bytes.isEncoded_ascii low).isUtf8
      · -- All continuation bytes are taken along, so none is left behind.
        subst made
        rw [List.cons_append, List.cons.injEq] at whole
        refine isUtf8_split valid fun byte next => ?_
        rw [← Bytes.drop_length_of_append whole.2, Bytes.drop_length_takeWhile] at next
        exact Bytes.head?_dropWhile_eq_some next

/-- **One step of the lexer keeps characters whole**, with one exception: a malformed number may end
with the first byte of a letter above the ASCII range. -/
theorem keeps_first {lead : UInt8} {rest behind : Bytes}
    (whole : (first lead rest).text ++ behind = lead :: rest)
    (valid : isUtf8 (lead :: rest) = true) :
    (isUtf8 (first lead rest).text = true ∧ isUtf8 behind = true) ∨
      (first lead rest).Splits behind := by
  have single {byte : UInt8} {more : Bytes} (same : [byte] ++ more = lead :: rest)
      (low : byte < 0x80) : isUtf8 [byte] = true ∧ isUtf8 more = true :=
    isUtf8_behind (by rwa [same]) (Bytes.isEncoded_ascii low).isUtf8
  generalize made : first lead rest = piece at whole ⊢
  unfold first at made
  split at made
  · rename_i spacing
    subst made
    refine .inl (single whole ?_)
    simp only [Bytes.isSpacing, Bool.or_eq_true, beq_iff_eq] at spacing
    rcases spacing with (rfl | rfl) | rfl <;> decide
  split at made
  · -- Comments end before a newline.
    subst made
    rw [← whole] at valid
    rw [List.cons_append, List.cons.injEq] at whole
    refine .inl (isUtf8_split valid fun byte next => ?_)
    rw [← Bytes.drop_length_of_append whole.2, Bytes.drop_length_takeWhile] at next
    have newline := Bytes.head?_dropWhile_eq_some next
    obtain rfl : byte = 0x0a := by simpa using newline
    rfl
  split at made
  · rename_i newline
    subst made newline
    exact .inl (single whole (by decide))
  split at made
  · rename_i quote
    subst made quote
    exact .inl (keeps_ofQuoted whole valid)
  split at made
  · rename_i starts
    subst made
    exact keeps_ofNumeral starts whole valid
  split at made
  · rename_i starts
    subst made
    rw [← whole] at valid
    exact .inl (isUtf8_behind valid (Bytes.isWord_nameRun starts).isUtf8)
  · subst made
    exact .inl (keeps_ofSign whole valid)

/-- Pieces that keep characters whole, up to letters that are split between a malformed number and
an unexpected character. -/
inductive AllKept : List Piece → Prop where
  /-- No piece. -/
  | nil : AllKept []
  /-- A piece of whole characters. -/
  | whole {piece : Piece} {rest : List Piece} (valid : isUtf8 piece.text = true)
      (others : AllKept rest) : AllKept (piece :: rest)
  /-- Two pieces that share a letter. -/
  | split {number trails : Bytes} {head : UInt8} {rest : List Piece} (some_digit : number ≠ [])
      (ascii : AllAscii number) (letter : IsLetter (head :: trails)) (high : 0x80 ≤ head)
      (others : AllKept rest) :
      AllKept (⟨.flaw .malformedNumber, number ++ [head]⟩ :: ⟨.flaw .unexpectedCharacter, trails⟩
        :: rest)

/-- A continuation byte at the front is an unexpected character, with those behind it. -/
theorem first_eq_of_isTrail {byte : UInt8} (trail : Bytes.isTrail byte = true) (rest : Bytes) :
    first byte rest = ⟨.flaw .unexpectedCharacter, byte :: rest.takeWhile Bytes.isTrail⟩ := by
  refine first_eq_of_foreign (Bytes.high_of_isTrail trail) ?_
  simp [Bytes.startsName, Bytes.letterWidth_of_isTrail trail]

end Piece

/-- Continuation bytes that a malformed number has left are a piece of their own. -/
theorem pieces_of_trails {byte : UInt8} {trails behind : Bytes}
    (are_trails : ∀ other ∈ byte :: trails, Bytes.isTrail other = true)
    (next : ∀ other, behind.head? = some other → Bytes.isTrail other = false) :
    pieces (byte :: trails ++ behind)
      = ⟨.flaw .unexpectedCharacter, byte :: trails⟩ :: pieces behind := by
  obtain ⟨trail, others⟩ := List.forall_mem_cons.1 are_trails
  have stops : behind.takeWhile Bytes.isTrail = [] := by
    cases behind with
    | nil => rfl
    | cons other more => exact List.takeWhile_cons_of_neg (by simp [next other rfl])
  have first : Piece.first byte (trails ++ behind)
      = ⟨.flaw .unexpectedCharacter, byte :: trails⟩ := by
    rw [Piece.first_eq_of_isTrail trail, List.takeWhile_append_of_pos others, stops,
      List.append_nil]
  rw [List.cons_append, pieces, first]
  simp

/-- The pieces of well-formed text keep characters whole, up to split letters. -/
theorem pieces_allKept {source : Bytes} (valid : source.isUtf8 = true) :
    Piece.AllKept (pieces source) := by
  induction size : source.length using Nat.strongRecOn generalizing source with
  | _ bound ih =>
    cases source with
    | nil =>
      rw [pieces_nil]
      exact .nil
    | cons lead rest =>
      have whole := Piece.text_first_append_drop lead rest
      have shorter : (rest.drop ((Piece.first lead rest).text.length - 1)).length < bound := by
        rw [← size, List.length_drop, List.length_cons]
        omega
      rw [pieces]
      generalize rest.drop ((Piece.first lead rest).text.length - 1) = behind at whole shorter ⊢
      rcases Piece.keeps_first whole valid with ⟨kept, later⟩ | ⟨number, head, trails, more, made,
        rfl, some_digit, ascii, letter, high⟩
      · exact .whole kept (ih _ shorter later rfl)
      · -- The bytes that are left of the letter are the next piece.
        rw [← whole, made, List.append_assoc, Bytes.isUtf8_append ascii.isUtf8,
          List.singleton_append, ← List.cons_append, letter.isEncoded.isUtf8_append] at valid
        obtain ⟨byte, others, rfl, -, are_trails⟩ := letter.exists_trail high
        rw [made, pieces_of_trails are_trails (Bytes.isTrail_head valid)]
        refine .split some_digit ascii letter high (ih more.length ?_ valid rfl)
        rw [List.length_append] at shorter
        omega

/-! ## Places -/

/-- A number and the text behind it share a letter of the source: its first byte ends the number,
the others are the text. Only the boundary between the two is none of the source. -/
structure Bytes.SharesLetter (source number trails : Bytes) (first second : Span) : Prop where
  /-- The number is ASCII text and the first byte of a letter above the ASCII range, of which the
  other bytes are left. -/
  letter : ∃ digits head, number = digits ++ [head] ∧ digits ≠ [] ∧ AllAscii digits ∧
    IsLetter (head :: trails) ∧ 0x80 ≤ head
  /-- Neither part is well-formed. -/
  ill_formed : isUtf8 number = false ∧ isUtf8 trails = false
  /-- The number starts at a boundary. -/
  start : source.Boundary first.start.offset
  /-- It does not end at one, -/
  inside : ¬source.Boundary first.stop.offset
  /-- where the other text starts, -/
  adjacent : second.start = first.stop
  /-- which ends at a boundary. -/
  stop : source.Boundary second.stop.offset

namespace PlacedPiece

/-- A piece of whole characters. -/
def Whole (source : Bytes) (placed : PlacedPiece) : Prop :=
  placed.piece.text.isUtf8 = true ∧ source.Boundary placed.span.start.offset ∧
    source.Boundary placed.span.stop.offset

/-- A malformed number and an unexpected character that share a letter. -/
def Share (source : Bytes) (number remains : PlacedPiece) : Prop :=
  number.piece.sort = .flaw .malformedNumber ∧ remains.piece.sort = .flaw .unexpectedCharacter ∧
    source.SharesLetter number.piece.text remains.piece.text number.span remains.span

end PlacedPiece

/-- A letter above the ASCII range is not well-formed on either side of a split. -/
theorem Bytes.isUtf8_of_split {digits trails : Bytes} {head : UInt8} (ascii : AllAscii digits)
    (letter : IsLetter (head :: trails)) (high : 0x80 ≤ head) :
    isUtf8 (digits ++ [head]) = false ∧ isUtf8 trails = false := by
  constructor
  · rw [isUtf8_append ascii.isUtf8]
    simp [isUtf8, characters, Character.first, scalar?, UInt8.not_lt.2 high]
  · obtain ⟨byte, more, rfl, trail, -⟩ := letter.exists_trail high
    refine Bool.eq_false_iff.2 fun valid => ?_
    rw [isTrail_head valid byte rfl] at trail
    cases trail

/-- Laid out, pieces that keep characters whole stand between boundaries, up to split letters. -/
theorem layOut_kept {parts : List Piece} (kept : Piece.AllKept parts) {source before : Bytes}
    {origin : Position} (whole : source = before ++ parts.flatMap Piece.text)
    (valid : source.isUtf8 = true) (front : before.isUtf8 = true) (zero : origin.offset = 0) :
    ∀ placed ∈ layOut (origin.after before) parts, placed.Whole source ∨
      ∃ number remains, [number, remains] <:+: layOut (origin.after before) parts ∧
        number.Share source remains ∧ (placed = number ∨ placed = remains) := by
  have offset (text : Bytes) : (origin.after text).offset = text.length := by
    rw [Position.offset_after, zero, Int.zero_add]
  have boundary {text more : Bytes} (same : source = text ++ more) (well : text.isUtf8 = true) :
      source.Boundary (origin.after text).offset := by
    rw [offset, same]
    exact Bytes.boundary_append well more
  induction kept generalizing before with
  | nil => exact fun _ none => absurd none List.not_mem_nil
  | @whole piece rest well others ih =>
    have reached : (before ++ piece.text).isUtf8 = true := by
      rw [Bytes.isUtf8_append front, well]
    have parts : source = before ++ piece.text ++ rest.flatMap Piece.text := by
      rw [whole, List.flatMap_cons, List.append_assoc]
    rw [layOut_cons, ← Position.after_append]
    rintro placed (_ | ⟨_, later⟩)
    · exact .inl ⟨well, boundary whole front, boundary parts reached⟩
    · refine (ih parts reached placed later).imp_right ?_
      rintro ⟨number, remains, inside, share⟩
      exact ⟨number, remains, inside.trans (List.suffix_cons ..).isInfix, share⟩
  | @split number trails head rest some_digit ascii letter high others ih =>
    have reached : (before ++ (number ++ head :: trails)).isUtf8 = true := by
      rw [Bytes.isUtf8_append front, Bytes.isUtf8_append ascii.isUtf8, letter.isEncoded.isUtf8]
    have parts : source = before ++ (number ++ head :: trails) ++ rest.flatMap Piece.text := by
      rw [whole]
      simp
    have inside : ¬source.Boundary (origin.after (before ++ (number ++ [head]))).offset := by
      obtain ⟨byte, more, rfl, trail, -⟩ := letter.exists_trail high
      have here : source
          = before ++ (number ++ [head]) ++ byte :: (more ++ rest.flatMap Piece.text) := by
        rw [parts]
        simp
      rw [here] at valid
      rw [offset, here]
      exact Bytes.not_boundary valid trail
    have ends : (before ++ (number ++ [head])) ++ trails
        = before ++ (number ++ head :: trails) := by
      simp
    rw [layOut_cons, layOut_cons, ← Position.after_append, ← Position.after_append, ends]
    intro placed member
    rw [List.mem_cons, List.mem_cons, ← or_assoc] at member
    rcases member with here | later
    · refine .inr ⟨_, _, ⟨[], _, rfl⟩, ⟨rfl, rfl, ?_⟩, here⟩
      exact ⟨⟨number, head, rfl, some_digit, ascii, letter, high⟩,
        Bytes.isUtf8_of_split ascii letter high, boundary whole front, inside, rfl,
        boundary parts reached⟩
    · refine (ih parts reached placed later).imp_right ?_
      rintro ⟨first, second, among, share⟩
      refine ⟨first, second, among.trans (List.IsSuffix.isInfix ?_), share⟩
      exact (List.suffix_cons ..).trans (List.suffix_cons ..)

/-! ## Tokens and findings -/

/-- A token of whole characters: it starts and ends between two of them, and its lexeme is
well-formed. -/
structure Token.Whole (source : Bytes) (token : Token) : Prop where
  /-- The token starts between two characters. -/
  start : source.Boundary token.span.start.offset
  /-- It ends between two characters. -/
  stop : source.Boundary token.span.stop.offset
  /-- The lexeme is well-formed. -/
  lexeme : token.lexeme.isUtf8 = true

/-- Two illegal tokens, one directly behind the other, that share a letter. -/
structure Token.Share (source : Bytes) (tokens : List Token) (number remains : Token) : Prop where
  /-- The tokens are neighbours. -/
  neighbours : [number, remains] <:+: tokens
  /-- Both are illegal. -/
  illegal : number.kind = .illegal ∧ remains.kind = .illegal
  /-- The first byte of the letter ends the one, the others are the other. -/
  letter : source.SharesLetter number.lexeme remains.lexeme number.span remains.span

/-- A message quotes what is complained about, and is well-formed if that is. -/
theorem Piece.isUtf8_message {piece : Piece} {complaint : Complaint}
    (complained : piece.complaint? = some complaint) (well : piece.text.isUtf8 = true) :
    complaint.message.isUtf8 = true := by
  have quoted {opening : Bytes} (ascii : opening.AllAscii) :
      (opening ++ piece.text ++ Bytes.utf8 "'").isUtf8 = true := by
    have closing : (Bytes.utf8 "'").AllAscii := by decide +kernel
    rw [List.append_assoc, Bytes.isUtf8_append ascii.isUtf8, Bytes.isUtf8_append well,
      closing.isUtf8]
  rw [complaint?] at complained
  split at complained
  all_goals cases complained
  · exact Bytes.AllAscii.isUtf8 (by decide +kernel)
  all_goals exact quoted (by decide +kernel)

namespace PlacedPiece

/-- The token that a piece of whole characters makes is one. -/
theorem Whole.token {source : Bytes} {placed : PlacedPiece} (kept : placed.Whole source)
    {token : Token} (made : placed.token? = some token) : token.Whole source := by
  obtain ⟨kind, -, rfl⟩ := Option.map_eq_some_iff.1 made
  refine ⟨kept.2.1, kept.2.2, ?_⟩
  dsimp only
  rw [Piece.lexeme]
  split
  · exact Bytes.AllAscii.isUtf8 (by decide +kernel)
  · exact kept.1

/-- The illegal token that a flaw makes. -/
theorem token?_of_flaw {placed : PlacedPiece} {reason : Flaw}
    (flaw : placed.piece.sort = .flaw reason) :
    placed.token? = some ⟨.illegal, placed.piece.text, placed.span⟩ := by
  simp [token?, Piece.kind?, Piece.lexeme, flaw]

/-- Pieces that share a letter make tokens that share it. -/
theorem Share.tokens {source : Bytes} {all : List PlacedPiece} {number remains : PlacedPiece}
    (share : number.Share source remains) (neighbours : [number, remains] <:+: all) :
    ∃ first second, number.token? = some first ∧ remains.token? = some second ∧
      Token.Share source (all.filterMap token?) first second := by
  obtain ⟨malformed, unexpected, letter⟩ := share
  have one := token?_of_flaw malformed
  have two := token?_of_flaw unexpected
  refine ⟨_, _, one, two, ?_, ⟨rfl, rfl⟩, letter⟩
  have both := neighbours.filterMap token?
  rwa [List.filterMap_cons_some one, List.filterMap_cons_some two] at both

end PlacedPiece

namespace Lexing

variable {source : Bytes}

/-- Every piece of a well-formed source is whole, or its token shares a letter. -/
theorem whole_or_share (valid : source.isUtf8 = true) (file : Bytes) {placed : PlacedPiece}
    (laid_out : placed ∈ layOut (.start file) (pieces source)) :
    placed.Whole source ∨ ∃ token, placed.token? = some token ∧ token.span = placed.span ∧
      ∃ number remains, Token.Share source (read source file).tokens number remains ∧
        (token = number ∨ token = remains) := by
  have origin : (Position.start file).offset = 0 := rfl
  have kept := layOut_kept (pieces_allKept valid) (flatMap_text_pieces source).symm valid
    Bytes.isUtf8_nil origin
  rw [Position.after_nil] at kept
  refine (kept placed laid_out).imp_right ?_
  rintro ⟨number, remains, neighbours, share, same⟩
  obtain ⟨first, second, one, two, inside, illegal, letter⟩ := share.tokens neighbours
  have shared : Token.Share source (read source file).tokens first second :=
    ⟨inside.trans (List.prefix_append ..).isInfix, illegal, letter⟩
  obtain ⟨malformed, unexpected, -⟩ := share
  rw [PlacedPiece.token?_of_flaw malformed] at one
  rw [PlacedPiece.token?_of_flaw unexpected] at two
  cases one
  cases two
  rcases same with rfl | rfl
  · exact ⟨_, PlacedPiece.token?_of_flaw malformed, rfl, _, _, shared, .inl rfl⟩
  · exact ⟨_, PlacedPiece.token?_of_flaw unexpected, rfl, _, _, shared, .inr rfl⟩

/-- The end of input is whole. -/
theorem whole_endOfInput (valid : source.isUtf8 = true) (file : Bytes) :
    Token.Whole source ⟨.endOfInput, [],
      ⟨(Position.start file).after source, (Position.start file).after source⟩⟩ := by
  have last : source.Boundary ((Position.start file).after source).offset := by
    have behind := Bytes.boundary_append valid []
    rw [List.append_nil] at behind
    rw [Position.offset_after]
    simpa [Position.start] using behind
  exact ⟨last, last, Bytes.isUtf8_nil⟩

end Lexing

/-- **Tokens keep characters whole, but for letters behind numbers.** In every source that is
well-formed UTF-8, each token starts and ends between two characters and its lexeme is well-formed,
except where a malformed number runs into a letter above the ASCII range: the number takes the first
byte of the letter, and the other bytes are the illegal token behind it. Every message of the lexer
is well-formed, but for those about such tokens. -/
theorem characters_kept {source : Bytes} (valid : source.isUtf8 = true) (file : Bytes) :
    let lexing := Lexing.read source file
    (∀ token ∈ lexing.tokens, token.Whole source ∨ ∃ number remains,
        Token.Share source lexing.tokens number remains ∧ (token = number ∨ token = remains)) ∧
      ∀ finding ∈ lexing.findings, finding.diagnostic.message.isUtf8 = true ∨
        ∃ number remains, Token.Share source lexing.tokens number remains ∧
          (finding.span = number.span ∨ finding.span = remains.span) := by
  intro lexing
  constructor
  · intro token member
    rcases List.mem_append.1 member with inside | final
    · obtain ⟨placed, laid_out, made⟩ := List.mem_filterMap.1 inside
      rcases Lexing.whole_or_share valid file laid_out with whole | ⟨other, made_too, -, shared⟩
      · exact .inl (whole.token made)
      · obtain rfl : token = other := Option.some.inj (made.symm.trans made_too)
        exact .inr shared
    · obtain rfl := List.mem_singleton.1 final
      exact .inl (Lexing.whole_endOfInput valid file)
  · intro finding member
    obtain ⟨placed, laid_out, found⟩ := List.mem_filterMap.1 member
    obtain ⟨complaint, complained, rfl⟩ := Option.map_eq_some_iff.1 found
    rcases Lexing.whole_or_share valid file laid_out with whole | ⟨token, -, place, shared⟩
    · exact .inl (Piece.isUtf8_message complained whole.1)
    · -- A finding stands where the token does.
      obtain ⟨number, remains, share, same⟩ := shared
      refine .inr ⟨number, remains, share, ?_⟩
      rw [← place]
      exact same.imp (congrArg Token.span) (congrArg Token.span)

/-- In `π = 1é` the last character is a letter behind a number. Its second byte is an illegal token
of its own, and the number in front of it has the first one. -/
theorem characters_kept_letter :
    let source := Bytes.utf8 "π = 1é"
    let remains : Token := ⟨.illegal, [0xa9], ⟨⟨[], 7, 1, 8⟩, ⟨[], 8, 1, 9⟩⟩⟩
    source.isUtf8 = true ∧ remains ∈ (Lexing.read source []).tokens ∧
      ∃ number, Token.Share source (Lexing.read source []).tokens number remains := by
  intro source remains
  have valid : source.isUtf8 = true := by decide +kernel
  have member : remains ∈ (Lexing.read source []).tokens := by decide +kernel
  refine ⟨valid, member, ?_⟩
  rcases (characters_kept valid []).1 remains member with whole | ⟨number, other, share, same⟩
  · exact absurd whole.lexeme (by decide +kernel)
  · rcases same with rfl | rfl
    · -- A number has a digit before the byte that it takes.
      obtain ⟨digits, head, parts, some_digit, -⟩ := share.letter.letter
      cases digits with
      | nil => exact absurd rfl some_digit
      | cons digit digits => simp [remains] at parts
    · exact ⟨number, share⟩

/-- **A letter is split.** The source `1é` is well-formed, but its two tokens before the end of
input meet in the middle of the letter, neither lexeme is well-formed, and neither message is. -/
theorem letter_split :
    let source := Bytes.utf8 "1é"
    let lexing := Lexing.read source []
    source.isUtf8 = true ∧
      lexing.tokens.map Token.lexeme = [[0x31, 0xc3], [0xa9], []] ∧
      lexing.tokens.map (·.span.stop.offset) = [2, 3, 3] ∧ ¬source.Boundary 2 ∧
      lexing.tokens.map (·.lexeme.isUtf8) = [false, false, true] ∧
      lexing.findings.map (·.diagnostic.message.isUtf8) = [false, false] := by
  intro source lexing
  have valid : source.isUtf8 = true := by decide +kernel
  have cut : source = [0x31, 0xc3] ++ [0xa9] := by decide +kernel
  have middle : ¬source.Boundary 2 := by
    rw [cut] at valid ⊢
    exact Bytes.not_boundary valid (by decide)
  exact ⟨valid, by decide +kernel, by decide +kernel, middle, by decide +kernel, by decide +kernel⟩

end ConsoleScript
