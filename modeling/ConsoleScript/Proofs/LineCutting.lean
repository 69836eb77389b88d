import ConsoleScript.Token.Lexing

/-! # No piece crosses a line break

Cutting a text into pieces stops at every newline byte: nothing in front of it depends on what
stands behind it.

* **`Piece.first_newline`** — the piece at the front of a text is the same if a newline and more
  text follow, class by class of pieces;
* **`pieces_newline`** — so cutting can be done line by line. -/

namespace ConsoleScript

namespace Bytes

/-! ## Scanners stop at a newline -/

section Scanners

variable {stops : UInt8 → Bool}

theorem takeWhile_newline (ends : stops 0x0a = false) (text more : Bytes) :
    (text ++ 0x0a :: more).takeWhile stops = text.takeWhile stops := by
  induction text with
  | nil => simp [ends]
  | cons byte text ih => simp [List.takeWhile_cons, ih]

theorem dropWhile_newline (ends : stops 0x0a = false) (text more : Bytes) :
    (text ++ 0x0a :: more).dropWhile stops = text.dropWhile stops ++ 0x0a :: more := by
  induction text with
  | nil => simp [ends]
  | cons byte text ih =>
    rw [List.cons_append, List.dropWhile_cons, List.dropWhile_cons]
    split
    · exact ih
    · rfl

end Scanners

/-- A newline is no part of an encoded character. -/
theorem scalar?_newline (lead : UInt8) (rest more : Bytes) :
    scalar? (lead :: (rest ++ 0x0a :: more)) = scalar? (lead :: rest) := by
  have newline : isTrail 0x0a = false := rfl
  -- A character has at most three bytes behind its first, so only as many can be cut short.
  rcases rest with _ | ⟨second, _ | ⟨third, _ | ⟨fourth, rest⟩⟩⟩
  · rcases more with _ | ⟨one, _ | ⟨two, more⟩⟩ <;> simp [scalar?, newline]
  · rcases more with _ | ⟨one, more⟩ <;> simp [scalar?, newline]
  · simp [scalar?, newline]
  · simp [scalar?]

/-- An encoded character is not longer than the text that it stands in. -/
theorem scalar?_width_le {text : Bytes} {scalar width : Nat}
    (decoded : scalar? text = some (scalar, width)) : width ≤ text.length := by
  unfold scalar? at decoded
  split at decoded
  · cases decoded
  · -- In each form of encoding the bytes that are looked at are there.
    repeat' split at decoded
    all_goals cases decoded <;> simp

/-- The letter at the front is the same if a newline and more text follow. -/
theorem letterWidth_newline (text more : Bytes) :
    letterWidth (text ++ 0x0a :: more) = letterWidth text := by
  cases text with
  | nil => rfl
  | cons lead rest =>
    rw [List.cons_append, letterWidth, letterWidth, scalar?_newline]

theorem startsName_newline (text more : Bytes) :
    startsName (text ++ 0x0a :: more) = startsName text := by
  rw [startsName, startsName, letterWidth_newline]

/-- The name character at the front is the same if a newline and more text follow. -/
theorem nameCharWidth_newline (text more : Bytes) :
    nameCharWidth (text ++ 0x0a :: more) = nameCharWidth text := by
  cases text with
  | nil => rfl
  | cons lead rest =>
    have letter := letterWidth_newline (lead :: rest) more
    rw [List.cons_append] at letter ⊢
    rw [nameCharWidth, nameCharWidth, letter]

/-- A name character is not longer than the text that it stands in. -/
theorem nameCharWidth_le (text : Bytes) : nameCharWidth text ≤ text.length := by
  cases text with
  | nil => exact Nat.le_refl 0
  | cons lead rest =>
    have positive : 1 ≤ (lead :: rest).length := Nat.succ_pos _
    rw [nameCharWidth]
    split
    · exact positive
    · rw [letterWidth]
      split
      · exact positive
      · split
        · exact Nat.zero_le _
        · cases decoded : scalar? (lead :: rest) with
          | none => exact Nat.zero_le _
          | some found =>
            show (if Character.isLetter found.1 = true then found.2 else 0) ≤ _
            split
            · exact scalar?_width_le decoded
            · exact Nat.zero_le _

/-- A run of name characters ends at a newline. -/
theorem nameRun_newline (text more : Bytes) :
    nameRun (text ++ 0x0a :: more) = nameRun text := by
  induction text using nameRun.induct with
  | case1 =>
    have none : nameCharWidth (0x0a :: more) = 0 := nameCharWidth_newline [] more
    simp only [List.nil_append, nameRun, none]
  | case2 lead rest no_width =>
    have none := nameCharWidth_newline (lead :: rest) more
    rw [List.cons_append] at none ⊢
    rw [nameRun, nameRun, none, no_width]
  | case3 lead rest width has_width ih =>
    have same := nameCharWidth_newline (lead :: rest) more
    have inside : width ≤ rest.length := by
      have le := nameCharWidth_le (lead :: rest)
      rw [has_width, List.length_cons] at le
      omega
    rw [List.cons_append] at same ⊢
    rw [nameRun, nameRun, same, has_width]
    -- The character ends before the newline, so taking and dropping stay in front of it.
    show lead :: (rest ++ 0x0a :: more).take width
      ++ nameRun ((rest ++ 0x0a :: more).drop width) = _
    rw [List.take_append_of_le_length inside, List.drop_append_of_le_length inside, ih]

/-- A numeral ends at a newline. -/
theorem numeral_newline (text more : Bytes) :
    numeral (text ++ 0x0a :: more) = numeral text := by
  have digit : isDigit 0x0a = false := rfl
  unfold numeral
  rw [takeWhile_newline digit, dropWhile_newline digit]
  -- What follows the digits decides whether there is a fraction.
  cases text.dropWhile isDigit with
  | nil => rfl
  | cons byte rest =>
    rw [List.cons_append]
    by_cases point : byte = 0x2e
    · subst point
      simp only [takeWhile_newline digit]
    · split
      · rename_i same
        exact absurd (List.cons.inj same).1 point
      · split
        · rename_i same
          exact absurd (List.cons.inj same).1 point
        · rfl

/-- A number does not run on into a newline. -/
theorem runsOn_newline (text more : Bytes) : runsOn (text ++ 0x0a :: more) = runsOn text := by
  rw [runsOn, runsOn, startsName_newline]
  cases text <;> rfl

/-- The rest of a malformed number ends at a newline. -/
theorem numeralTail_newline (text more : Bytes) :
    numeralTail (text ++ 0x0a :: more) = numeralTail text := by
  induction text with
  | nil =>
    have none : nameCharWidth (0x0a :: more) = 0 := nameCharWidth_newline [] more
    simp [numeralTail, none]
  | cons lead rest ih =>
    have same := nameCharWidth_newline (lead :: rest) more
    rw [List.cons_append] at same ⊢
    rw [numeralTail, numeralTail, same, ih]

/-- A text literal ends at a newline, closed or not. -/
theorem quotedTail_newline (text more : Bytes) :
    quotedTail (text ++ 0x0a :: more) = quotedTail text := by
  induction text using quotedTail.induct with
  | case1 => simp [quotedTail]
  | case2 rest ih => simp only [List.cons_append, quotedTail, ih]
  | case3 rest not_doubled =>
    -- A closing quote is not doubled by the newline, either.
    cases rest with
    | nil => simp [quotedTail]
    | cons byte rest =>
      have other : byte ≠ 0x22 := by
        rintro rfl
        exact not_doubled rest rfl
      simp [quotedTail, other]
  | case4 rest not_quote => simp [quotedTail]
  | case5 byte rest not_doubled not_quote not_newline ih =>
    have other : byte ≠ 0x22 := not_quote
    simp [quotedTail, other, not_newline, ih]

end Bytes

/-! ## Pieces stop at a newline -/

namespace Piece

/-- A newline completes no operator. -/
theorem ofSign_newline (lead : UInt8) (rest more : Bytes) :
    ofSign lead (rest ++ 0x0a :: more) = ofSign lead rest := by
  have trail : Bytes.isTrail 0x0a = false := rfl
  have pair : TokenKind.ofPair? lead 0x0a = none := by
    unfold TokenKind.ofPair?
    split <;> simp_all
  unfold ofSign
  cases rest with
  | nil => simp [pair, trail]
  | cons byte rest =>
    rw [Bytes.takeWhile_newline trail, List.cons_append]
    rfl

/-- A number literal ends at a newline. -/
theorem ofNumeral_newline (text more : Bytes) :
    ofNumeral (text ++ 0x0a :: more) = ofNumeral text := by
  have inside : (Bytes.numeral text).length ≤ text.length :=
    (Bytes.numeral_isPrefix text).length_le
  rw [ofNumeral, ofNumeral, Bytes.numeral_newline, List.drop_append_of_le_length inside,
    Bytes.runsOn_newline, Bytes.numeralTail_newline]

/-- The piece at the front of a text does not depend on what stands behind a newline. -/
theorem first_newline (lead : UInt8) (rest more : Bytes) :
    first lead (rest ++ 0x0a :: more) = first lead rest := by
  -- Every test that the classes of pieces make gives the same on both texts.
  have comment : ((rest ++ 0x0a :: more).head? = some 0x2f) = (rest.head? = some 0x2f) := by
    cases rest <;> simp
  have digit : (rest ++ 0x0a :: more).head?.any Bytes.isDigit = rest.head?.any Bytes.isDigit := by
    cases rest <;> rfl
  have numeral := ofNumeral_newline (lead :: rest) more
  have name := Bytes.startsName_newline (lead :: rest) more
  have word := Bytes.nameRun_newline (lead :: rest) more
  rw [List.cons_append] at numeral name word
  have line : (rest ++ 0x0a :: more).takeWhile (· ≠ 0x0a) = rest.takeWhile (· ≠ 0x0a) :=
    Bytes.takeWhile_newline (by simp) rest more
  simp only [first, comment, digit, line, ofQuoted, ofName, numeral, name, word,
    Bytes.quotedTail_newline, ofSign_newline]

/-- The piece at the front of a text is not longer than the text. -/
theorem length_first_le (lead : UInt8) (rest : Bytes) :
    (first lead rest).text.length - 1 ≤ rest.length := by
  have le := (text_first_isPrefix lead rest).length_le
  rw [List.length_cons] at le
  omega

end Piece

/-- A text is cut line by line: into the pieces before a newline, the newline, and the pieces behind
it. -/
theorem pieces_newline (text more : Bytes) :
    pieces (text ++ 0x0a :: more) = pieces text ++ ⟨.mark .newline, [0x0a]⟩ :: pieces more := by
  induction text using pieces.induct with
  | case1 =>
    have front : Piece.first 0x0a more = ⟨.mark .newline, [0x0a]⟩ := rfl
    rw [List.nil_append, pieces_nil, List.nil_append, pieces, front]
    rfl
  | case2 lead rest ih =>
    rw [List.cons_append, pieces, Piece.first_newline,
      List.drop_append_of_le_length (Piece.length_first_le lead rest), ih, pieces, List.cons_append]

/-- What ends with a newline is cut before what follows. -/
theorem pieces_append {text : Bytes} (ends : text = [] ∨ ∃ front, text = front ++ [0x0a])
    (more : Bytes) : pieces (text ++ more) = pieces text ++ pieces more := by
  rcases ends with rfl | ⟨front, rfl⟩
  · simp
  · rw [List.append_assoc, List.singleton_append, pieces_newline, pieces_newline, pieces_nil,
      List.append_assoc]
    rfl

end ConsoleScript
