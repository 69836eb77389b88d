import ConsoleScript.Proofs.LineCutting
import ConsoleScript.Text.Blank
import Mathlib.Data.List.Basic

/-! # White space is no token

A text that trimming empties consists of white-space characters, and those are no part of a token.

* **`Bytes.exists_flatten_of_trim`** — such a text is a sequence of encoded white-space characters;
* **`Piece.first_of_blank`**, **`pieces_of_blank`** — cutting it gives blanks and line breaks, and a
  flaw for each white-space character that the language does not know. -/

namespace ConsoleScript

namespace Bytes

/-! ## Trimming -/

/-- What a front was dropped from started with one. -/
theorem exists_of_dropOneOf? {fronts : List Bytes} {text rest : Bytes}
    (dropped : dropOneOf? fronts text = some rest) : ∃ front ∈ fronts, text = front ++ rest := by
  obtain ⟨front, member, cut⟩ := List.exists_of_findSome?_eq_some dropped
  exact ⟨front, member, (List.isPrefixOf?_eq_some_iff_append_eq.1 cut).symm⟩

/-- A text of which nothing is left is a sequence of the fronts that were dropped. -/
theorem exists_flatten_of_dropAllOf {fronts : List Bytes} {text : Bytes}
    (nothing : dropAllOf fronts text = []) :
    ∃ units : List Bytes, (∀ unit ∈ units, unit ∈ fronts) ∧ text = units.flatten := by
  induction text using dropAllOf.induct fronts with
  | case1 text rest dropped shorter ih =>
    rw [dropAllOf, dropped] at nothing
    obtain ⟨units, members, parts⟩ := ih (by simpa [shorter] using nothing)
    obtain ⟨front, member, whole⟩ := exists_of_dropOneOf? dropped
    exact ⟨front :: units, List.forall_mem_cons.2 ⟨member, members⟩, by rw [whole, parts]; rfl⟩
  | case2 text rest dropped longer =>
    rw [dropAllOf, dropped] at nothing
    have empty : text = [] := by simpa [longer] using nothing
    exact ⟨[], by simp, empty⟩
  | case3 text kept =>
    rw [dropAllOf, kept] at nothing
    exact ⟨[], by simp, nothing⟩

/-- What is left after dropping starts with none of the fronts. -/
theorem dropAllOf_ne_append {fronts : List Bytes} (nonempty : ∀ front ∈ fronts, front ≠ [])
    (text : Bytes) {front : Bytes} (member : front ∈ fronts) (rest : Bytes) :
    dropAllOf fronts text ≠ front ++ rest := by
  induction text using dropAllOf.induct fronts with
  | case1 text behind dropped shorter ih =>
    rw [dropAllOf, dropped]
    simpa [shorter] using ih
  | case2 text behind dropped longer =>
    obtain ⟨other, other_member, whole⟩ := exists_of_dropOneOf? dropped
    have positive := List.length_pos_iff.2 (nonempty other other_member)
    rw [whole, List.length_append] at longer
    omega
  | case3 text kept =>
    rw [dropAllOf, kept]
    rintro rfl
    have none := List.findSome?_eq_none_iff.1 kept front member
    rw [List.isPrefixOf?_eq_some_iff_append_eq.2 rfl] at none
    cases none

end Bytes

theorem Character.blankEncodings_ne_nil : ∀ unit ∈ Character.blankEncodings, unit ≠ [] := by
  decide

/-- A text that trimming empties is a sequence of white-space characters. -/
theorem Bytes.exists_flatten_of_trim {text : Bytes} (blank : text.trim = []) :
    ∃ units : List Bytes, (∀ unit ∈ units, unit ∈ Character.blankEncodings) ∧
      text = units.flatten := by
  rw [trim, List.reverse_eq_nil_iff] at blank
  obtain ⟨units, members, parts⟩ := exists_flatten_of_dropAllOf blank
  -- If anything were left at the front, it would start with white space again.
  have nothing : dropAllOf Character.blankEncodings text = [] := by
    rcases units.eq_nil_or_concat' with rfl | ⟨others, unit, rfl⟩
    · simpa using parts
    · obtain ⟨front, member, rfl⟩ := List.mem_map.1 (members unit (by simp))
      have whole := congrArg List.reverse parts
      rw [List.reverse_reverse, List.flatten_append, List.flatten_singleton, List.reverse_append,
        List.reverse_reverse] at whole
      exact absurd whole (dropAllOf_ne_append Character.blankEncodings_ne_nil text member _)
  exact exists_flatten_of_dropAllOf nothing

/-! ## Cutting white space -/

/-- A character is decoded in the same way before more text. -/
theorem Bytes.scalar?_append {text : Bytes} {found : Nat × Nat}
    (decoded : scalar? text = some found) (more : Bytes) : scalar? (text ++ more) = some found := by
  unfold scalar? at decoded
  split at decoded
  · cases decoded
  · repeat' split at decoded
    all_goals cases decoded
    all_goals simp +contextual [scalar?, *]

namespace Character

/-- No white space is a letter. This is all that is used of the letters of a certain version. -/
theorem isLetter_of_mem_blankScalars : ∀ scalar ∈ blankScalars, isLetter scalar = false := by
  decide +kernel

/-- An encoded character above the ASCII range that is white space. -/
def isForeign (unit : Bytes) : Bool :=
  unit.head?.any (0x80 ≤ ·) && (Bytes.scalar? unit).any fun found => found.1 ∈ blankScalars

/-- White space is a blank, a line break, one of two control characters or foreign. -/
theorem mem_blankEncodings : ∀ unit ∈ blankEncodings,
    unit ∈ [[0x20], [0x09], [0x0d], [0x0a]] ∨ unit ∈ [[0x0b], [0x0c]] ∨ isForeign unit = true := by
  decide +kernel

/-- No name starts with a foreign character. -/
theorem startsName_of_isForeign {lead : UInt8} {rest : Bytes}
    (foreign : isForeign (lead :: rest) = true) (more : Bytes) :
    0x80 ≤ lead ∧ Bytes.startsName (lead :: (rest ++ more)) = false := by
  rw [isForeign, Bool.and_eq_true] at foreign
  obtain ⟨high, other⟩ := foreign
  have lead_high : 0x80 ≤ lead := by simpa using high
  have above (byte : UInt8) (low : byte < 0x80) : ¬lead ≤ byte :=
    UInt8.not_le.2 (UInt8.lt_of_lt_of_le low lead_high)
  have plain : Bytes.isPlainLetter lead = false := by
    have score : lead ≠ 0x5f := by
      rintro rfl
      exact absurd lead_high (by decide)
    simp [Bytes.isPlainLetter, above, score]
  obtain ⟨found, decoded, blank⟩ := (Option.any_eq_true _ _).1 other
  have letter : isLetter found.1 = false :=
    isLetter_of_mem_blankScalars found.1 (of_decide_eq_true blank)
  have same := Bytes.scalar?_append decoded more
  rw [List.cons_append] at same
  exact ⟨lead_high, by simp [Bytes.startsName, Bytes.letterWidth, plain, same, letter]⟩

end Character

namespace Piece

/-- A byte above the ASCII range that no name starts with is a flaw, with all continuation bytes
behind it. -/
theorem first_eq_of_foreign {lead : UInt8} {rest : Bytes} (high : 0x80 ≤ lead)
    (unnamed : Bytes.startsName (lead :: rest) = false) :
    first lead rest = ⟨.flaw .unexpectedCharacter, lead :: rest.takeWhile Bytes.isTrail⟩ := by
  -- Every other class of pieces starts with an ASCII character or with a name.
  have differs (byte : UInt8) (low : byte < 0x80) : lead ≠ byte := by
    rintro rfl
    exact absurd high (UInt8.not_le.2 low)
  have spacing : Bytes.isSpacing lead = false := by
    simp [Bytes.isSpacing, differs]
  have digit : Bytes.isDigit lead = false := by
    have above : ¬lead ≤ 0x39 := UInt8.not_le.2 (UInt8.lt_of_lt_of_le (by decide) high)
    simp [Bytes.isDigit, above]
  have sign : TokenKind.ofByte? lead = none := by
    unfold TokenKind.ofByte?
    split <;> simp_all
  have pair (next : UInt8) : TokenKind.ofPair? lead next = none := by
    unfold TokenKind.ofPair?
    split <;> simp_all
  have none : rest.head?.bind (TokenKind.ofPair? lead) = none := by
    cases rest <;> simp [pair]
  have not_low : ¬lead < 0x80 := UInt8.not_lt.2 high
  simp [first, spacing, digit, differs, unnamed, ofSign, none, sign, not_low]

/-- A character above the ASCII range that no name starts with is a flaw. -/
theorem first_of_foreign {lead : UInt8} {rest : Bytes} (high : 0x80 ≤ lead)
    (unnamed : Bytes.startsName (lead :: rest) = false) :
    (first lead rest).sort = .flaw .unexpectedCharacter := by
  rw [first_eq_of_foreign high unnamed]

/-- White space at the front is a blank, a line break or a flaw. -/
theorem first_of_blank {unit : Bytes} (blank : unit ∈ Character.blankEncodings) (more : Bytes) :
    ∃ lead rest, unit = lead :: rest ∧
      ((rest = [] ∧
          (first lead more = ⟨.gap, [lead]⟩ ∨ first lead more = ⟨.mark .newline, [lead]⟩)) ∨
        (first lead (rest ++ more)).sort = .flaw .unexpectedCharacter) := by
  rcases Character.mem_blankEncodings unit blank with plain | control | foreign
  · simp only [List.mem_cons, List.not_mem_nil, or_false] at plain
    rcases plain with rfl | rfl | rfl | rfl
    · exact ⟨0x20, [], rfl, .inl ⟨rfl, .inl rfl⟩⟩
    · exact ⟨0x09, [], rfl, .inl ⟨rfl, .inl rfl⟩⟩
    · exact ⟨0x0d, [], rfl, .inl ⟨rfl, .inl rfl⟩⟩
    · exact ⟨0x0a, [], rfl, .inl ⟨rfl, .inr rfl⟩⟩
  · simp only [List.mem_cons, List.not_mem_nil, or_false] at control
    rcases control with rfl | rfl
    · exact ⟨0x0b, [], rfl, .inr (by cases more <;> rfl)⟩
    · exact ⟨0x0c, [], rfl, .inr (by cases more <;> rfl)⟩
  · cases unit with
    | nil => cases foreign
    | cons lead rest =>
      obtain ⟨high, unnamed⟩ := Character.startsName_of_isForeign foreign more
      exact ⟨lead, rest, rfl, .inr (first_of_foreign high unnamed)⟩

/-- A flaw is complained about. -/
theorem complaint?_ne_none {piece : Piece} (flaw : piece.sort = .flaw .unexpectedCharacter) :
    piece.complaint? ≠ none := by
  simp [complaint?, flaw]

end Piece

/-- If there is nothing to complain about, white space is cut into blanks and line breaks. -/
theorem pieces_of_blank {units : List Bytes}
    (blank : ∀ unit ∈ units, unit ∈ Character.blankEncodings)
    (sound : ∀ piece ∈ pieces units.flatten, piece.complaint? = none) :
    ∀ piece ∈ pieces units.flatten, piece.kind? = none ∨ piece.kind? = some .newline := by
  induction units with
  | nil => simp
  | cons unit units ih =>
    obtain ⟨here, there⟩ := List.forall_mem_cons.1 blank
    obtain ⟨lead, rest, rfl, plain | flaw⟩ := Piece.first_of_blank here units.flatten
    · obtain ⟨rfl, front⟩ := plain
      have cut : pieces ([lead] :: units).flatten
          = Piece.first lead units.flatten :: pieces units.flatten := by
        rw [List.flatten_cons, List.singleton_append, pieces]
        rcases front with front | front <;> rw [front] <;> rfl
      rw [cut] at sound ⊢
      refine List.forall_mem_cons.2 ⟨?_, ih there (List.forall_mem_cons.1 sound).2⟩
      rcases front with front | front <;> rw [front]
      · exact .inl rfl
      · exact .inr rfl
    · -- The language does not know this character, and the first piece says so.
      rw [List.flatten_cons, List.cons_append, pieces] at sound
      exact absurd (sound _ List.mem_cons_self) (Piece.complaint?_ne_none flaw)

end ConsoleScript
