import ConsoleScript.Text.Bytes

/-! # Characters of a byte string

A byte string is read as UTF-8 where it can be, and byte by byte where it cannot: `Bytes.scalar?`
decodes the character at the front, and `Bytes.characters` cuts a whole string into encoded
characters and stray bytes. Nothing is lost by the cut (`flatMap_bytes_characters`). -/

namespace ConsoleScript

namespace Bytes

/-- Whether a byte continues an encoded character. -/
def isTrail (byte : UInt8) : Bool :=
  0x80 ≤ byte && byte ≤ 0xbf

/-- The scalar value and the width in bytes of the character at the front, if the front of the text
is well-formed UTF-8. Overlong forms, surrogates and values above `0x10ffff` are ill-formed. -/
def scalar? : Bytes → Option (Nat × Nat)
  | [] => none
  | lead :: rest =>
    if lead < 0x80 then some (lead.toNat, 1)
    else if 0xc2 ≤ lead ∧ lead ≤ 0xdf then
      match rest with
      | second :: _ =>
        if isTrail second then some (lead.toNat % 32 * 64 + second.toNat % 64, 2) else none
      | _ => none
    else if 0xe0 ≤ lead ∧ lead ≤ 0xef then
      match rest with
      | second :: third :: _ =>
        if isTrail second ∧ isTrail third ∧ (lead = 0xe0 → 0xa0 ≤ second)
            ∧ (lead = 0xed → second ≤ 0x9f) then
          some (lead.toNat % 16 * 4096 + second.toNat % 64 * 64 + third.toNat % 64, 3)
        else none
      | _ => none
    else if 0xf0 ≤ lead ∧ lead ≤ 0xf4 then
      match rest with
      | second :: third :: fourth :: _ =>
        if isTrail second ∧ isTrail third ∧ isTrail fourth ∧ (lead = 0xf0 → 0x90 ≤ second)
            ∧ (lead = 0xf4 → second ≤ 0x8f) then
          some (lead.toNat % 8 * 262144 + second.toNat % 64 * 4096 + third.toNat % 64 * 64
            + fourth.toNat % 64, 4)
        else none
      | _ => none
    else none

end Bytes

/-- One unit of a byte string: an encoded character, or a byte that belongs to none. -/
structure Character where
  /-- The scalar value, absent for a stray byte. -/
  scalar? : Option Nat
  /-- The bytes of the unit. -/
  bytes : Bytes

namespace Character

/-- The unit at the front of the text `lead :: rest`. -/
def first (lead : UInt8) (rest : Bytes) : Character :=
  match Bytes.scalar? (lead :: rest) with
  | some (scalar, width) => ⟨some scalar, lead :: rest.take (width - 1)⟩
  | none => ⟨none, [lead]⟩

/-- A character of the ASCII range, given by its byte. -/
def ascii (byte : UInt8) : Character :=
  ⟨some byte.toNat, [byte]⟩

/-- The encoded character of a scalar value. -/
def ofScalar (scalar : Nat) : Character :=
  ⟨some scalar, String.utf8EncodeChar (Char.ofNat scalar)⟩

theorem bytes_first_length (lead : UInt8) (rest : Bytes) :
    (first lead rest).bytes = lead :: rest.take ((first lead rest).bytes.length - 1) := by
  unfold first
  split
  · simp only [List.length_cons, List.length_take, Nat.add_sub_cancel]
    rw [List.cons.injEq]
    exact ⟨rfl, List.take_eq_take_min⟩
  · simp

end Character

namespace Bytes

/-- The units of a byte string, in order. -/
def characters : Bytes → List Character
  | [] => []
  | lead :: rest =>
    Character.first lead rest
      :: characters (rest.drop ((Character.first lead rest).bytes.length - 1))
termination_by text => text.length
decreasing_by simp only [List.length_drop, List.length_cons]; omega

@[simp] theorem characters_nil : characters [] = [] := by
  rw [characters]

/-- The units of a byte string concatenate to it. -/
theorem flatMap_bytes_characters (text : Bytes) :
    (characters text).flatMap Character.bytes = text := by
  induction text using characters.induct with
  | case1 => simp
  | case2 lead rest ih =>
    rw [characters, List.flatMap_cons, ih]
    refine (congrArg (· ++ _) (Character.bytes_first_length lead rest)).trans ?_
    rw [List.cons_append, List.take_append_drop]

/-- Whether a byte string is well-formed UTF-8. -/
def isUtf8 (text : Bytes) : Bool :=
  (characters text).all fun unit => unit.scalar?.isSome

/-- The number of units of a byte string: characters, and stray bytes one by one. -/
def width (text : Bytes) : Nat :=
  (characters text).length

/-- The text followed by blanks up to `columns` units; a longer text stays as it is. -/
def padTo (columns : Nat) (text : Bytes) : Bytes :=
  text ++ List.replicate (columns - width text) 0x20

end Bytes

end ConsoleScript
