import ConsoleScript.Number.Binary64
import ConsoleScript.Number.Literal
import ConsoleScript.Proofs.TokenLanguages
import Mathlib

/-! # The values of number literals

A literal has no sign, and neither has its value, however long the literal is.

* **`Binary64.IsUnsigned`** — zero, a finite number or infinity, with a positive sign. Rounding
  gives nothing else, nor does dividing by a finite positive number, and packing what is unsigned
  into sixty-four bits keeps it so (`Binary64.IsUnsigned.unpack_pack`);
* **`Numeral.unsigned_nearest`** — the number that is nearest to a numeral is not negative;
* **`NumberReading.ofText?_of_isNumeral`** — what the lexer takes for a number is read as a decimal
  numeral without a sign, so it has a value (`unsigned_literalValue`) and is accepted unless that
  is infinite (`acceptsLiteral_eq`). -/

namespace ConsoleScript

open Float.Model (UnpackedFloat Format)
open Float.Model.UnpackedFloat

namespace Binary64

/-- A number that is not negative, with a positive sign also for zero. -/
def IsUnsigned : UnpackedFloat → Prop
  | .infinity sign | .zero sign | .finite sign .. => sign = .positive
  | .notANumber => False

/-- Rounding does not change a sign. -/
theorem isUnsigned_roundWithAccuracy (format : Format) (mantissa : Nat) (exponent : Int)
    (accuracy : Accuracy) :
    IsUnsigned (roundWithAccuracy format .positive mantissa exponent accuracy) := by
  unfold roundWithAccuracy
  dsimp only
  split <;> rfl

theorem isUnsigned_ofNat (format : Format) (number : Nat) :
    IsUnsigned (UnpackedFloat.ofNat format number) := by
  rw [UnpackedFloat.ofNat, UnpackedFloat.ofInt, UnpackedFloat.normalize]
  split
  · rename_i negative
    rw [Int.compare_eq_lt] at negative
    omega
  · rfl
  · exact isUnsigned_roundWithAccuracy ..

/-- A finite number above zero. -/
def isPositive : UnpackedFloat → Bool
  | .finite .positive .. => true
  | _ => false

/-- What is unsigned stays so when it is multiplied by a finite number above zero. -/
theorem IsUnsigned.mul {number factor : UnpackedFloat} (unsigned : IsUnsigned number)
    (positive : isPositive factor = true) (format : Format) :
    IsUnsigned (number.mul format factor) := by
  match number, unsigned, factor, positive with
  | .infinity .positive, _, .finite .positive .., _ => rfl
  | .zero .positive, _, .finite .positive .., _ => rfl
  | .finite .positive .., _, .finite .positive .., _ => exact isUnsigned_roundWithAccuracy ..

/-- What is unsigned stays so when it is divided by a finite number above zero. -/
theorem IsUnsigned.div {number divisor : UnpackedFloat} (unsigned : IsUnsigned number)
    (positive : isPositive divisor = true) (format : Format) :
    IsUnsigned (number.div format divisor) := by
  match number, unsigned, divisor, positive with
  | .infinity .positive, _, .finite .positive .., _ => rfl
  | .zero .positive, _, .finite .positive .., _ => rfl
  | .finite .positive .., _, .finite .positive .., _ => exact isUnsigned_roundWithAccuracy ..

theorem isUnsigned_ofScientific (format : Format) (digits : Nat) (exponent : Int) :
    IsUnsigned (UnpackedFloat.ofScientific format digits exponent) := by
  unfold UnpackedFloat.ofScientific
  split
  · rfl
  split
  · rfl
  split
  · rfl
  split
  · exact isUnsigned_roundWithAccuracy ..
  · exact isUnsigned_roundWithAccuracy ..

/-! ## Packing -/

/-- The sign is the first bit. -/
theorem unpackSign_packComponents {format : Format} {sign : Sign}
    {exponent : BitVec format.exponentBits}
    {mantissa : BitVec format.mantissaBitsWithoutImplicit} :
    unpackSign (packComponents format sign exponent mantissa) = sign.toBitVec := by
  ext index inside
  obtain rfl : index = 0 := by omega
  simp [unpackSign, packComponents, BitVec.getLsbD_append, BitVec.getElem_append]

/-- Three parts with a positive sign are an unsigned number, unless they stand for no number. -/
theorem isUnsigned_unpack {format : Format} {exponent : BitVec format.exponentBits}
    {mantissa : BitVec format.mantissaBitsWithoutImplicit}
    (number : exponent = -1#_ → mantissa = 0#_) :
    IsUnsigned (unpack format (packComponents format .positive exponent mantissa)) := by
  have sign : Sign.ofBitVec (Sign.toBitVec .positive) = .positive := rfl
  unfold unpack
  simp only [unpackMantissa_packComponents, unpackExponent_packComponents,
    unpackSign_packComponents, sign]
  split
  · rename_i all
    rw [if_pos (number all)]
    rfl
  split
  · split <;> rfl
  · rfl

/-- An unsigned number is packed into three parts with a positive sign, which stand for a number. -/
theorem IsUnsigned.exists_pack {number : UnpackedFloat} (unsigned : IsUnsigned number)
    (format : Format) :
    ∃ (exponent : BitVec format.exponentBits)
      (mantissa : BitVec format.mantissaBitsWithoutImplicit),
      pack format number = packComponents format .positive exponent mantissa ∧
        (exponent = -1#_ → mantissa = 0#_) := by
  match number, unsigned with
  | .infinity .positive, _ => exact ⟨_, _, rfl, fun _ => rfl⟩
  | .zero .positive, _ => exact ⟨_, _, rfl, fun _ => rfl⟩
  | .finite .positive mantissa exponent positive, _ =>
    rw [pack]
    split
    · exact ⟨_, _, rfl, fun _ => rfl⟩
    · rename_i small
      split
      -- The largest exponent is left to infinity, and it is not zero.
      · refine ⟨_, _, rfl, fun all => absurd small ?_⟩
        rw [BitVec.neg_one_eq_allOnes, ← BitVec.toNat_inj, BitVec.toNat_ofNat,
          BitVec.toNat_allOnes] at all
        have := Nat.mod_le (exponent + format.exponentBias
          + format.mantissaBitsWithoutImplicit).toNat (2 ^ format.exponentBits)
        omega
      · refine ⟨_, _, rfl, fun all => absurd all ?_⟩
        simp [Nat.pos_iff_ne_zero.1 format.he]

/-- Packing and unpacking keeps a number unsigned. -/
theorem IsUnsigned.unpack_pack {number : UnpackedFloat} (unsigned : IsUnsigned number)
    (format : Format) : IsUnsigned (unpack format (pack format number)) := by
  obtain ⟨exponent, mantissa, packed, finite⟩ := unsigned.exists_pack format
  rw [packed]
  exact isUnsigned_unpack finite

/-- What an unsigned number is packed into is a number and not negative. -/
theorem IsUnsigned.ofModel_pack {number : UnpackedFloat} (unsigned : IsUnsigned number) :
    (Float.ofModel (.pack number)).isNaN = false ∧
      isNegative (.ofModel (.pack number)) = false := by
  constructor
  · have kept := unsigned.unpack_pack .binary64
    change (unpack .binary64 (pack .binary64 number)).isNaN = false
    match unpack .binary64 (pack .binary64 number), kept with
    | .infinity .positive, _ => rfl
    | .zero .positive, _ => rfl
    | .finite .positive .., _ => rfl
  · obtain ⟨exponent, mantissa, packed, -⟩ := unsigned.exists_pack .binary64
    have sign : (unpackSign (pack .binary64 number)).toNat = 0 := by
      rw [packed, unpackSign_packComponents]
      rfl
    rw [unpackSign, BitVec.toNat_cast, BitVec.extractLsb_toNat, Nat.shiftRight_eq_div_pow] at sign
    have even : (pack .binary64 number).toNat / 2 ^ 63 % 2 = 0 := sign
    rw [isNegative, decide_eq_false_iff_not]
    intro negative
    have one : (pack .binary64 number).toNat / 2 ^ 63 = 1 := negative
    rw [one] at even
    cases even

/-- The powers of ten that have an exact value are finite and above zero. -/
theorem isPositive_powerOfTen : ∀ exponent : Fin 23,
    isPositive (Float.exactlyRepresentablePowersOfTen[exponent]).toModel.unpack = true := by
  decide +kernel

/-- A natural number with its point moved is a number, and it is not negative. -/
theorem unsigned_ofScientific (digits : Nat) (negative : Bool) (exponent : Nat) :
    (Float.ofScientific digits negative exponent).isNaN = false ∧
      isNegative (Float.ofScientific digits negative exponent) = false := by
  unfold Float.ofScientific
  split
  · rename_i small
    have power := isPositive_powerOfTen ⟨_, Nat.lt_succ_of_le small.2⟩
    have whole := (isUnsigned_ofNat .binary64 digits.toUInt64.toNat).unpack_pack .binary64
    cases negative with
    | true => exact (whole.div power .binary64).ofModel_pack
    | false => exact (whole.mul power .binary64).ofModel_pack
  · exact (isUnsigned_ofScientific .binary64 _ _).ofModel_pack

end Binary64

/-! ## Numerals -/

namespace Numeral

theorem unsigned_scaled (digits : Nat) (exponent : Int) :
    (scaled digits exponent).isNaN = false ∧ Binary64.isNegative (scaled digits exponent) = false :=
  match exponent with
  | .ofNat _ => Binary64.unsigned_ofScientific ..
  | .negSucc _ => Binary64.unsigned_ofScientific ..

/-- A numeral without its sign stands for a number that is not negative. -/
theorem unsigned_nearest (numeral : Numeral) :
    numeral.nearest.isNaN = false ∧ Binary64.isNegative numeral.nearest = false := by
  unfold nearest
  split
  · exact unsigned_scaled ..
  · split
    · exact unsigned_scaled ..
    · exact unsigned_scaled ..

end Numeral

/-! ## Literals of source texts -/

namespace Bytes

/-- Digits are no points. -/
theorem AllDigits.count_point {text : Bytes} (digits : AllDigits text) : text.count 0x2e = 0 :=
  List.count_eq_zero.2 fun member => absurd (digits _ member) (by decide)

/-- A number literal has a digit, and at most one point besides digits. -/
theorem IsNumeral.parts {text : Bytes} (number : IsNumeral text) :
    (∀ byte ∈ text, isDigit byte = true ∨ byte = 0x2e) ∧ (∃ byte ∈ text, isDigit byte = true) ∧
      text.count 0x2e ≤ 1 := by
  have some_digit {run : Bytes} (solid : run ≠ []) (digits : AllDigits run) :
      ∃ byte ∈ run, isDigit byte = true :=
    ⟨run.head solid, List.head_mem solid, digits _ (List.head_mem solid)⟩
  rcases number with
    ⟨whole, solid, digits, rfl | ⟨fraction, more, rfl⟩⟩ | ⟨fraction, solid, more, rfl⟩
  · exact ⟨fun byte member => .inl (digits byte member), some_digit solid digits,
      by rw [digits.count_point]; exact Nat.zero_le 1⟩
  · obtain ⟨byte, member, digit⟩ := some_digit solid digits
    refine ⟨?_, ⟨byte, List.mem_append_left _ member, digit⟩, ?_⟩
    · intro byte member
      rcases List.mem_append.1 member with inside | behind
      · exact .inl (digits byte inside)
      · exact (List.mem_cons.1 behind).symm.imp_left (more byte)
    · rw [List.count_append, List.count_cons_self, digits.count_point, more.count_point]
  · obtain ⟨byte, member, digit⟩ := some_digit solid more
    refine ⟨?_, ⟨byte, List.mem_cons_of_mem _ member, digit⟩, ?_⟩
    · exact fun byte member => (List.mem_cons.1 member).symm.imp_left (more byte)
    · rw [List.count_cons_self, more.count_point]

end Bytes

namespace Radix

/-- A decimal digit is one of a numeral. -/
theorem isDigit_decimal (byte : UInt8) : decimal.isDigit byte = Bytes.isDigit byte := by
  by_cases digit : 0x30 ≤ byte ∧ byte ≤ 0x39
  · simp [isDigit, digit?, Bytes.isDigit, digit]
  · have other : Bytes.isDigit byte = false := by simpa [Bytes.isDigit] using digit
    simp [isDigit, digit?, digit, other]

/-- Digits and points have no lower case. -/
theorem lowered_of_plain {byte : UInt8} (plain : Bytes.isDigit byte = true ∨ byte = 0x2e) :
    lowered byte = byte := by
  have each : ∀ code : Fin 256, Bytes.isDigit (.ofNat code) = true ∨ UInt8.ofNat code = 0x2e →
      lowered (.ofNat code) = .ofNat code := by
    decide +kernel
  simpa using each ⟨byte.toNat, byte.toNat_lt⟩ (by simpa using plain)

/-- Where there is no underscore, all of them stand between digits. -/
theorem separates_of_absent (radix : Radix) {text : Bytes} (absent : underscore ∉ text)
    (behind : Bool) : radix.separates behind text = true := by
  induction text generalizing behind with
  | nil => rfl
  | cons byte rest ih =>
    obtain ⟨other, further⟩ := not_or.1 (List.mem_cons.not.1 absent)
    rw [separates, if_neg (Ne.symm other)]
    exact ih further _

end Radix

/-- A number literal of a source text is a decimal numeral without an exponent. -/
theorem Numeral.ofDigits?_of_isNumeral {text : Bytes} (number : Bytes.IsNumeral text) :
    ∃ unsigned, ofDigits? .decimal text = some unsigned := by
  obtain ⟨plain, ⟨digit, inside, is_digit⟩, single⟩ := number.parts
  have run : ∀ byte ∈ text, Radix.decimal.isSignificand byte = true := by
    intro byte member
    rw [Radix.isSignificand, Radix.isDigit_decimal]
    rcases plain byte member with digit | rfl
    · rw [digit, Bool.true_or, Bool.true_or]
    · decide
  have whole : text.takeWhile Radix.decimal.isSignificand = text :=
    List.takeWhile_eq_self_iff.2 run
  have nothing : text.dropWhile Radix.decimal.isSignificand = [] :=
    List.dropWhile_eq_nil_iff.2 run
  have some_digit : text.any Radix.decimal.isDigit = true :=
    List.any_eq_true.2 ⟨digit, inside, (Radix.isDigit_decimal digit).trans is_digit⟩
  have absent : Radix.underscore ∉ text := fun member => absurd (plain _ member) (by decide)
  have separated := Radix.decimal.separates_of_absent absent (Radix.decimal = .hexadecimal)
  rw [ofDigits?, whole, nothing, if_pos ⟨some_digit, single, separated⟩]
  exact ⟨_, rfl⟩

/-- A number literal of a source text is a numeral without a sign. -/
theorem NumberReading.ofText?_of_isNumeral {text : Bytes} (number : Bytes.IsNumeral text) :
    ∃ unsigned, ofText? text = some (.numeral false unsigned) := by
  obtain ⟨plain, -, -⟩ := number.parts
  obtain ⟨unsigned, read⟩ := Numeral.ofDigits?_of_isNumeral number
  obtain ⟨lead, rest, rfl, -, -⟩ := number.lead
  have apart {byte other : UInt8} (member : byte ∈ lead :: rest)
      (letter : ¬(Bytes.isDigit other = true ∨ other = 0x2e)) : byte ≠ other :=
    fun same => letter (same ▸ plain byte member)
  have no_word {first : UInt8} {word : Bytes} (starts : word.head? = some first)
      (letter : ¬(Bytes.isDigit first = true ∨ first = 0x2e)) :
      (lead :: rest).map Radix.lowered ≠ word := by
    rintro rfl
    rw [List.map_cons, List.head?_cons, Option.some.injEq,
      Radix.lowered_of_plain (plain lead List.mem_cons_self)] at starts
    exact apart List.mem_cons_self letter starts
  have no_sign : splitSign (lead :: rest) = (false, lead :: rest) := by
    rw [splitSign, if_neg (apart List.mem_cons_self (by decide)),
      if_neg (apart List.mem_cons_self (by decide))]
  have no_prefix : Numeral.ofText? (lead :: rest) = Numeral.ofDigits? .decimal (lead :: rest) := by
    cases rest with
    | nil => rfl
    | cons letter more =>
      have inside : letter ∈ lead :: letter :: more := List.mem_cons_of_mem _ List.mem_cons_self
      rw [Numeral.ofText?, if_neg]
      rw [Radix.lowered_of_plain (plain letter inside)]
      exact fun both => apart inside (by decide) both.2
  refine ⟨unsigned, ?_⟩
  rw [ofText?, no_sign]
  dsimp only
  rw [if_neg (no_word rfl (by decide)),
    if_neg (not_or.2 ⟨no_word rfl (by decide), no_word rfl (by decide)⟩), no_prefix, read]
  rfl

/-- The value of a number literal of a source text is a number, and it is not negative. -/
theorem unsigned_literalValue {lexeme : Bytes} (number : Bytes.IsNumeral lexeme) :
    (literalValue lexeme).isNaN = false ∧ Binary64.isNegative (literalValue lexeme) = false := by
  obtain ⟨unsigned, read⟩ := NumberReading.ofText?_of_isNumeral number
  rw [literalValue, read]
  exact unsigned.unsigned_nearest

/-- A number literal of a source text is accepted unless it is beyond all finite numbers. -/
theorem acceptsLiteral_eq {lexeme : Bytes} (number : Bytes.IsNumeral lexeme) :
    acceptsLiteral lexeme = !(literalValue lexeme).isInf := by
  obtain ⟨unsigned, read⟩ := NumberReading.ofText?_of_isNumeral number
  rw [acceptsLiteral, literalValue, read]
  rfl

end ConsoleScript
