import ConsoleScript.Number.Display
import ConsoleScript.Text.Character

/-! # Structured reports as JSON

The reports for other programs are built as `Data` and written as indented JSON. Fields of a record
are written in the order in which they are given, so a report that wants sorted fields gives them
sorted. The writer fails on a number that JSON does not have. -/

namespace ConsoleScript

/-- A structured value. -/
inductive Data where
  /-- Nothing. -/
  | absent
  /-- A truth value. -/
  | flag (value : Bool)
  /-- An integer. -/
  | integer (value : Int)
  /-- A floating-point number. -/
  | number (value : Float)
  /-- A text. -/
  | text (value : Bytes)
  /-- A list of values. -/
  | list (items : List Data)
  /-- Named fields in order. -/
  | record (fields : List (String × Data))

namespace Character

/-- How a unit of text is written in a JSON string. The characters that matter in HTML and the two
line separators are written as escapes, and a stray byte becomes the replacement character. -/
def jsonEscaped (unit : Character) : Bytes :=
  let numeric (number : Nat) : Bytes := 0x5c :: 0x75 :: Bytes.hexadecimal 4 number
  match unit.scalar? with
  | none => (ofScalar 0xfffd).bytes
  | some scalar =>
    match scalar with
    | 0x22 | 0x5c => 0x5c :: unit.bytes
    | 0x08 => [0x5c, 0x62]
    | 0x0c => [0x5c, 0x66]
    | 0x0a => [0x5c, 0x6e]
    | 0x0d => [0x5c, 0x72]
    | 0x09 => [0x5c, 0x74]
    | 0x3c | 0x3e | 0x26 | 0x2028 | 0x2029 => numeric scalar
    | _ => if scalar < 0x20 then numeric scalar else unit.bytes

end Character

namespace Data

/-- A text as a JSON string. -/
def jsonText (text : Bytes) : Bytes :=
  0x22 :: (Bytes.characters text).flatMap Character.jsonEscaped ++ [0x22]

/-- A line break and the blanks that begin the next line. -/
def lineBreak (depth : Nat) : Bytes :=
  0x0a :: List.replicate (2 * depth) 0x20

/-- Written items between brackets: each on a line of its own, one level deeper. -/
def bracketed (depth : Nat) (opening closing : UInt8) : List Bytes → Bytes
  | [] => [opening, closing]
  | items =>
    opening :: lineBreak (depth + 1) ++ Bytes.joinWith (0x2c :: lineBreak (depth + 1)) items
      ++ lineBreak depth ++ [closing]

mutual

/-- The value as indented JSON, its first line continuing one at the given depth. There is no text
if a number in it is not finite; the number is returned instead. -/
def json (depth : Nat) : Data → Except Float Bytes
  | absent => .ok (Bytes.utf8 "null")
  | flag value => .ok (Bytes.utf8 (if value then "true" else "false"))
  | integer value => .ok (Bytes.signedDecimal value)
  | number value =>
    if value.isNaN || value.isInf then .error value else .ok (NumberStyle.json.finite value)
  | text value => .ok (jsonText value)
  | list items => (jsonItems (depth + 1) items).map (bracketed depth 0x5b 0x5d)
  | record fields => (jsonFields (depth + 1) fields).map (bracketed depth 0x7b 0x7d)

/-- The items of a list as JSON. -/
def jsonItems (depth : Nat) : List Data → Except Float (List Bytes)
  | [] => .ok []
  | item :: rest => do
    let first ← json depth item
    let others ← jsonItems depth rest
    return first :: others

/-- The fields of a record as JSON. -/
def jsonFields (depth : Nat) : List (String × Data) → Except Float (List Bytes)
  | [] => .ok []
  | (name, value) :: rest => do
    let first ← json depth value
    let others ← jsonFields depth rest
    return (jsonText (Bytes.utf8 name) ++ 0x3a :: 0x20 :: first) :: others

end

/-- The value as a JSON document with a newline at its end. -/
def document (data : Data) : Except Float Bytes :=
  (data.json 0).map (· ++ [0x0a])

/-- The message about a number that JSON does not have. -/
def unsupportedMessage (number : Float) : Bytes :=
  Bytes.utf8 "json: unsupported value: " ++
    if number.isNaN then Bytes.utf8 "NaN"
    else if Binary64.isNegative number then Bytes.utf8 "-Inf" else Bytes.utf8 "+Inf"

end Data

end ConsoleScript
