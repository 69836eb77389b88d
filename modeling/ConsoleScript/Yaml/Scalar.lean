import ConsoleScript.Text.Character

/-! # Scalars of a YAML document

A scalar is plain, in single quotes or in double quotes, and may run over several lines: white space
around a line break is dropped, one line break becomes a blank, and of several the first is dropped.
Text is a list of scalar values here, and a `Mark` says where in the document reading stands. -/

namespace ConsoleScript

namespace Yaml

/-- A place in a document, lines and columns counted from zero. -/
structure Mark where
  /-- The number of characters before the place. -/
  index : Nat
  /-- The line. -/
  line : Nat
  /-- The column in characters. -/
  column : Nat

namespace Mark

/-- The beginning of a document. -/
def start : Mark :=
  ⟨0, 0, 0⟩

/-- The place behind a character of the same line. -/
def next (mark : Mark) : Mark :=
  ⟨mark.index + 1, mark.line, mark.column + 1⟩

/-- The place behind `count` characters of the same line. -/
def skip (mark : Mark) (count : Nat) : Mark :=
  ⟨mark.index + count, mark.line, mark.column + count⟩

/-- The place behind a line break of `width` characters. -/
def nextLine (mark : Mark) (width : Nat) : Mark :=
  ⟨mark.index + width, mark.line + 1, 0⟩

end Mark

/-- A space or a tab. -/
def isBlank (scalar : Nat) : Bool :=
  scalar == 0x20 || scalar == 0x09

/-- A character that ends a line. -/
def isBreak (scalar : Nat) : Bool :=
  scalar == 0x0a || scalar == 0x0d || scalar == 0x85 || scalar == 0x2028 || scalar == 0x2029

/-- Whether a text is at its end, at a blank or at a line break. -/
def atGap : List Nat → Bool
  | [] => true
  | scalar :: _ => isBlank scalar || isBreak scalar

/-- Whether a text starts with the marker between documents or the one behind a document. -/
def atDocumentMarker : List Nat → Bool
  | 0x2d :: 0x2d :: 0x2d :: rest => atGap rest
  | 0x2e :: 0x2e :: 0x2e :: rest => atGap rest
  | _ => false

/-- What a line break stands for in a scalar: the separators of lines and paragraphs stay. -/
def breakText (scalar : Nat) : List Nat :=
  if scalar = 0x2028 ∨ scalar = 0x2029 then [scalar] else [0x0a]

/-- White space inside a scalar of which it is not yet known whether more text follows. -/
structure Gap where
  /-- Blanks on the current line. -/
  blanks : List Nat
  /-- Whether a line break was crossed. -/
  crossed : Bool
  /-- The first line break. -/
  firstBreak : List Nat
  /-- The line breaks behind the first. -/
  laterBreaks : List Nat

namespace Gap

/-- No white space. -/
def none : Gap :=
  ⟨[], false, [], []⟩

/-- Whether there is any white space. -/
def isSome (gap : Gap) : Bool :=
  gap.crossed || !gap.blanks.isEmpty

/-- The gap with one more blank, which only counts on the first line. -/
def addBlank (gap : Gap) (scalar : Nat) : Gap :=
  if gap.crossed then gap else { gap with blanks := gap.blanks ++ [scalar] }

/-- The gap with one more line break. -/
def addBreak (gap : Gap) (scalar : Nat) : Gap :=
  if gap.crossed then { gap with laterBreaks := gap.laterBreaks ++ breakText scalar }
  else ⟨[], true, breakText scalar, []⟩

/-- What the gap leaves between the texts around it. -/
def fold (gap : Gap) : List Nat :=
  if gap.crossed then
    if gap.firstBreak = [0x0a] then
      if gap.laterBreaks.isEmpty then [0x20] else gap.laterBreaks
    else gap.firstBreak ++ gap.laterBreaks
  else gap.blanks

end Gap

/-- A scalar that was read. -/
structure ScalarScan where
  /-- The text of the scalar. -/
  text : List Nat
  /-- What is left of the document. -/
  rest : List Nat
  /-- Where reading stands. -/
  mark : Mark
  /-- Whether a line break was crossed behind the text. -/
  crossed : Bool

/-- Whether a plain scalar ends before the text: a colon with white space behind it, or in a flow
collection one of its signs, among them the question mark before a key. -/
def endsPlain (inFlow : Bool) : List Nat → Bool
  | 0x3a :: rest => atGap rest
  | scalar :: _ => inFlow && [0x2c, 0x3f, 0x5b, 0x5d, 0x7b, 0x7d].contains scalar
  | [] => true

/-- Reads a plain scalar, whose further lines have to start at column `indent` or behind it. There
is none if a tab stands in the indentation. -/
def scanPlain (inFlow : Bool) (indent : Int) (text : List Nat) (gap : Gap) (mark : Mark) :
    List Nat → Option ScalarScan
  | [] => some ⟨text, [], mark, gap.crossed⟩
  | 0x0d :: 0x0a :: rest =>
    scanPlain inFlow indent text (gap.addBreak 0x0a) (mark.nextLine 2) rest
  | scalar :: rest =>
    if isBreak scalar then
      scanPlain inFlow indent text (gap.addBreak scalar) (mark.nextLine 1) rest
    else if isBlank scalar then
      if gap.crossed && decide (Int.ofNat mark.column < indent) && scalar == 0x09 then none
      else scanPlain inFlow indent text (gap.addBlank scalar) mark.next rest
    else if (gap.isSome && ((!inFlow && decide (Int.ofNat mark.column < indent)) || scalar == 0x23))
        || (mark.column == 0 && atDocumentMarker (scalar :: rest))
        || endsPlain inFlow (scalar :: rest) then
      some ⟨text, scalar :: rest, mark, gap.crossed⟩
    else scanPlain inFlow indent (text ++ gap.fold ++ [scalar]) .none mark.next rest

/-- Reads a scalar in single quotes behind its opening quote; a quote is written twice. -/
def scanSingle (text : List Nat) (gap : Gap) (mark : Mark) : List Nat → Option ScalarScan
  | [] => none
  | 0x0d :: 0x0a :: rest => scanSingle text (gap.addBreak 0x0a) (mark.nextLine 2) rest
  | 0x27 :: 0x27 :: rest => scanSingle (text ++ gap.fold ++ [0x27]) .none mark.next.next rest
  | 0x27 :: rest => some ⟨text ++ gap.fold, rest, mark.next, false⟩
  | scalar :: rest =>
    if isBreak scalar then scanSingle text (gap.addBreak scalar) (mark.nextLine 1) rest
    else if isBlank scalar then scanSingle text (gap.addBlank scalar) mark.next rest
    else if mark.column == 0 && atDocumentMarker (scalar :: rest) then none
    else scanSingle (text ++ gap.fold ++ [scalar]) .none mark.next rest

/-- The character that a letter behind a backslash stands for. -/
def escapedScalar? : Nat → Option Nat
  | 0x30 => some 0x00
  | 0x61 => some 0x07
  | 0x62 => some 0x08
  | 0x74 => some 0x09
  | 0x09 => some 0x09
  | 0x6e => some 0x0a
  | 0x76 => some 0x0b
  | 0x66 => some 0x0c
  | 0x72 => some 0x0d
  | 0x65 => some 0x1b
  | 0x20 => some 0x20
  | 0x22 => some 0x22
  | 0x27 => some 0x27
  | 0x5c => some 0x5c
  | 0x4e => some 0x85
  | 0x5f => some 0xa0
  | 0x4c => some 0x2028
  | 0x50 => some 0x2029
  | _ => none

/-- The number of hexadecimal digits behind a letter that opens a numeric escape. -/
def escapeWidth? : Nat → Option Nat
  | 0x78 => some 2
  | 0x75 => some 4
  | 0x55 => some 8
  | _ => none

/-- The value of a hexadecimal digit. -/
def hexDigit? (scalar : Nat) : Option Nat :=
  if 0x30 ≤ scalar ∧ scalar ≤ 0x39 then some (scalar - 0x30)
  else if 0x41 ≤ scalar ∧ scalar ≤ 0x46 then some (scalar - 0x37)
  else if 0x61 ≤ scalar ∧ scalar ≤ 0x66 then some (scalar - 0x57)
  else none

/-- The value of hexadecimal digits that name a character. -/
def hexScalar? (digits : List Nat) : Option Nat := do
  let values ← digits.mapM hexDigit?
  let value := values.foldl (fun total digit => 16 * total + digit) 0
  if (0xd800 ≤ value ∧ value ≤ 0xdfff) ∨ 0x10ffff < value then none else some value

/-- Reads a scalar in double quotes behind its opening quote, with at most `fuel` steps. -/
def scanDouble (fuel : Nat) (text : List Nat) (gap : Gap) (mark : Mark) (source : List Nat) :
    Option ScalarScan :=
  match fuel with
  | 0 => none
  | fuel + 1 =>
    match source with
    | [] => none
    | 0x0d :: 0x0a :: rest => scanDouble fuel text (gap.addBreak 0x0a) (mark.nextLine 2) rest
    | 0x22 :: rest => some ⟨text ++ gap.fold, rest, mark.next, false⟩
    | 0x5c :: 0x0d :: 0x0a :: rest =>
      scanDouble fuel (text ++ gap.fold) ⟨[], true, [], []⟩ (mark.next.nextLine 2) rest
    | 0x5c :: letter :: rest =>
      if isBreak letter then
        scanDouble fuel (text ++ gap.fold) ⟨[], true, [], []⟩ (mark.next.nextLine 1) rest
      else
        match escapeWidth? letter with
        | some width =>
          if rest.length < width then none
          else
            match hexScalar? (rest.take width) with
            | some value =>
              scanDouble fuel (text ++ gap.fold ++ [value]) .none
                (mark.skip (width + 2)) (rest.drop width)
            | none => none
        | none =>
          match escapedScalar? letter with
          | some value =>
            scanDouble fuel (text ++ gap.fold ++ [value]) .none mark.next.next rest
          | none => none
    | scalar :: rest =>
      if isBreak scalar then scanDouble fuel text (gap.addBreak scalar) (mark.nextLine 1) rest
      else if isBlank scalar then scanDouble fuel text (gap.addBlank scalar) mark.next rest
      else if mark.column == 0 && atDocumentMarker (scalar :: rest) then none
      else scanDouble fuel (text ++ gap.fold ++ [scalar]) .none mark.next rest

end Yaml

end ConsoleScript
