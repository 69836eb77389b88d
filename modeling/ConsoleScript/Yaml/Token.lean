import ConsoleScript.Yaml.Scalar

/-! # Tokens of a YAML document

A document is cut into tokens that make its indentation explicit: a block collection is opened by a
token of its own where its column is first met, and closed where the text falls back behind that
column. That a scalar is a key only turns out at the colon behind it; the tokens that say so are
then put in front of the scalar.

Text that is no YAML ends the token list with `broken`. Anchors, tags, block scalars and directives
other than the one that names the version are not part of the dialect that is read here. -/

namespace ConsoleScript

namespace Yaml

/-- A token of a document. -/
inductive Token where
  /-- The directive that names the version of the language. -/
  | version (major minor : Nat)
  /-- The marker before a document. -/
  | documentStart
  /-- The marker behind a document. -/
  | documentEnd
  /-- A block sequence begins. -/
  | blockSequenceStart
  /-- A block mapping begins. -/
  | blockMappingStart
  /-- A block collection ends. -/
  | blockEnd
  /-- An opening bracket. -/
  | flowSequenceStart
  /-- A closing bracket. -/
  | flowSequenceEnd
  /-- An opening brace. -/
  | flowMappingStart
  /-- A closing brace. -/
  | flowMappingEnd
  /-- The dash before an item of a block sequence. -/
  | blockEntry
  /-- The comma between items of a flow collection. -/
  | flowEntry
  /-- A key follows. -/
  | key
  /-- A value follows. -/
  | value
  /-- A scalar, plain or quoted. -/
  | scalar (isPlain : Bool) (text : Bytes)
  /-- The end of the document stream. -/
  | streamEnd
  /-- The text from here on is no YAML. -/
  | broken
  deriving DecidableEq

/-- A token with the number of its line, counted from one. -/
structure PlacedToken where
  /-- The token. -/
  token : Token
  /-- Its line. -/
  line : Nat

/-- A place where a key without a mark of its own may have begun. -/
structure KeyCandidate where
  /-- Whether it has to be a key: it stands at the column of an open block mapping. -/
  required : Bool
  /-- The number of tokens before it. -/
  position : Nat
  /-- Where it stands. -/
  mark : Mark

/-- Whether a key that began there may still end at a mark: it stands on one line, and its colon at
most 1024 characters behind its beginning. -/
def KeyCandidate.reaches (candidate : KeyCandidate) (mark : Mark) : Bool :=
  mark.line ≤ candidate.mark.line && mark.index ≤ candidate.mark.index + 1024

/-- What was met last in the gap between two tokens. -/
inductive GapPart where
  /-- Blanks or line breaks. -/
  | blank
  /-- A comment that runs to the end of the line. -/
  | comment
  /-- A comment, with nothing but white space between it and the next one. -/
  | betweenComments
  deriving DecidableEq

/-- Whether a comment follows behind white space of at most 511 characters. -/
def commentFollows (text : List Nat) : Bool :=
  ((text.take 511).dropWhile fun scalar => isBlank scalar || scalar == 0x0a || scalar == 0x0d).head?
    = some 0x23

/-- What the beginning of the next line belongs to, given the text behind the first character of the
line break. -/
def GapPart.nextLine (part : GapPart) (behind : List Nat) : GapPart :=
  if part = comment then if commentFollows behind then betweenComments else blank else part

/-- The state of cutting a document into tokens. -/
structure Progress where
  /-- What is left of the document. -/
  rest : List Nat
  /-- Where reading stands. -/
  mark : Mark
  /-- The tokens so far. -/
  tokens : List PlacedToken
  /-- Whether a key without a mark of its own may begin here. -/
  keyAllowed : Bool
  /-- The key candidate of the innermost collection. -/
  candidate : Option KeyCandidate
  /-- The key candidates of the collections around the open flow collections, innermost first. -/
  outerCandidates : List (Option KeyCandidate)
  /-- The column of the innermost block collection, minus one outside of all. -/
  indent : Int
  /-- The columns of the block collections around it, innermost first. -/
  outerIndents : List Int

namespace Progress

/-- The state before a document. -/
def start (source : List Nat) : Progress where
  rest := source
  mark := .start
  tokens := []
  keyAllowed := true
  candidate := none
  outerCandidates := []
  indent := -1
  outerIndents := []

/-- Whether reading stands inside a flow collection. -/
def inFlow (progress : Progress) : Bool :=
  !progress.outerCandidates.isEmpty

/-- Whether reading stands at the beginning of a line. -/
def atLineStart (progress : Progress) : Bool :=
  progress.mark.column == 0

/-- Adds a token for the current place. -/
def emit (progress : Progress) (token : Token) : Progress :=
  { progress with tokens := progress.tokens ++ [⟨token, progress.mark.line + 1⟩] }

/-- Steps over characters of the current line. -/
def skip (progress : Progress) (count : Nat) : Progress :=
  { progress with
    rest := progress.rest.drop count
    mark := progress.mark.skip count }

/-- Steps over blanks, comments and line breaks. Outside flow collections a line break allows a key,
and a tab does not count as a blank where a key may begin, unless it stands between comments. -/
def skipGap (progress : Progress) : Progress :=
  go progress.rest progress.mark progress.keyAllowed .blank
where
  /-- Steps over a text; `part` tells what was met last. -/
  go : List Nat → Mark → Bool → GapPart → Progress
    | [], mark, allowed, _ => { progress with rest := [], mark, keyAllowed := allowed }
    | 0x0d :: 0x0a :: rest, mark, allowed, part =>
      go rest (mark.nextLine 2) (allowed || !progress.inFlow) (part.nextLine (0x0a :: rest))
    | scalar :: rest, mark, allowed, part =>
      if isBreak scalar then
        go rest (mark.nextLine 1) (allowed || !progress.inFlow)
          -- Only a line feed or a carriage return is looked past for another comment.
          (if scalar == 0x0a || scalar == 0x0d then part.nextLine rest else .blank)
      else if part = .comment then go rest mark.next allowed part
      else if scalar == 0x23 then go rest mark.next allowed .comment
      else if scalar == 0x20
          || (scalar == 0x09 && (progress.inFlow || !allowed || part = .betweenComments)) then
        go rest mark.next allowed part
      else { progress with rest := scalar :: rest, mark, keyAllowed := allowed }

/-- Steps over blanks, tabs among them, if a comment follows on the line. -/
def skipToComment (progress : Progress) : Progress :=
  let blanks := (progress.rest.takeWhile isBlank).length
  if blanks < 512 ∧ (progress.rest.drop blanks).head? = some 0x23 then progress.skip blanks
  else progress

/-- Closes the block collections whose columns lie behind `column`. -/
def closeBlocks (progress : Progress) (column : Int) : Progress :=
  if progress.inFlow then progress else go progress.outerIndents progress.indent progress.tokens
where
  /-- Closes collections; `outer` are the columns around the one at `indent`. -/
  go : List Int → Int → List PlacedToken → Progress
    | [], indent, tokens => { progress with indent, outerIndents := [], tokens }
    | outer :: more, indent, tokens =>
      if column < indent then go more outer (tokens ++ [⟨.blockEnd, progress.mark.line + 1⟩])
      else { progress with indent, outerIndents := outer :: more, tokens }

/-- Opens a block collection at a column behind the innermost one, its token put at `position`. -/
def openBlock (progress : Progress) (column : Int) (position : Nat) (token : PlacedToken) :
    Progress :=
  if progress.inFlow || decide (column ≤ progress.indent) then progress
  else
    { progress with
      indent := column
      outerIndents := progress.indent :: progress.outerIndents
      tokens := progress.tokens.insertIdx position token }

/-- Gives up the key candidate; none may be given up that has to be a key. -/
def dropCandidate (progress : Progress) : Option Progress :=
  if progress.candidate.any KeyCandidate.required then none
  else some { progress with candidate := none }

/-- Makes the current place a key candidate, if a key may begin here. -/
def saveCandidate (progress : Progress) : Option Progress :=
  if progress.keyAllowed then
    progress.dropCandidate.map fun cleared =>
      { cleared with candidate := some {
          required := !progress.inFlow && decide (progress.indent = Int.ofNat progress.mark.column)
          position := progress.tokens.length
          mark := progress.mark } }
  else some progress

/-- The marker of a document: all block collections end before it. -/
def documentMarker (progress : Progress) (token : Token) : Option Progress :=
  (progress.closeBlocks (-1)).dropCandidate.map fun cleared =>
    ({ cleared with keyAllowed := false }.emit token).skip 3

/-- The version number at the front of a text, of one or two digits, and what is behind it. -/
def versionNumber? (text : List Nat) : Option (Nat × List Nat) :=
  let digits := text.takeWhile fun scalar => 0x30 ≤ scalar && scalar ≤ 0x39
  if digits.length = 1 ∨ digits.length = 2 then
    some (digits.foldl (fun value digit => 10 * value + (digit - 0x30)) 0, text.drop digits.length)
  else none

/-- The word that opens a directive with the version of the language. -/
def versionWord : List Nat :=
  [0x25, 0x59, 0x41, 0x4d, 0x4c]

/-- A directive, which fills its line but for a comment. Only the one with the version is known. -/
def directive (progress : Progress) : Option Progress := do
  let cleared ← (progress.closeBlocks (-1)).dropCandidate
  guard (versionWord.isPrefixOf progress.rest)
  let behindWord := progress.rest.drop versionWord.length
  guard (behindWord.head?.any isBlank)
  let (major, behindMajor) ← versionNumber? (behindWord.dropWhile isBlank)
  guard (behindMajor.head? = some 0x2e)
  let (minor, behindMinor) ← versionNumber? behindMajor.tail
  let remaining := behindMinor.dropWhile isBlank
  guard (remaining.head?.all fun scalar => isBreak scalar || scalar == 0x23)
  let line := progress.rest.takeWhile fun scalar => !isBreak scalar
  let width := if [0x0d, 0x0a].isPrefixOf (progress.rest.drop line.length) then 2 else 1
  let emitted := { cleared with keyAllowed := false }.emit (.version major minor)
  return { emitted with
    rest := progress.rest.drop (line.length + width)
    mark := (progress.mark.skip line.length).nextLine width }

/-- The beginning of a flow collection. -/
def openFlow (progress : Progress) (token : Token) : Option Progress :=
  progress.saveCandidate.map fun saved =>
    ({ saved with
      keyAllowed := true
      candidate := none
      outerCandidates := saved.candidate :: saved.outerCandidates }.emit token).skip 1

/-- The end of a flow collection. -/
def closeFlow (progress : Progress) (token : Token) : Option Progress :=
  progress.dropCandidate.map fun cleared =>
    let outside := match cleared.outerCandidates with
      | [] => cleared
      | candidate :: more => { cleared with candidate, outerCandidates := more }
    ({ outside with keyAllowed := false }.emit token).skip 1

/-- The comma in a flow collection. -/
def flowEntry (progress : Progress) : Option Progress :=
  progress.dropCandidate.map fun cleared =>
    ({ cleared with keyAllowed := true }.emit .flowEntry).skip 1

/-- The dash before an item of a block sequence. -/
def blockEntry (progress : Progress) : Option Progress :=
  if !progress.inFlow && !progress.keyAllowed then none
  else
    let opened := progress.openBlock (Int.ofNat progress.mark.column) progress.tokens.length
      ⟨.blockSequenceStart, progress.mark.line + 1⟩
    opened.dropCandidate.map fun cleared =>
      ({ cleared with keyAllowed := true }.emit .blockEntry).skip 1

/-- The mark before a key. -/
def explicitKey (progress : Progress) : Option Progress :=
  if !progress.inFlow && !progress.keyAllowed then none
  else
    let opened := progress.openBlock (Int.ofNat progress.mark.column) progress.tokens.length
      ⟨.blockMappingStart, progress.mark.line + 1⟩
    opened.dropCandidate.map fun cleared =>
      (({ cleared with keyAllowed := !progress.inFlow }.emit .key).skip 1).skipToComment

/-- The colon before a value. A key candidate on the same line becomes the key. -/
def valueMark (progress : Progress) : Option Progress :=
  match progress.candidate with
  | some candidate =>
    if !candidate.reaches progress.mark then
      if candidate.required then none else withoutCandidate
    else
      let line := candidate.mark.line + 1
      let keyed := { progress with
        tokens := progress.tokens.insertIdx candidate.position ⟨.key, line⟩ }
      let opened := keyed.openBlock (Int.ofNat candidate.mark.column) candidate.position
        ⟨.blockMappingStart, line⟩
      some (({ opened with candidate := none, keyAllowed := false }.emit .value).skip 1)
  | none => withoutCandidate
where
  /-- The colon where there is no key before it. -/
  withoutCandidate : Option Progress :=
    if progress.inFlow then
      some (({ progress with candidate := none, keyAllowed := false }.emit .value).skip 1)
    else if progress.keyAllowed then
      let opened := progress.openBlock (Int.ofNat progress.mark.column) progress.tokens.length
        ⟨.blockMappingStart, progress.mark.line + 1⟩
      let marked := { opened with candidate := none, keyAllowed := true }.emit .value
      some (marked.skip 1).skipToComment
    else none

/-- The bytes of a text of scalar values. -/
def encode (text : List Nat) : Bytes :=
  text.flatMap fun scalar => (Character.ofScalar scalar).bytes

/-- A scalar, of which the reader `scan` knows the form. -/
def scalarToken (progress : Progress) (isPlain : Bool) (scan : Option ScalarScan) :
    Option Progress := do
  let saved ← progress.saveCandidate
  let found ← scan
  let emitted := saved.emit (.scalar isPlain (encode found.text))
  return { emitted with
    rest := found.rest
    mark := found.mark
    keyAllowed := found.crossed }

/-- Whether a plain scalar may start with the text. -/
def startsPlain (inFlow : Bool) : List Nat → Bool
  | [] => false
  | 0x2d :: rest => !(rest.head?.any isBlank)
  | 0x3f :: rest | 0x3a :: rest => !inFlow && !atGap rest
  | scalar :: _ =>
    !([0x2c, 0x5b, 0x5d, 0x7b, 0x7d, 0x23, 0x26, 0x2a, 0x21, 0x7c, 0x3e, 0x27, 0x22, 0x25, 0x40,
      0x60, 0x09].contains scalar)

/-- Reads one token that is not the end; nothing is left of a text that is no YAML. -/
def step (progress : Progress) : Option Progress :=
  let source := progress.rest
  let mark := progress.mark
  if progress.atLineStart && source.head? = some 0x25 then progress.directive
  else if progress.atLineStart && atDocumentMarker source then
    progress.documentMarker (if source.head? = some 0x2d then .documentStart else .documentEnd)
  else
    match source with
    | 0x5b :: _ => progress.openFlow .flowSequenceStart
    | 0x7b :: _ => progress.openFlow .flowMappingStart
    | 0x5d :: _ => progress.closeFlow .flowSequenceEnd
    | 0x7d :: _ => progress.closeFlow .flowMappingEnd
    | 0x2c :: _ => progress.flowEntry
    | 0x27 :: rest => progress.scalarToken false (scanSingle [] .none mark.next rest)
    | 0x22 :: rest =>
      progress.scalarToken false (scanDouble (rest.length + 1) [] .none mark.next rest)
    | _ =>
      if source.head? = some 0x2d ∧ atGap source.tail then progress.blockEntry
      else if source.head? = some 0x3f ∧ (progress.inFlow ∨ atGap source.tail) then
        progress.explicitKey
      else if source.head? = some 0x3a ∧ (progress.inFlow ∨ atGap source.tail) then
        progress.valueMark
      else if startsPlain progress.inFlow source then
        progress.scalarToken true
          (scanPlain progress.inFlow (progress.indent + 1) [] .none mark source)
      else none

/-- The tokens that are handed out before a text turns out to be no YAML. Reading is always two
tokens ahead, and a token that may still become a key is held back. -/
def breakOff (progress : Progress) : List PlacedToken :=
  let pending := (progress.candidate :: progress.outerCandidates).filterMap fun candidate =>
    (candidate.filter fun began => began.reaches progress.mark).map KeyCandidate.position
  progress.tokens.take (pending.foldl min (progress.tokens.length - 2))
    ++ [⟨.broken, progress.mark.line + 1⟩]

/-- The tokens of the rest of a document, read with at most `fuel` steps. -/
def finish (fuel : Nat) (progress : Progress) : List PlacedToken :=
  match fuel with
  | 0 => progress.breakOff
  | fuel + 1 =>
    let ready := progress.skipGap
    if ready.rest.isEmpty then
      match (ready.closeBlocks (-1)).dropCandidate with
      | some done => (done.emit .streamEnd).tokens
      | none => progress.breakOff
    else
      match (ready.closeBlocks (Int.ofNat ready.mark.column)).step with
      | some next => finish fuel next
      | none => progress.breakOff

end Progress

/-- Whether a scalar value may occur in a document. -/
def isAllowed (scalar : Nat) : Bool :=
  scalar == 0x09 || scalar == 0x0a || scalar == 0x0d || (0x20 ≤ scalar && scalar ≤ 0x7e)
    || scalar == 0x85 || (0xa0 ≤ scalar && scalar ≤ 0xd7ff)
    || (0xe000 ≤ scalar && scalar ≤ 0xfffd && scalar ≠ 0xfeff)
    || (0x10000 ≤ scalar && scalar ≤ 0x10ffff)

/-- The scalar values of a document without a byte order mark at its beginning; there are none if
the bytes are no UTF-8 or hold a character that may not occur. -/
def documentText? (source : Bytes) : Option (List Nat) := do
  let scalars ← (Bytes.characters source).mapM Character.scalar?
  let text := match scalars with
    | 0xfeff :: rest => rest
    | _ => scalars
  if text.all isAllowed then some text else none

/-- The tokens of a document stream. -/
def tokens (source : Bytes) : List PlacedToken :=
  match documentText? source with
  | some text => (Progress.start text).finish (text.length + 1)
  | none => [⟨.broken, 1⟩]

end Yaml

end ConsoleScript
