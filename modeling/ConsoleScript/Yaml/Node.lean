import ConsoleScript.Yaml.Token

/-! # Nodes of a YAML document

A document is a tree of scalars, sequences and mappings, every node with its line. The first
document of a stream is read off its tokens; an item, key or value that is left out is an empty
plain scalar. -/

namespace ConsoleScript

namespace Yaml

/-- A node of a document. -/
inductive Node where
  /-- A scalar, plain or quoted. -/
  | scalar (line : Nat) (isPlain : Bool) (text : Bytes)
  /-- A sequence of items. -/
  | sequence (line : Nat) (items : List Node)
  /-- A mapping of keys to values, in order. -/
  | mapping (line : Nat) (pairs : List (Node × Node))

namespace Node

/-- The line of a node. -/
def line : Node → Nat
  | scalar line _ _ | sequence line _ | mapping line _ => line

/-- The node for something that is left out on a line. -/
def empty (line : Nat) : Node :=
  scalar line true []

/-- A node with the tokens behind it. -/
abbrev Read := Option (Node × List PlacedToken)

/-- The token at the front of a list. -/
def front (tokens : List PlacedToken) : Token :=
  match tokens with
  | [] => .broken
  | placed :: _ => placed.token

/-- The line of the token at the front of a list. -/
def frontLine (tokens : List PlacedToken) : Nat :=
  match tokens with
  | [] => 1
  | placed :: _ => placed.line

mutual

/-- Reads a node. Block collections are only taken where `block` allows them, and a sequence whose
dashes stand at the column of the mapping around it only where `flush` does. -/
def read (fuel : Nat) (block flush : Bool) (tokens : List PlacedToken) : Read :=
  match fuel, tokens with
  | fuel + 1, placed :: rest =>
    match placed.token with
    | .scalar isPlain text => some (scalar placed.line isPlain text, rest)
    | .flowSequenceStart => do
      let (items, behind) ← readFlowItems fuel true rest
      return (sequence placed.line items, behind)
    | .flowMappingStart => do
      let (pairs, behind) ← readFlowPairs fuel true rest
      return (mapping placed.line pairs, behind)
    | .blockEntry =>
      if flush then do
        let (items, behind) ← readFlushItems fuel (placed :: rest)
        return (sequence placed.line items, behind)
      else none
    | .blockSequenceStart =>
      if block then do
        let (items, behind) ← readBlockItems fuel rest
        return (sequence placed.line items, behind)
      else none
    | .blockMappingStart =>
      if block then do
        let (pairs, behind) ← readBlockPairs fuel rest
        return (mapping placed.line pairs, behind)
      else none
    | _ => none
  | _, _ => none

/-- Reads a node, or an empty one for a line before a token that shows that it is left out. -/
def readUnless (fuel : Nat) (stops : List Token) (block flush : Bool) (line : Nat)
    (tokens : List PlacedToken) : Read :=
  match fuel with
  | 0 => none
  | fuel + 1 =>
    if front tokens = .broken then none
    else if stops.contains (front tokens) then some (empty line, tokens)
    else read fuel block flush tokens

/-- Reads the value behind a key, if there is a mark for it. -/
def readValue (fuel : Nat) (stops : List Token) (block : Bool) (tokens : List PlacedToken) : Read :=
  match fuel, tokens with
  | fuel + 1, placed :: rest =>
    match placed.token with
    | .value => readUnless fuel stops block block placed.line rest
    | .broken => none
    | _ => some (empty placed.line, placed :: rest)
  | _, _ => none

/-- Reads the items of a block sequence up to its end. -/
def readBlockItems (fuel : Nat) (tokens : List PlacedToken) :
    Option (List Node × List PlacedToken) :=
  match fuel, tokens with
  | fuel + 1, placed :: rest =>
    match placed.token with
    | .blockEntry => do
      let (item, behind) ← readUnless fuel [.blockEntry, .blockEnd] true false placed.line rest
      let (items, final) ← readBlockItems fuel behind
      return (item :: items, final)
    | .blockEnd => some ([], rest)
    | _ => none
  | _, _ => none

/-- Reads the items of a block sequence that has no end of its own. -/
def readFlushItems (fuel : Nat) (tokens : List PlacedToken) :
    Option (List Node × List PlacedToken) :=
  match fuel, tokens with
  | fuel + 1, placed :: rest =>
    match placed.token with
    | .blockEntry => do
      let (item, behind) ← readUnless fuel [.blockEntry, .key, .value, .blockEnd] true false
        placed.line rest
      let (items, final) ← readFlushItems fuel behind
      return (item :: items, final)
    | .broken => none
    | _ => some ([], placed :: rest)
  | _, _ => none

/-- Reads the pairs of a block mapping up to its end. -/
def readBlockPairs (fuel : Nat) (tokens : List PlacedToken) :
    Option (List (Node × Node) × List PlacedToken) :=
  match fuel, tokens with
  | fuel + 1, placed :: rest =>
    match placed.token with
    | .key => do
      let (key, behindKey) ← readUnless fuel [.key, .value, .blockEnd] true true placed.line rest
      let (value, behind) ← readValue fuel [.key, .value, .blockEnd] true behindKey
      let (pairs, final) ← readBlockPairs fuel behind
      return ((key, value) :: pairs, final)
    | .blockEnd => some ([], rest)
    | _ => none
  | _, _ => none

/-- Reads the key of a pair among the items of a flow sequence. A key that is left out takes up the
token that shows it. -/
def readPairKey (fuel : Nat) (tokens : List PlacedToken) : Read :=
  match fuel, tokens with
  | fuel + 1, placed :: rest =>
    if [Token.value, .flowEntry, .flowSequenceEnd].contains placed.token then
      some (empty placed.line, rest)
    else read fuel false false (placed :: rest)
  | _, _ => none

/-- Reads the items of a flow sequence up to its closing bracket; `isFirst` tells whether no comma
is due. A key among the items makes a mapping of one pair. -/
def readFlowItems (fuel : Nat) (isFirst : Bool) (tokens : List PlacedToken) :
    Option (List Node × List PlacedToken) :=
  match fuel, tokens with
  | fuel + 1, placed :: rest =>
    if placed.token = .flowSequenceEnd then some ([], rest)
    else if !isFirst && placed.token ≠ .flowEntry then none
    else
      let due := if isFirst then placed :: rest else rest
      match due with
      | [] => none
      | next :: behindNext =>
        if next.token = .flowSequenceEnd then some ([], behindNext)
        else if next.token = .key then do
          let (key, behindKey) ← readPairKey fuel behindNext
          let (value, behind) ← readValue fuel [.flowEntry, .flowSequenceEnd] false behindKey
          let (items, final) ← readFlowItems fuel false behind
          return (mapping next.line [(key, value)] :: items, final)
        else do
          let (item, behind) ← read fuel false false due
          let (items, final) ← readFlowItems fuel false behind
          return (item :: items, final)
  | _, _ => none

/-- Reads the pairs of a flow mapping up to its closing brace; `isFirst` tells whether no comma is
due. -/
def readFlowPairs (fuel : Nat) (isFirst : Bool) (tokens : List PlacedToken) :
    Option (List (Node × Node) × List PlacedToken) :=
  match fuel, tokens with
  | fuel + 1, placed :: rest =>
    if placed.token = .flowMappingEnd then some ([], rest)
    else if !isFirst && placed.token ≠ .flowEntry then none
    else
      let due := if isFirst then placed :: rest else rest
      match due with
      | [] => none
      | next :: behindNext =>
        if next.token = .flowMappingEnd then some ([], behindNext)
        else if next.token = .key then do
          let (key, behindKey) ← readUnless fuel [.value, .flowEntry, .flowMappingEnd] false false
            (frontLine behindNext) behindNext
          let (value, behind) ← readValue fuel [.flowEntry, .flowMappingEnd] false behindKey
          let (pairs, final) ← readFlowPairs fuel false behind
          return ((key, value) :: pairs, final)
        else do
          let (key, behind) ← read fuel false false due
          let (pairs, final) ← readFlowPairs fuel false behind
          return ((key, empty (frontLine behind)) :: pairs, final)
  | _, _ => none

end

/-- Whether a document has no content before a token. -/
def endsContent : Token → Bool
  | .version _ _ | .documentStart | .documentEnd | .streamEnd => true
  | _ => false

/-- The content of a document behind its marker, which may be left out. -/
def content (fuel : Nat) (tokens : List PlacedToken) : Read :=
  if endsContent (front tokens) then some (empty (frontLine tokens), tokens)
  else read fuel true false tokens

/-- The tokens behind the directives of a document; the one version that may be named is 1.1, and
only before a marker. -/
def behindDirectives : List PlacedToken → List PlacedToken
  | ⟨.version 1 1, _⟩ :: ⟨.documentStart, line⟩ :: rest => ⟨.documentStart, line⟩ :: rest
  | tokens => tokens

/-- What a stream holds first. -/
inductive Stream where
  /-- No document. -/
  | empty
  /-- A document; what follows it does not matter. -/
  | document (root : Node)
  /-- Text that is no YAML. -/
  | broken

/-- Reads the first document of a stream. -/
def readStream (source : Bytes) : Stream :=
  let tokens := behindDirectives (Yaml.tokens source)
  let fuel := 4 * tokens.length + 8
  let document := match tokens with
    | ⟨.documentStart, _⟩ :: rest => content fuel rest
    | _ => read fuel true false tokens
  match front tokens, document with
  | .streamEnd, _ => .empty
  | _, some (root, behind) => if front behind = .broken then .broken else .document root
  | _, none => .broken

end Node

end Yaml

end ConsoleScript
