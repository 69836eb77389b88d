import ConsoleScript.Settings.Basic
import ConsoleScript.Text.Quoted
import ConsoleScript.Yaml.Tag

/-! # Settings files as YAML documents

The root of a document, its sections and the settings are nodes; `SettingsFile.decode` reads the
content of a settings file off them. What does not fit is collected, so that one reading tells all
of it: keys that are given twice, keys that no section has, and values of the wrong kind.

A value that is null leaves its setting out. Any other scalar is a text, as it is written.

A mapping may name others under a merge key. It is then read as a pile of layers: its own pairs on
top, those of the others below, and of the pairs with one key only the uppermost counts. -/

namespace ConsoleScript

/-- What a node of a settings file is read as. -/
inductive Shape where
  /-- A text. -/
  | text
  /-- A truth value. -/
  | truth
  /-- The section about sessions. -/
  | sessionSection
  /-- The section about the log. -/
  | logSection
  /-- The whole file. -/
  | wholeFile
  deriving DecidableEq

namespace Shape

/-- How a shape is named in messages. -/
def label : Shape → Bytes
  | text => Bytes.utf8 "string"
  | truth => Bytes.utf8 "bool"
  | sessionSection => Bytes.utf8 "config.replFile"
  | logSection => Bytes.utf8 "config.Log"
  | wholeFile => Bytes.utf8 "config.configFile"

end Shape

/-- Something in a settings file that does not fit. -/
inductive Misfit where
  /-- A key is given again. -/
  | repeatedKey (line : Nat) (key : Bytes) (firstLine : Nat)
  /-- A key is not one of a shape. -/
  | unknownKey (line : Nat) (key : Bytes) (shape : Shape)
  /-- A scalar is of the wrong kind. -/
  | wrongScalar (line : Nat) (tag : Yaml.Tag) (text : Bytes) (shape : Shape)
  /-- A sequence stands where none may stand. -/
  | wrongSequence (line : Nat) (shape : Shape)
  /-- A mapping stands where none may stand. -/
  | wrongMapping (line : Nat) (shape : Shape)
  /-- A merge key has a value that is neither a mapping nor a sequence of mappings. Beside it
  nothing else counts. -/
  | unmergeable
  deriving DecidableEq

namespace Misfit

/-- The beginning of a text of more than ten bytes, and all of a shorter one. -/
def excerpt (text : Bytes) : Bytes :=
  if 10 < text.length then text.take 7 ++ Bytes.utf8 "..." else text

/-- A message about a line. -/
def onLine (line : Nat) (text : Bytes) : Bytes :=
  Bytes.utf8 "line " ++ Bytes.decimal line ++ Bytes.utf8 ": " ++ text

/-- What does not fit, in words. -/
def message : Misfit → Bytes
  | repeatedKey line key firstLine =>
    onLine line (Bytes.utf8 "mapping key " ++ key.quoted ++ Bytes.utf8 " already defined at line "
      ++ Bytes.decimal firstLine)
  | unknownKey line key shape =>
    onLine line (Bytes.utf8 "field " ++ key ++ Bytes.utf8 " not found in type " ++ shape.label)
  | wrongScalar line tag text shape =>
    onLine line (Bytes.utf8 "cannot unmarshal " ++ tag.label ++ Bytes.utf8 " `" ++ excerpt text
      ++ Bytes.utf8 "` into " ++ shape.label)
  | wrongSequence line shape =>
    onLine line (Bytes.utf8 "cannot unmarshal !!seq into " ++ shape.label)
  | wrongMapping line shape =>
    onLine line (Bytes.utf8 "cannot unmarshal !!map into " ++ shape.label)
  | unmergeable => Bytes.utf8 "map merge requires map or sequence of maps as the value"

/-- All that does not fit, in words. -/
def summary (issues : List Bytes) : Bytes :=
  Bytes.utf8 "yaml: unmarshal errors:"
    ++ issues.flatMap fun issue => Bytes.utf8 "\n  " ++ issue

end Misfit

/-- What reading a node gives: a value, and what does not fit. -/
structure Decoded (α : Type) where
  /-- The value. -/
  value : α
  /-- What does not fit, in the order of the file. -/
  misfits : List Misfit

namespace Decoded

/-- The value of a node that is left out. -/
def nothing {α : Type} : Decoded (Option α) :=
  ⟨none, []⟩

/-- The value of a node that fits. -/
def just {α : Type} (value : α) : Decoded (Option α) :=
  ⟨some value, []⟩

/-- The value of a node that does not fit. -/
def refused {α : Type} (misfits : List Misfit) : Decoded (Option α) :=
  ⟨none, misfits⟩

/-- Applies a function to the value. -/
def map {α β : Type} (function : α → β) (decoded : Decoded α) : Decoded β :=
  ⟨function decoded.value, decoded.misfits⟩

end Decoded

namespace Yaml.Node

/-- Whether two keys count as the same: both scalars of one text, or collections of one kind. -/
def sameKey : Node → Node → Bool
  | scalar _ _ left, scalar _ _ right => left == right
  | sequence _ _, sequence _ _ | mapping _ _, mapping _ _ => true
  | _, _ => false

/-- The text of a key; a collection has none. -/
def keyText : Node → Bytes
  | scalar _ _ text => text
  | _ => []

/-- The keys of a mapping that are given again. -/
def repeatedKeys : List (Node × Node) → List Misfit
  | [] => []
  | (key, _) :: rest =>
    (rest.filter fun pair => sameKey key pair.1).map
        (fun pair => Misfit.repeatedKey pair.1.line pair.1.keyText key.line)
      ++ repeatedKeys rest

/-- A mapping where none may stand; keys that are given again are told first. -/
def misplacedMapping (line : Nat) (pairs : List (Node × Node)) (shape : Shape) : List Misfit :=
  match repeatedKeys pairs with
  | [] => [.wrongMapping line shape]
  | repeated => repeated

/-- Reads a text. -/
def decodeText : Node → Decoded (Option Bytes)
  | scalar _ isPlain text =>
    if Tag.ofScalar isPlain text = .null then .nothing else .just text
  | sequence line _ => .refused [.wrongSequence line .text]
  | mapping line pairs => .refused (misplacedMapping line pairs .text)

/-- Words that mean true where a truth value is wanted. -/
def affirmations : List Bytes :=
  ["y", "Y", "yes", "Yes", "YES", "on", "On", "ON"].map Bytes.utf8

/-- Words that mean false where a truth value is wanted. -/
def negations : List Bytes :=
  ["n", "N", "no", "No", "NO", "off", "Off", "OFF"].map Bytes.utf8

/-- Reads a truth value. -/
def decodeTruth : Node → Decoded (Option Bool)
  | scalar line isPlain text =>
    match Tag.ofScalar isPlain text with
    | .null => .nothing
    | .bool => .just (Tag.trues.contains text)
    | tag =>
      if tag = .str ∧ affirmations.contains text then .just true
      else if tag = .str ∧ negations.contains text then .just false
      else .refused [.wrongScalar line tag text .truth]
  | sequence line _ => .refused [.wrongSequence line .truth]
  | mapping line pairs => .refused (misplacedMapping line pairs .truth)

/-- Whether a key names mappings to be merged. -/
def isMergeKey : Node → Bool
  | scalar _ isPlain text => Tag.ofScalar isPlain text == .merge
  | _ => false

/-- The pairs of a mapping but for a merge. -/
def ownPairs (pairs : List (Node × Node)) : List (Node × Node) :=
  pairs.filter fun pair => !pair.1.isMergeKey

/-- The names among the keys of a mapping that are texts, with the mark of a merge. -/
def textKeys (pairs : List (Node × Node)) : List Bytes :=
  pairs.filterMap fun pair =>
    match pair.1 with
    | scalar _ isPlain text =>
      if [Tag.str, .merge].contains (Tag.ofScalar isPlain text) then some text else none
    | _ => none

/-- The names among the keys of a mapping. -/
def keyNames (pairs : List (Node × Node)) : List Bytes :=
  pairs.filterMap fun pair => pair.1.decodeText.value

/-- A part of a mapping that was merged. -/
inductive Layer where
  /-- Pairs with different keys. -/
  | pairs (own : List (Node × Node))
  /-- A part that does not fit. -/
  | refused (misfits : List Misfit)

mutual

/-- The layers of a node that is merged, which has to be a mapping: its own pairs, then the layers
of what it merges itself. -/
def layers : Node → List Layer
  | mapping _ pairs =>
    match repeatedKeys pairs with
    | [] => .pairs (ownPairs pairs) :: mergedLayers pairs
    | repeated => [.refused repeated]
  | _ => [.refused [.unmergeable]]

/-- The layers of what a mapping with these pairs merges: a mapping or a sequence of mappings. -/
def mergedLayers : List (Node × Node) → List Layer
  | [] => []
  | (key, sequence _ items) :: rest =>
    if key.isMergeKey then itemLayers items else mergedLayers rest
  | (key, value) :: rest =>
    if key.isMergeKey then layers value else mergedLayers rest

/-- The layers of nodes that are merged in turn. -/
def itemLayers : List Node → List Layer
  | [] => []
  | item :: rest => layers item ++ itemLayers rest

end

/-- Reads the pairs of a mapping one after the other into a record; `set` is what to do with the
value of a key that the record has. -/
def decodePairs {α : Type} (shape : Shape) (set : Bytes → Option (α → Node → Decoded α))
    (record : α) : List (Node × Node) → Decoded α
  | [] => ⟨record, []⟩
  | (key, value) :: rest =>
    let name := decodeText key
    let entered : Decoded α := match name.value with
      -- A null key is passed over, a collection as a key is told of.
      | none => ⟨record, name.misfits⟩
      | some text =>
        match set text with
        -- The value of an unknown key is not looked at.
        | none => ⟨record, [.unknownKey key.line text shape]⟩
        | some enter => enter record value
    let remaining := decodePairs shape set entered.value rest
    ⟨remaining.value, entered.misfits ++ remaining.misfits⟩

/-- Reads layers one after the other into a record, but for the keys with names of layers above. -/
def decodeLayers {α : Type} (shape : Shape) (set : Bytes → Option (α → Node → Decoded α))
    (above : List Bytes) (record : α) : List Layer → Decoded α
  | [] => ⟨record, []⟩
  | .refused misfits :: rest =>
    let remaining := decodeLayers shape set above record rest
    ⟨remaining.value, misfits ++ remaining.misfits⟩
  | .pairs own :: rest =>
    let entered := decodePairs shape set record
      (own.filter fun pair => !pair.1.decodeText.value.any above.contains)
    let remaining := decodeLayers shape set (above ++ keyNames own) entered.value rest
    ⟨remaining.value, entered.misfits ++ remaining.misfits⟩

/-- Reads a mapping with fixed keys into a record. -/
def decodeRecord {α : Type} (shape : Shape) (set : Bytes → Option (α → Node → Decoded α))
    (blank : α) : Node → Decoded (Option α)
  | scalar line isPlain text =>
    let tag := Tag.ofScalar isPlain text
    if tag = .null then .nothing else .refused [.wrongScalar line tag text shape]
  | sequence line _ => .refused [.wrongSequence line shape]
  | mapping _ pairs =>
    match repeatedKeys pairs with
    | [] =>
      let own := decodePairs shape set blank (ownPairs pairs)
      let merged := decodeLayers shape set (textKeys pairs) own.value (mergedLayers pairs)
      ⟨some merged.value, own.misfits ++ merged.misfits⟩
    | repeated => .refused repeated

end Yaml.Node

namespace SessionSection

/-- How the value of a key is entered. -/
def setter (key : Bytes) : Option (SessionSection → Yaml.Node → Decoded SessionSection) :=
  if key = Bytes.utf8 "prompt" then
    some fun given node => node.decodeText.map fun value => { given with prompt := value }
  else if key = Bytes.utf8 "history_file" then
    some fun given node => node.decodeText.map fun value => { given with historyFile := value }
  else if key = Bytes.utf8 "color" then
    some fun given node => node.decodeTruth.map fun value => { given with color := value }
  else if key = Bytes.utf8 "echo_assignments" then
    some fun given node => node.decodeTruth.map fun value => { given with echoAssignments := value }
  else none

end SessionSection

namespace LogSection

/-- How the value of a key is entered. -/
def setter (key : Bytes) : Option (LogSection → Yaml.Node → Decoded LogSection) :=
  if key = Bytes.utf8 "level" then
    some fun given node => node.decodeText.map fun value => { given with level := value }
  else none

end LogSection

namespace SettingsFile

/-- How the value of a key is entered. -/
def setter (key : Bytes) : Option (SettingsFile → Yaml.Node → Decoded SettingsFile) :=
  if key = Bytes.utf8 "repl" then
    some fun file node =>
      (node.decodeRecord .sessionSection SessionSection.setter {}).map
        fun value => { file with session := value }
  else if key = Bytes.utf8 "log" then
    some fun file node =>
      (node.decodeRecord .logSection LogSection.setter {}).map
        fun value => { file with log := value }
  else none

/-- Reads the content of a settings file off the root of its document. -/
def decode (root : Yaml.Node) : Decoded SettingsFile :=
  (root.decodeRecord .wholeFile setter {}).map fun file => file.getD {}

end SettingsFile

end ConsoleScript
