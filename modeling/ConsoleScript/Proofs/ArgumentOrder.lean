import ConsoleScript.CommandLine.Invocation
import Mathlib.Data.List.Basic
import Mathlib.Data.List.TakeWhile

/-! # The order of arguments

Flags may stand anywhere in a command line; what counts is the order of the positional arguments and
the last settings file that is named.

* **`Argument.words`**, **`Argument.spelling`** — the words that spell arguments;
* **`Argument.IsReading`** — the words of a command line are read as arguments, with a flag behind
  them that lacks its path, or without one;
* **`Argument.readAll_spelling_append`** — reading takes back what spells the arguments in front,
  so every command line has exactly one reading (`exists_isReading`, `IsReading.unique`);
* **`Invocation.Answers`** — an invocation has what the arguments ask for;
* **`Invocation.ofArguments_eq_ok_iff`**, **`Invocation.ofArguments_eq_error_iff`** — the arguments
  ask for exactly one invocation, unless there is no command among them.

Empty positional arguments in front of the command are passed over. -/

namespace ConsoleScript

namespace Argument

/-! ## Spelling and reading arguments -/

/-- The flag for a log with all details. -/
def verboseFlag : Bytes :=
  Bytes.utf8 "--verbose"

/-- The flag for output as JSON. -/
def jsonFlag : Bytes :=
  Bytes.utf8 "--json"

/-- The words that spell an argument. -/
def words : Argument → List Bytes
  | settings path => [settingsFlag, path]
  | verbose => [verboseFlag]
  | json => [jsonFlag]
  | positional text => [text]

/-- The words that spell arguments. -/
def spelling (arguments : List Argument) : List Bytes :=
  arguments.flatMap words

@[simp] theorem spelling_nil : spelling [] = [] := rfl

@[simp] theorem spelling_cons (argument : Argument) (arguments : List Argument) :
    spelling (argument :: arguments) = argument.words ++ spelling arguments := rfl

/-- An argument that its words spell: no positional argument is a flag. -/
def IsProper : Argument → Prop
  | positional text => text ∉ [settingsFlag, verboseFlag, jsonFlag]
  | _ => True

instance : DecidablePred IsProper
  | positional text => inferInstanceAs (Decidable (text ∉ [settingsFlag, verboseFlag, jsonFlag]))
  | settings _ | verbose | json => .isTrue trivial

/-- From left to right, a flag for a settings file taking the word behind it, words are read as
these arguments; if the reading is `dangling`, a flag without its path is last. -/
def IsReading (words : List Bytes) (arguments : List Argument) (dangling : Bool) : Prop :=
  (∀ argument ∈ arguments, argument.IsProper) ∧
    words = spelling arguments ++ if dangling then [settingsFlag] else []

instance (words : List Bytes) (arguments : List Argument) (dangling : Bool) :
    Decidable (IsReading words arguments dangling) :=
  inferInstanceAs (Decidable (_ ∧ _))

theorem readAll_settings (path : Bytes) (rest : List Bytes) :
    readAll (settingsFlag :: path :: rest) = (readAll rest).map (settings path :: ·) := by
  rw [readAll, if_pos rfl]

/-- A word that is no flag with a value is an argument of its own. -/
theorem readAll_cons {word : Bytes} (other : word ≠ settingsFlag) (rest : List Bytes) :
    readAll (word :: rest) = (readAll rest).map (ofWord word :: ·) := by
  cases rest with
  | nil => simp [readAll, other]
  | cons next rest => rw [readAll, if_neg other]

/-- A word that is no flag with a value spells what it is read as. -/
theorem ofWord_spec {word : Bytes} (other : word ≠ settingsFlag) :
    (ofWord word).IsProper ∧ (ofWord word).words = [word] := by
  rw [ofWord]
  split
  · rename_i same
    exact ⟨trivial, congrArg (fun flag => [flag]) same.symm⟩
  · rename_i not_verbose
    split
    · rename_i same
      exact ⟨trivial, congrArg (fun flag => [flag]) same.symm⟩
    · rename_i not_json
      exact ⟨by simp [IsProper, other, verboseFlag, not_verbose, jsonFlag, not_json], rfl⟩

/-- A positional argument is read as one. -/
theorem ofWord_of_proper {text : Bytes} (proper : (positional text).IsProper) :
    ofWord text = positional text := by
  have others : text ≠ settingsFlag ∧ text ≠ verboseFlag ∧ text ≠ jsonFlag := by
    simpa [IsProper] using proper
  exact (if_neg others.2.1).trans (if_neg others.2.2)

/-- What spells an argument is read as it. -/
theorem readAll_words_append {argument : Argument} (proper : argument.IsProper)
    (rest : List Bytes) :
    readAll (argument.words ++ rest) = (readAll rest).map (argument :: ·) := by
  cases argument with
  | settings path => exact readAll_settings path rest
  | verbose => exact readAll_cons (by decide) rest
  | json => exact readAll_cons (by decide) rest
  | positional text =>
    have other : text ≠ settingsFlag := fun same => proper (same ▸ List.mem_cons_self)
    rw [words, List.singleton_append, readAll_cons other, ofWord_of_proper proper]

/-- What spells arguments is read as them. -/
theorem readAll_spelling_append {arguments : List Argument}
    (proper : ∀ argument ∈ arguments, argument.IsProper) (rest : List Bytes) :
    readAll (spelling arguments ++ rest) = (readAll rest).map (arguments ++ ·) := by
  induction arguments with
  | nil => simp
  | cons argument arguments ih =>
    obtain ⟨here, others⟩ := List.forall_mem_cons.1 proper
    rw [spelling_cons, List.append_assoc, readAll_words_append here, ih others, Option.map_map]
    rfl

/-- A reading is what the reader finds; there is none if a flag lacks its path. -/
theorem IsReading.readAll_eq {words : List Bytes} {arguments : List Argument} {dangling : Bool}
    (reading : IsReading words arguments dangling) :
    readAll words = if dangling then none else some arguments := by
  obtain ⟨proper, rfl⟩ := reading
  rw [readAll_spelling_append proper]
  cases dangling with
  | true => rfl
  | false => simp [readAll]

/-- Every command line has a reading. -/
theorem exists_isReading (words : List Bytes) :
    ∃ arguments dangling, IsReading words arguments dangling := by
  induction words using readAll.induct with
  | case1 => exact ⟨[], false, by simp [IsReading]⟩
  | case2 => exact ⟨[], true, by simp [IsReading]⟩
  | case3 word other =>
    obtain ⟨proper, spelled⟩ := ofWord_spec other
    exact ⟨[ofWord word], false, by simp [IsReading, proper, spelled]⟩
  | case4 next rest ih =>
    obtain ⟨arguments, dangling, proper, parts⟩ := ih
    refine ⟨settings next :: arguments, dangling, List.forall_mem_cons.2 ⟨trivial, proper⟩, ?_⟩
    rw [parts]
    rfl
  | case5 word next rest other ih =>
    obtain ⟨arguments, dangling, proper, parts⟩ := ih
    obtain ⟨here, spelled⟩ := ofWord_spec other
    refine ⟨ofWord word :: arguments, dangling, List.forall_mem_cons.2 ⟨here, proper⟩, ?_⟩
    rw [parts, spelling_cons, spelled]
    rfl

/-- No command line has two readings. -/
theorem IsReading.unique {words : List Bytes} {arguments others : List Argument}
    {dangling lacking : Bool} (one : IsReading words arguments dangling)
    (two : IsReading words others lacking) : arguments = others ∧ dangling = lacking := by
  have same := one.readAll_eq.symm.trans two.readAll_eq
  cases dangling <;> cases lacking <;> simp at same
  · exact ⟨same, rfl⟩
  · -- The reader finds nothing in either case, but the arguments in front are spelled alike.
    have spelled := List.append_cancel_right (one.2.symm.trans two.2)
    have first := readAll_spelling_append one.1 []
    rw [spelled, readAll_spelling_append two.1 []] at first
    exact ⟨by simpa [readAll] using first.symm, rfl⟩

end Argument

namespace Invocation

/-! ## What arguments ask for -/

/-- An invocation has what arguments ask for. -/
structure Answers (invocation : Invocation) (arguments : List Argument) : Prop where
  /-- The positional arguments in order are the command and its arguments, up to empty ones in front
  of the command. -/
  positionals : ∃ blanks : Nat, arguments.filterMap Argument.text?
    = List.replicate blanks [] ++ invocation.command :: invocation.arguments
  /-- The command is not empty. -/
  command : invocation.command ≠ []
  /-- The settings file is the last that is named. -/
  named : ∀ earlier path, arguments.filterMap Argument.settingsPath? = earlier ++ [path] →
    invocation.settingsPath = path
  /-- Where none is named, there is none. -/
  unnamed : arguments.filterMap Argument.settingsPath? = [] → invocation.settingsPath = []
  /-- The log shows all details just if there is a flag for that. -/
  verbose : invocation.verbose = true ↔ .verbose ∈ arguments
  /-- Output is JSON just if there is a flag for that. -/
  json : invocation.json = true ↔ .json ∈ arguments

/-- Empty texts in front of another one are dropped. -/
theorem dropWhile_replicate_append (blanks : Nat) {text : Bytes} (solid : text ≠ [])
    (rest : List Bytes) :
    (List.replicate blanks [] ++ text :: rest).dropWhile List.isEmpty = text :: rest := by
  have empty : ∀ blank ∈ List.replicate blanks ([] : Bytes), blank.isEmpty = true := by
    intro blank member
    rw [List.eq_of_mem_replicate member]
    rfl
  rw [List.dropWhile_append_of_pos empty, List.dropWhile_cons_of_neg (by simpa using solid)]

/-- Texts are empty ones and what is left when these are dropped. -/
theorem exists_replicate_append (texts : List Bytes) :
    ∃ blanks : Nat, texts = List.replicate blanks [] ++ texts.dropWhile List.isEmpty := by
  have empty : ∀ text ∈ texts.takeWhile List.isEmpty, text = [] := fun text member =>
    List.isEmpty_iff.1 (List.mem_takeWhile_imp member)
  refine ⟨(texts.takeWhile List.isEmpty).length, ?_⟩
  rw [← List.eq_replicate_of_mem empty, List.takeWhile_append_dropWhile]

theorem ofArguments_eq_error_iff {arguments : List Argument} {fault : UsageFault} :
    ofArguments arguments = .error fault ↔ fault = .missingCommand ∧
      ∀ text ∈ arguments.filterMap Argument.text?, text = [] := by
  have blank : (arguments.filterMap Argument.text?).dropWhile List.isEmpty = [] ↔
      ∀ text ∈ arguments.filterMap Argument.text?, text = [] := by
    simp only [List.dropWhile_eq_nil_iff, List.isEmpty_iff]
  rw [ofArguments, ← blank]
  split
  · rename_i nothing
    simp [nothing, eq_comm]
  · rename_i found
    simp [found]

/-- Arguments ask for an invocation just if it answers them. -/
theorem ofArguments_eq_ok_iff {arguments : List Argument} {invocation : Invocation} :
    ofArguments arguments = .ok invocation ↔ invocation.Answers arguments := by
  constructor
  · intro asked
    obtain ⟨blanks, parts⟩ := exists_replicate_append (arguments.filterMap Argument.text?)
    rw [ofArguments] at asked
    split at asked
    · cases asked
    · rename_i command rest found
      cases asked
      refine ⟨⟨blanks, by rw [parts, found]⟩, ?_, ?_, ?_, by simp, by simp⟩
      · have solid := List.head?_dropWhile_not List.isEmpty (arguments.filterMap Argument.text?)
        simpa [found] using solid
      · intro earlier path named
        simp [named]
      · intro unnamed
        simp [unnamed]
  · rintro ⟨⟨blanks, parts⟩, solid, named, unnamed, verbose, json⟩
    have found := dropWhile_replicate_append blanks solid invocation.arguments
    rw [← parts] at found
    have path : (arguments.filterMap Argument.settingsPath?).getLast?.getD []
        = invocation.settingsPath := by
      rcases List.eq_nil_or_concat' (arguments.filterMap Argument.settingsPath?)
        with nothing | ⟨earlier, path, last⟩
      · rw [unnamed nothing, nothing]
        rfl
      · rw [named earlier path last, last]
        simp
    rw [ofArguments, found]
    refine congrArg Except.ok ?_
    ext1
    · rfl
    · rfl
    · exact path
    · exact Bool.eq_iff_iff.2 (by simp [verbose])
    · exact Bool.eq_iff_iff.2 (by simp [json])

/-- Arguments in another order ask for the same if the positional ones and the settings files are
in the same order. -/
theorem ofArguments_eq_of_perm {arguments others : List Argument}
    (reordered : arguments.Perm others)
    (texts : arguments.filterMap Argument.text? = others.filterMap Argument.text?)
    (paths : arguments.filterMap Argument.settingsPath? = others.filterMap Argument.settingsPath?) :
    ofArguments arguments = ofArguments others := by
  have flag (argument : Argument) : arguments.contains argument = others.contains argument :=
    Bool.eq_iff_iff.2 (by simpa using reordered.mem_iff)
  rw [ofArguments, ofArguments, texts, paths, flag, flag]

/-- What a command line asks for, by its reading. -/
theorem parse_eq {words : List Bytes} {arguments : List Argument} {dangling : Bool}
    (reading : Argument.IsReading words arguments dangling) :
    parse words = if dangling then .error .missingPath else ofArguments arguments := by
  rw [parse, reading.readAll_eq]
  cases dangling <;> rfl

/-- **What a command line asks for.** Every command line has exactly one reading from left to right.
There is no invocation just if a flag for a settings file lacks its path, or every positional
argument is empty; otherwise there is exactly the invocation that has what the arguments ask for:
the positional arguments in order but for empty ones in front of the command, the last settings
file, and whether each of the other flags is there. So any reordering that keeps the positional
arguments in order, and the settings files, asks for the same. -/
theorem command_line_keeps_positionals (words : List Bytes) :
    ∃ arguments dangling, Argument.IsReading words arguments dangling ∧
      (∀ others lacking, Argument.IsReading words others lacking →
        others = arguments ∧ lacking = dangling) ∧
      (parse words = .error .missingPath ↔ dangling = true) ∧
      (parse words = .error .missingCommand ↔
        dangling = false ∧ ∀ text ∈ arguments.filterMap Argument.text?, text = []) ∧
      (∀ invocation, parse words = .ok invocation ↔
        dangling = false ∧ invocation.Answers arguments) ∧
      ∀ others, arguments.Perm others →
        others.filterMap Argument.text? = arguments.filterMap Argument.text? →
        others.filterMap Argument.settingsPath? = arguments.filterMap Argument.settingsPath? →
        ∀ reordered, Argument.IsReading reordered others dangling →
          parse reordered = parse words := by
  obtain ⟨arguments, dangling, reading⟩ := Argument.exists_isReading words
  have asked := parse_eq reading
  have one (others : List Argument) (lacking : Bool)
      (other : Argument.IsReading words others lacking) :
      others = arguments ∧ lacking = dangling :=
    other.unique reading
  refine ⟨arguments, dangling, reading, one, ?_⟩
  cases dangling with
  | true =>
    rw [if_pos rfl] at asked
    refine ⟨by simp [asked], by simp [asked], by simp [asked], ?_⟩
    intro others _ _ _ reordered other
    rw [parse_eq other, asked, if_pos rfl]
  | false =>
    rw [if_neg Bool.false_ne_true] at asked
    refine ⟨by simp [asked, ofArguments_eq_error_iff], by simp [asked, ofArguments_eq_error_iff],
      by simp [asked, ofArguments_eq_ok_iff], ?_⟩
    intro others permuted texts paths reordered other
    rw [parse_eq other, asked, if_neg Bool.false_ne_true]
    exact (ofArguments_eq_of_perm permuted texts.symm paths.symm).symm

/-- The flags around `tokens prog.xen` may stand in another order, and an empty argument in front of
it is passed over. -/
theorem command_line_keeps_positionals_reordered :
    let words := [Argument.verboseFlag, [], Bytes.utf8 "tokens", Bytes.utf8 "prog.xen",
      Argument.jsonFlag, Argument.settingsFlag, Bytes.utf8 "x.yml"]
    let reordered := [Argument.settingsFlag, Bytes.utf8 "x.yml", [], Bytes.utf8 "tokens",
      Argument.jsonFlag, Bytes.utf8 "prog.xen", Argument.verboseFlag]
    parse words
        = .ok ⟨Bytes.utf8 "tokens", [Bytes.utf8 "prog.xen"], Bytes.utf8 "x.yml", true, true⟩ ∧
      parse reordered = parse words := by
  intro words reordered
  let others : List Argument := [.settings (Bytes.utf8 "x.yml"), .positional [],
    .positional (Bytes.utf8 "tokens"), .json, .positional (Bytes.utf8 "prog.xen"), .verbose]
  obtain ⟨arguments, dangling, -, one, -, -, asks, same⟩ := command_line_keeps_positionals words
  have reading : Argument.IsReading words [.verbose, .positional [],
      .positional (Bytes.utf8 "tokens"), .positional (Bytes.utf8 "prog.xen"), .json,
      .settings (Bytes.utf8 "x.yml")] false := by decide
  obtain ⟨rfl, rfl⟩ := one _ _ reading
  refine ⟨(asks _).2 ⟨rfl, ⟨1, rfl⟩, by decide, ?_, by decide, by decide, by decide⟩,
    same others (by decide) rfl rfl reordered (by decide)⟩
  intro earlier path last
  have both : some (Bytes.utf8 "x.yml") = (earlier ++ [path]).getLast? :=
    congrArg List.getLast? last
  rw [List.getLast?_concat] at both
  exact Option.some.inj both

/-- An empty argument is lost in front of a command, and is no command on its own. -/
theorem empty_positional_lost :
    let words := [[], Bytes.utf8 "run"]
    Argument.IsReading words (words.map .positional) false ∧
      parse words = .ok ⟨Bytes.utf8 "run", [], [], false, false⟩ ∧
      (∀ invocation, parse words = .ok invocation →
        invocation.command :: invocation.arguments ≠ words) ∧
      parse [[]] = .error .missingCommand := by
  intro words
  have asked : parse words = .ok ⟨Bytes.utf8 "run", [], [], false, false⟩ := by rfl
  refine ⟨by decide, asked, ?_, by rfl⟩
  intro invocation same
  rw [asked] at same
  cases same
  decide

end Invocation

end ConsoleScript
