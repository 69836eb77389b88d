import ConsoleScript.Proofs.CleanPaths
import ConsoleScript.Settings.Loading
import Mathlib

/-! # Settings that a file gives

A settings file may leave out any setting, and what it gives has to keep two rules.

* **`SettingsFile.Breaks`** — the rules that a file breaks, in terms of the file alone;
* **`Settings.Overlays`** — settings have what a file gives, and else what holds without a file;
* **`LogLevel.named`** — the names that a level may have once it is in lower case;
* **`Settings.ofFile_eq_ok_iff`** — the rules that settings are checked against are those of files;
* **`Settings.loadBy_unfound_iff`** — settings come from no file only where none is asked for and
  there is none in the home directory.

`settings_follow_file` puts these together. -/

namespace ConsoleScript

/-! ## Names are not empty -/

namespace Bytes

/-- Lower case leaves a character for each character. -/
theorem toLowercase_ne_nil {text : Bytes} (solid : text ≠ []) : toLowercase text ≠ [] := by
  obtain ⟨lead, rest, rfl⟩ := List.exists_cons_of_ne_nil solid
  intro empty
  rw [toLowercase, characters, List.flatMap_cons, List.append_eq_nil_iff] at empty
  have width := congrArg List.length empty.1
  rw [Character.ofScalar, String.length_utf8EncodeChar, List.length_nil] at width
  exact absurd width (Nat.ne_of_gt (Char.utf8Size_pos _))

end Bytes

/-! ## What a file gives -/

namespace LogLevel

/-- The names of the levels, in lower case. -/
def named : List (Bytes × LogLevel) :=
  [(Bytes.utf8 "debug", debug), (Bytes.utf8 "info", info), (Bytes.utf8 "warn", warn),
    (Bytes.utf8 "error", error)]

/-- A name that is not empty is that of a level just if it is in the table. -/
theorem ofName?_eq_some_iff {name : Bytes} (solid : name ≠ []) {level : LogLevel} :
    ofName? name = some level ↔ (name, level) ∈ named := by
  constructor
  · intro found
    unfold ofName? at found
    split at found
    · rename_i same
      cases found
      simp [named, same]
    · split at found
      · rename_i same
        cases found
        simp [named, same.resolve_right solid]
      · split at found
        · rename_i same
          cases found
          simp [named, same]
        · split at found
          · rename_i same
            cases found
            simp [named, same]
          · cases found
  · intro member
    simp only [named, List.mem_cons, Prod.mk.injEq, List.not_mem_nil, or_false] at member
    obtain ⟨rfl, rfl⟩ | ⟨rfl, rfl⟩ | ⟨rfl, rfl⟩ | ⟨rfl, rfl⟩ := member <;> decide

/-- A name that is not empty is that of no level just if it is not in the table. -/
theorem ofName?_eq_none_iff {name : Bytes} (solid : name ≠ []) :
    ofName? name = none ↔ name ∉ named.map Prod.fst := by
  simp only [Option.eq_none_iff_forall_ne_some, Ne, ofName?_eq_some_iff solid, List.mem_map,
    Prod.exists, exists_and_right, exists_eq_right, not_exists]

end LogLevel

namespace SettingsFile

/-- What a file gives as the text before a line of input. -/
def prompt? (file : SettingsFile) : Option Bytes :=
  file.session.bind SessionSection.prompt

/-- What a file gives as the file that keeps the lines of sessions. -/
def historyFile? (file : SettingsFile) : Option Bytes :=
  file.session.bind SessionSection.historyFile

/-- What a file gives about colours. -/
def color? (file : SettingsFile) : Option Bool :=
  file.session.bind SessionSection.color

/-- What a file gives about the changes of variables. -/
def echoAssignments? (file : SettingsFile) : Option Bool :=
  file.session.bind SessionSection.echoAssignments

/-- What a file gives as the name of a level; an empty name gives none. -/
def level? (file : SettingsFile) : Option Bytes :=
  (file.log.bind LogSection.level).filter (· ≠ [])

/-- A file breaks a rule. -/
inductive Breaks (file : SettingsFile) : Violation → Prop
  /-- The text before a line of input may be left out, but not empty. -/
  | emptyPrompt : file.prompt? = some [] → Breaks file .emptyPrompt
  /-- A level has to have the name of one, in any case of letters. -/
  | unknownLevel {name : Bytes} : file.level? = some name →
      Bytes.toLowercase name ∉ LogLevel.named.map Prod.fst →
      Breaks file (.unknownLevel (Bytes.toLowercase name))

theorem solid_of_level? {file : SettingsFile} {name : Bytes} (given : file.level? = some name) :
    name ≠ [] := by
  simpa using (Option.filter_eq_some_iff.1 given).2

/-- A file keeps all rules. -/
def IsSound (file : SettingsFile) : Prop :=
  (∀ prompt, file.prompt? = some prompt → prompt ≠ []) ∧
    ∀ name, file.level? = some name → Bytes.toLowercase name ∈ LogLevel.named.map Prod.fst

/-- A file keeps all rules just if it breaks none. -/
theorem isSound_iff {file : SettingsFile} :
    file.IsSound ↔ ∀ violation, ¬ file.Breaks violation := by
  constructor
  · rintro ⟨prompt, level⟩ _ (empty | ⟨given, absent⟩)
    · exact prompt [] empty rfl
    · exact absent (level _ given)
  · intro kept
    constructor
    · rintro prompt given rfl
      exact kept _ (.emptyPrompt given)
    · exact fun name given => Decidable.byContradiction fun absent =>
        kept _ (.unknownLevel given absent)

end SettingsFile

namespace Violation

/-- The place of a rule in the order in which they are told. -/
def rank : Violation → Nat
  | emptyPrompt => 0
  | unknownLevel _ => 1

end Violation

/-- A setting is the given one, or else the usual one. -/
def Prevails {α : Type} (given : Option α) (usual setting : α) : Prop :=
  (∀ value, given = some value → setting = value) ∧ (given = none → setting = usual)

theorem prevails_iff {α : Type} {given : Option α} {usual setting : α} :
    Prevails given usual setting ↔ setting = given.getD usual := by
  cases given <;> simp [Prevails, eq_comm]

namespace Settings

/-- A path begins in the home directory: its first component is a tilde. -/
def BeginsAtHome (path : Bytes) : Prop :=
  path = Bytes.utf8 "~" ∨ Bytes.utf8 "~/" <+: path

instance (path : Bytes) : Decidable (BeginsAtHome path) :=
  inferInstanceAs (Decidable (_ ∨ _))

/-- What a path stands for: one that begins in the home directory goes on behind the tilde there, if
that directory is known, and any other is left as it is. -/
theorem expandHome_eq (home : Option Bytes) (path : Bytes) : expandHome home path =
    if BeginsAtHome path then (home.map fun directory => Path.join directory path.tail).getD path
    else path := by
  have begins (path : Bytes) : BeginsAtHome path ↔ path = [0x7e] ∨ [0x7e, 0x2f] <+: path := by
    have alone : Bytes.utf8 "~" = [0x7e] := by decide
    have inside : Bytes.utf8 "~/" = [0x7e, 0x2f] := by decide
    rw [BeginsAtHome, alone, inside]
  fun_cases expandHome home path with
  | case1 directory => exact (if_pos ((begins _).2 (.inl rfl))).symm
  | case2 directory rest => exact (if_pos ((begins _).2 (.inr ⟨rest, rfl⟩))).symm
  | case3 home path not_alone not_inside =>
    cases home with
    | none => exact (ite_self _).symm
    | some directory =>
      refine (if_neg fun at_home => ?_).symm
      rcases (begins path).1 at_home with rfl | ⟨rest, rfl⟩
      · exact not_alone directory rfl rfl
      · exact not_inside directory rest rfl rfl

/-- Settings have what a file gives, and else what holds without a file. The level is in lower case,
and a tilde in front of the file that keeps lines stands for the home directory. -/
structure Overlays (settings : Settings) (home : Option Bytes) (file : SettingsFile) : Prop where
  /-- The text before a line of input. -/
  prompt : Prevails file.prompt? (initial home).prompt settings.prompt
  /-- The file that keeps the lines of sessions. -/
  historyFile : Prevails (file.historyFile?.map (expandHome home)) (initial home).historyFile
    settings.historyFile
  /-- Colours. -/
  color : Prevails file.color? (initial home).color settings.color
  /-- The changes of variables. -/
  echoAssignments : Prevails file.echoAssignments? (initial home).echoAssignments
    settings.echoAssignments
  /-- The name of the level. -/
  level : Prevails (file.level?.map Bytes.toLowercase) (initial home).level settings.level

variable {home : Option Bytes} {file : SettingsFile} {settings : Settings}

/-- What becomes of a file that is laid over the usual settings. -/
theorem override_eq : (initial home).override home file =
    { path := []
      prompt := file.prompt?.getD (initial home).prompt
      historyFile := (file.historyFile?.map (expandHome home)).getD (initial home).historyFile
      color := file.color?.getD (initial home).color
      echoAssignments := file.echoAssignments?.getD (initial home).echoAssignments
      level := (file.level?.map Bytes.toLowercase).getD (initial home).level } := by
  obtain ⟨session, log⟩ := file
  ext1
  · rfl
  · cases session <;> rfl
  · cases session <;> rfl
  · cases session <;> rfl
  · cases session <;> rfl
  · cases log with
    | none => rfl
    | some log =>
      obtain ⟨_ | _ | ⟨first, rest⟩⟩ := log <;> rfl

/-- There is only one way to lay a file over the usual settings. -/
theorem overlays_iff : settings.Overlays home file ↔
    settings = { (initial home).override home file with path := settings.path } := by
  rw [override_eq]
  constructor
  · intro overlays
    ext1
    · rfl
    · exact prevails_iff.1 overlays.prompt
    · exact prevails_iff.1 overlays.historyFile
    · exact prevails_iff.1 overlays.color
    · exact prevails_iff.1 overlays.echoAssignments
    · exact prevails_iff.1 overlays.level
  · intro same
    rw [same]
    exact ⟨prevails_iff.2 rfl, prevails_iff.2 rfl, prevails_iff.2 rfl, prevails_iff.2 rfl,
      prevails_iff.2 rfl⟩

/-- The text before a line of input is empty just if the file gives it so. -/
theorem Overlays.prompt_eq_nil_iff (overlays : settings.Overlays home file) :
    settings.prompt = [] ↔ file.prompt? = some [] := by
  cases given : file.prompt? with
  | none =>
    have usual : Bytes.utf8 "xen> " ≠ [] := by decide
    rw [overlays.prompt.2 given]
    simpa [initial] using usual
  | some prompt => rw [overlays.prompt.1 prompt given, Option.some.injEq]

/-- The name of the level is never empty. -/
theorem Overlays.level_ne_nil (overlays : settings.Overlays home file) : settings.level ≠ [] := by
  cases given : file.level? with
  | none =>
    have usual : Bytes.utf8 "info" ≠ [] := by decide
    rw [overlays.level.2 (by rw [given]; rfl)]
    exact usual
  | some name =>
    rw [overlays.level.1 (Bytes.toLowercase name) (by rw [given]; rfl)]
    exact Bytes.toLowercase_ne_nil (SettingsFile.solid_of_level? given)

/-- There is no level of that name just if the file gives a name that is not in the table. -/
theorem Overlays.ofName?_eq_none_iff (overlays : settings.Overlays home file) :
    LogLevel.ofName? settings.level = none ↔ ∃ name, file.level? = some name ∧
      settings.level = Bytes.toLowercase name ∧
      Bytes.toLowercase name ∉ LogLevel.named.map Prod.fst := by
  cases given : file.level? with
  | none =>
    have usual : LogLevel.ofName? (Bytes.utf8 "info") = some .info := by decide
    rw [overlays.level.2 (by rw [given]; rfl)]
    simp [initial, usual]
  | some name =>
    have solid := Bytes.toLowercase_ne_nil (SettingsFile.solid_of_level? given)
    rw [overlays.level.1 (Bytes.toLowercase name) (by rw [given]; rfl),
      LogLevel.ofName?_eq_none_iff solid]
    simp

/-- The rules that the settings break are those that the file breaks. -/
theorem Overlays.mem_violations_iff (overlays : settings.Overlays home file)
    {violation : Violation} : violation ∈ settings.violations ↔ file.Breaks violation := by
  have prompt := overlays.prompt_eq_nil_iff
  have level := overlays.ofName?_eq_none_iff
  rw [violations, List.mem_append]
  constructor
  · rintro (member | member)
    · split at member
      · rename_i empty
        rw [List.mem_singleton.1 member]
        exact .emptyPrompt (prompt.1 empty)
      · cases member
    · split at member
      · rename_i unknown
        obtain ⟨name, given, same, absent⟩ := level.1 unknown
        rw [List.mem_singleton.1 member, same]
        exact .unknownLevel given absent
      · cases member
  · rintro (empty | ⟨given, absent⟩)
    · exact .inl (by rw [if_pos (prompt.2 empty)]; exact List.mem_singleton_self _)
    · have same := overlays.level.1 _ (by rw [given]; rfl)
      exact .inr (by
        rw [if_pos (level.2 ⟨_, given, same, absent⟩), same]; exact List.mem_singleton_self _)

theorem pairwise_violations (settings : Settings) :
    settings.violations.Pairwise fun one other => one.rank < other.rank := by
  unfold violations
  split <;> split <;> simp [Violation.rank]

/-- A file is accepted just if it keeps all rules, and then there is one way to lay it over. -/
theorem ofFile_eq_ok_iff : ofFile home file = .ok settings ↔
    file.IsSound ∧ settings.Overlays home file ∧ settings.path = [] := by
  have laid : ((initial home).override home file).Overlays home file := overlays_iff.2 rfl
  have sound : ((initial home).override home file).violations = [] ↔ file.IsSound := by
    simp only [List.eq_nil_iff_forall_not_mem, laid.mem_violations_iff, SettingsFile.isSound_iff]
  rw [ofFile, ← sound]
  constructor
  · intro accepted
    split at accepted
    · rename_i kept
      cases accepted
      exact ⟨kept, laid, rfl⟩
    · cases accepted
  · rintro ⟨kept, overlays, unnamed⟩
    rw [if_pos kept, overlays_iff.1 overlays, unnamed]
    rfl

/-- A file that is refused breaks just the rules that are told, and each is told once. -/
theorem told_of_ofFile_eq_error {told : List Violation} (refused : ofFile home file = .error told) :
    (∀ violation, violation ∈ told ↔ file.Breaks violation) ∧
      told.Pairwise fun one other => one.rank < other.rank := by
  have laid : ((initial home).override home file).Overlays home file := overlays_iff.2 rfl
  rw [ofFile] at refused
  split at refused
  · cases refused
  · cases refused
    exact ⟨fun _ => laid.mem_violations_iff, pairwise_violations _⟩

/-- The settings of a file that keeps all rules name a level, and this is the one that holds. -/
theorem Overlays.threshold_eq (overlays : settings.Overlays home file) (sound : file.IsSound) :
    ∃ level, (settings.level, level) ∈ LogLevel.named ∧
      LogLevel.ofName? settings.level = some level ∧ settings.threshold false = level := by
  have known : LogLevel.ofName? settings.level ≠ none := by
    intro unknown
    obtain ⟨name, given, -, absent⟩ := overlays.ofName?_eq_none_iff.1 unknown
    exact absent (sound.2 name given)
  obtain ⟨level, found⟩ := Option.ne_none_iff_exists'.1 known
  exact ⟨level, (LogLevel.ofName?_eq_some_iff overlays.level_ne_nil).1 found, found,
    by simp [threshold, found]⟩

/-! ## Where a file is looked for -/

/-- No settings file is asked for, and there is none in the home directory. -/
def Unfound (host : Host) (explicit : Bytes) : Prop :=
  explicit = [] ∧ host.settingsPath = [] ∧ ∀ directory, host.home = some directory →
    host.look (Path.join directory fileName) = .closed .missing

variable {reader : DocumentReader}

/-- The settings of a file have its path. -/
theorem path_of_ofViewBy {path : Bytes} {view : FileView}
    (accepted : ofViewBy reader home path view = .ok settings) : settings.path = path := by
  cases view with
  | closed fault => cases accepted
  | directory => cases accepted
  | content source =>
    rw [ofViewBy, parseBy] at accepted
    split at accepted
    · cases accepted
    · split at accepted
      · cases accepted
      · cases accepted
        rfl

theorem choose_of_unasked {host : Host} (unset : host.settingsPath = []) : choose host []
    = match host.home with
      | some directory => .optional (Path.join directory fileName)
      | none => .nothing := by
  unfold choose
  exact (if_neg (fun solid => solid rfl)).trans (if_neg (fun solid => solid unset))

/-- A file that is asked for has a path. -/
theorem choose_of_asked {host : Host} {explicit : Bytes}
    (asked : ¬ (explicit = [] ∧ host.settingsPath = [])) :
    ∃ path, path ≠ [] ∧ choose host explicit = .required path := by
  rw [choose]
  by_cases unasked : explicit = []
  · have set : host.settingsPath ≠ [] := fun unset => asked ⟨unasked, unset⟩
    exact ⟨_, set, by rw [if_neg (fun solid => solid unasked), if_pos set]⟩
  · exact ⟨_, unasked, if_pos unasked⟩

theorem loadBy_of_unfound {host : Host} {explicit : Bytes} (unfound : Unfound host explicit) :
    loadBy reader host explicit = .ok (initial host.home) := by
  obtain ⟨rfl, unset, missing⟩ := unfound
  have chosen := choose_of_unasked unset
  cases known : host.home with
  | none =>
    rw [known] at chosen
    rw [loadBy, chosen, known]
  | some directory =>
    rw [known] at chosen
    simp only [loadBy, chosen, missing directory known, known]

/-- Settings have a path if a file was asked for or found. -/
theorem path_ne_nil_of_loadBy {host : Host} {explicit : Bytes} (found : ¬ Unfound host explicit)
    (loaded : loadBy reader host explicit = .ok settings) : settings.path ≠ [] := by
  rw [loadBy] at loaded
  by_cases asked : explicit = [] ∧ host.settingsPath = []
  · obtain ⟨rfl, unset⟩ := asked
    have chosen := choose_of_unasked unset
    cases known : host.home with
    | none => exact absurd ⟨rfl, unset, by simp [known]⟩ found
    | some directory =>
      simp only [chosen, known] at loaded
      split at loaded
      · rename_i missing
        exact absurd ⟨rfl, unset, by simp [known, missing]⟩ found
      · rw [path_of_ofViewBy loaded]
        exact Path.join_ne_nil _ _
  · obtain ⟨path, solid, chosen⟩ := choose_of_asked asked
    rw [chosen] at loaded
    rwa [path_of_ofViewBy loaded]

/-- There are settings without a path just if no file was asked for and none found. -/
theorem loadBy_unfound_iff {host : Host} {explicit : Bytes} :
    (loadBy reader host explicit = .ok settings ∧ settings.path = []) ↔
      Unfound host explicit ∧ settings = initial host.home := by
  constructor
  · rintro ⟨loaded, unnamed⟩
    have unfound : Unfound host explicit := Classical.byContradiction fun found =>
      path_ne_nil_of_loadBy found loaded unnamed
    exact ⟨unfound, Except.ok.inj (loaded.symm.trans (loadBy_of_unfound unfound))⟩
  · rintro ⟨unfound, rfl⟩
    exact ⟨loadBy_of_unfound unfound, rfl⟩

/-- **Settings follow the file.** A file is accepted just if it leaves the text before a line of
input out or gives one that is not empty, and leaves the level out, gives it as empty or gives the
name of one in any case of letters. The settings of an accepted file are those that it gives, and
else those that hold without a file; their level is named, and is the least one that is shown. Of a
file that is refused every broken rule is told, each once and in the same order. A tilde as the
first component of a path is replaced by the home directory if that is known, and nothing else is.
Whatever reads the texts of files, the settings for a text are those of the file that is read; and
settings come from no file just if none is asked for and there is none in the home directory. -/
theorem settings_follow_file (home : Option Bytes) (file : SettingsFile) :
    ((∃ settings, ofFile home file = .ok settings) ↔
      (∀ prompt, file.prompt? = some prompt → prompt ≠ []) ∧
        ∀ name, file.level? = some name →
          Bytes.toLowercase name ∈ LogLevel.named.map Prod.fst) ∧
      (∀ settings, ofFile home file = .ok settings → settings.Overlays home file ∧
        ∃ level, (settings.level, level) ∈ LogLevel.named ∧
          LogLevel.ofName? settings.level = some level ∧ settings.threshold false = level) ∧
      (∀ told, ofFile home file = .error told →
        (∀ violation, violation ∈ told ↔ file.Breaks violation) ∧
          told.Pairwise fun one other => one.rank < other.rank) ∧
      (∀ path, expandHome home path =
        if BeginsAtHome path then
          (home.map fun directory => Path.join directory path.tail).getD path
        else path) ∧
      ∀ reader : DocumentReader,
        (∀ path source, reader source = .ok file → parseBy reader home path source
          = ((ofFile home file).map fun settings => { settings with path := path }).mapError
            (.invalid path)) ∧
        ∀ host explicit settings,
          (loadBy reader host explicit = .ok settings ∧ settings.path = []) ↔
            Unfound host explicit ∧ settings = initial host.home := by
  refine ⟨?_, ?_, fun _ => told_of_ofFile_eq_error, expandHome_eq home, fun reader =>
    ⟨?_, fun _ _ _ => loadBy_unfound_iff⟩⟩
  · constructor
    · rintro ⟨settings, accepted⟩
      exact (ofFile_eq_ok_iff.1 accepted).1
    · intro sound
      exact ⟨(initial home).override home file,
        ofFile_eq_ok_iff.2 ⟨sound, overlays_iff.2 rfl, rfl⟩⟩
  · intro settings accepted
    obtain ⟨sound, overlays, -⟩ := ofFile_eq_ok_iff.1 accepted
    exact ⟨overlays, overlays.threshold_eq sound⟩
  · intro path source delivered
    cases result : ofFile home file <;>
      simp [parseBy, delivered, result, Except.map, Except.mapError]

/-- A level may be written in capitals, and a file may break both rules. -/
theorem settings_follow_file_level :
    let home := some (Bytes.utf8 "/home/ann")
    let source := Bytes.utf8 "repl:\n  history_file: ~/lines\nlog:\n  level: WARN\n"
    let file : SettingsFile :=
      ⟨some { historyFile := some (Bytes.utf8 "~/lines") }, some ⟨some (Bytes.utf8 "WARN")⟩⟩
    let settings : Settings :=
      ⟨[], Bytes.utf8 "xen> ", Bytes.utf8 "/home/ann/lines", true, false, Bytes.utf8 "warn"⟩
    let faulty : SettingsFile := ⟨some { prompt := some [] }, some ⟨some (Bytes.utf8 "Loud")⟩⟩
    settings.Overlays home file ∧ settings.threshold false = .warn ∧
      parse home (Bytes.utf8 "x.yml") source
        = .ok { settings with path := Bytes.utf8 "x.yml" } ∧
      ¬ (∃ settings, ofFile home faulty = .ok settings) ∧
      faulty.Breaks (.unknownLevel (Bytes.utf8 "loud")) := by
  intro home source file settings faulty
  have accepted : ofFile home file = .ok settings := by cbv
  have delivered : document source = .ok file := by
    have read : (document source).toOption = some file := by decide +kernel
    cases result : document source with
    | error fault => simp [result, Except.toOption] at read
    | ok other => simpa [result, Except.toOption] using read
  have refused : ofFile home faulty
      = .error [.emptyPrompt, .unknownLevel (Bytes.utf8 "loud")] := by cbv
  obtain ⟨overlays, level, named, found, threshold⟩ :=
    (settings_follow_file home file).2.1 settings accepted
  have same : LogLevel.ofName? settings.level = some .warn := by decide
  refine ⟨overlays, threshold.trans (Option.some.inj (found.symm.trans same)), ?_, ?_, ?_⟩
  · rw [parse, ((settings_follow_file home file).2.2.2.2 document).1 _ source delivered, accepted]
    rfl
  · rintro ⟨_, other⟩
    rw [refused] at other
    cases other
  · exact (((settings_follow_file home faulty).2.2.1 _ refused).1 _).1 (by simp)

end Settings

end ConsoleScript
