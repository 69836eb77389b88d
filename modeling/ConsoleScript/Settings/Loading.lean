import ConsoleScript.Settings.Decoding

/-! # Finding and reading the settings file

The file is the one named on the command line, else the one that the environment names, else a file
in the home directory. Only the last may be missing. What the program is told by the system around
it is a `Host`: the home directory, the name from the environment, and a look at a file.

How the text of a file is understood is left to a reader of documents, which `parseBy` and `loadBy`
are given. The command line has the reader `document`. -/

namespace ConsoleScript

/-- Why a file cannot be opened. -/
inductive OpenFault where
  /-- There is no such file. -/
  | missing
  /-- A component of the path before the last is no directory. -/
  | notDirectory
  /-- Any other reason, in words: no permission, too many open files, and so on. -/
  | other (reason : Bytes)
  deriving DecidableEq

namespace OpenFault

/-- The fault in words. -/
def reason : OpenFault → Bytes
  | missing => Bytes.utf8 "no such file or directory"
  | notDirectory => Bytes.utf8 "not a directory"
  | other reason => reason

/-- The fault in words, with the path that could not be opened. -/
def message (fault : OpenFault) (path : Bytes) : Bytes :=
  Bytes.utf8 "open " ++ path ++ Bytes.utf8 ": " ++ fault.reason

end OpenFault

/-- What a look at a file shows. -/
inductive FileView where
  /-- A file with its content. -/
  | content (text : Bytes)
  /-- A directory, which can be opened but not read. -/
  | directory
  /-- Nothing that can be opened. -/
  | closed (fault : OpenFault)
  deriving DecidableEq

namespace FileView

/-- That a directory cannot be read, in words. -/
def directoryMessage (path : Bytes) : Bytes :=
  Bytes.utf8 "read " ++ path ++ Bytes.utf8 ": is a directory"

/-- The content of a file, or in words why it cannot be read. -/
def read (view : FileView) (path : Bytes) : Except Bytes Bytes :=
  match view with
  | content text => .ok text
  | directory => .error (directoryMessage path)
  | closed fault => .error (fault.message path)

end FileView

/-- What the system around the program provides. -/
structure Host where
  /-- The home directory of the user, if it is known. -/
  home : Option Bytes
  /-- The path of a settings file from the environment; empty if there is none. -/
  settingsPath : Bytes
  /-- Looks at the file with a path. -/
  look : Bytes → FileView

/-- Why a document says nothing about settings. -/
inductive DocumentFault where
  /-- It is a directory. -/
  | directory
  /-- The text is no document. -/
  | malformed
  /-- A merge key has a value that cannot be merged. -/
  | unmergeable
  /-- Parts of the document do not fit. -/
  | misfitting (misfits : List Misfit)
  /-- Any other reason that a reader of documents has, in words. -/
  | refused (reason : Bytes)

namespace DocumentFault

/-- The fault of the document with a path in words. -/
def message (path : Bytes) : DocumentFault → Bytes
  | directory => Bytes.utf8 "yaml: input error: " ++ FileView.directoryMessage path
  | malformed => Bytes.utf8 "yaml: malformed document"
  | unmergeable => Bytes.utf8 "yaml: " ++ Misfit.unmergeable.message
  | misfitting misfits => Misfit.summary (misfits.map Misfit.message)
  | refused reason => reason

end DocumentFault

/-- Why there are no settings. The path is empty for settings that come from no file. -/
inductive SettingsFault where
  /-- A file cannot be opened. -/
  | unopened (path : Bytes) (fault : OpenFault)
  /-- A document cannot be understood. -/
  | unread (path : Bytes) (fault : DocumentFault)
  /-- The settings break rules. -/
  | invalid (path : Bytes) (violations : List Violation)

namespace SettingsFault

/-- The fault in words. -/
def message : SettingsFault → Bytes
  | unopened path fault =>
    Bytes.utf8 "config: open " ++ path ++ Bytes.utf8 ": " ++ fault.message path
  | unread path fault =>
    (if path = [] then [] else Bytes.utf8 "config: parse " ++ path ++ Bytes.utf8 ": ")
      ++ fault.message path
  | invalid path violations => Violation.summary path (violations.map Violation.message)

end SettingsFault

namespace Settings

/-- The name of the settings file in the home directory. -/
def fileName : Bytes :=
  Bytes.utf8 ".xen.yml"

/-- A reader of documents: the content of a settings file, read from its text. -/
abbrev DocumentReader : Type :=
  Bytes → Except DocumentFault SettingsFile

/-- The reader of documents that the command line uses; an empty text says nothing. -/
def document (source : Bytes) : Except DocumentFault SettingsFile :=
  match Yaml.Node.readStream source with
  | .empty => .ok {}
  | .broken => .error .malformed
  | .document root =>
    match SettingsFile.decode root with
    | ⟨file, []⟩ => .ok file
    | ⟨_, misfits⟩ =>
      .error (if misfits.contains .unmergeable then .unmergeable else .misfitting misfits)

/-- The settings for a text that a reader is given, which is that of the file with a path. -/
def parseBy (reader : DocumentReader) (home : Option Bytes) (path source : Bytes) :
    Except SettingsFault Settings :=
  match reader source with
  | .error fault => .error (.unread path fault)
  | .ok file =>
    match ofFile home file with
    | .error violations => .error (.invalid path violations)
    | .ok settings => .ok { settings with path := path }

/-- The settings for a text, which is that of the file with a path. -/
def parse (home : Option Bytes) (path source : Bytes) : Except SettingsFault Settings :=
  parseBy document home path source

/-- The settings file that is looked for. -/
inductive Choice where
  /-- A file that was asked for, and so has to be there. -/
  | required (path : Bytes)
  /-- The file in the home directory, which may be missing. -/
  | optional (path : Bytes)
  /-- None. -/
  | nothing
  deriving DecidableEq

namespace Choice

/-- The path of the file; empty for none. -/
def path : Choice → Bytes
  | required path | optional path => path
  | nothing => []

/-- Whether the file has to be there. -/
def isRequired : Choice → Bool
  | required _ => true
  | _ => false

end Choice

/-- The settings file for a path from the command line, which may be empty. -/
def choose (host : Host) (explicit : Bytes) : Choice :=
  if explicit ≠ [] then .required explicit
  else if host.settingsPath ≠ [] then .required host.settingsPath
  else
    match host.home with
    | some directory => .optional (Path.join directory fileName)
    | none => .nothing

/-- The settings of a file that was looked at, its text being given to a reader. -/
def ofViewBy (reader : DocumentReader) (home : Option Bytes) (path : Bytes) :
    FileView → Except SettingsFault Settings
  | .closed fault => .error (.unopened path fault)
  | .directory => .error (.unread path .directory)
  | .content source => parseBy reader home path source

/-- The settings for a path from the command line, which may be empty. The text of a file is given
to a reader. -/
def loadBy (reader : DocumentReader) (host : Host) (explicit : Bytes) :
    Except SettingsFault Settings :=
  match choose host explicit with
  | .nothing => .ok (initial host.home)
  | .required path => ofViewBy reader host.home path (host.look path)
  | .optional path =>
    match host.look path with
    -- Any other reason why it cannot be opened is not excused.
    | .closed .missing => .ok (initial host.home)
    | view => ofViewBy reader host.home path view

/-- The settings for a path from the command line, which may be empty. -/
def load (host : Host) (explicit : Bytes) : Except SettingsFault Settings :=
  loadBy document host explicit

end Settings

end ConsoleScript
