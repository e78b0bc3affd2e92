import LiveQuery.Settings.Environment
import LiveQuery.Settings.File
import LiveQuery.Settings.KeyPath
import LiveQuery.Settings.Typed

namespace LiveQuery.Settings

inductive LoadError where
  | missingFile
  | malformedFile
  /-- A number of the current settings is too large for a tree. -/
  | tooLarge
  /-- A value cannot be converted to the type of its field. -/
  | mismatch
  deriving DecidableEq

def LoadError.message : LoadError → String
  | missingFile => "settings file not found"
  | malformedFile => "settings file cannot be read"
  | tooLarge => "a setting is too large"
  | mismatch => "a setting has a value of the wrong kind"

def File.tree : File → Except LoadError Tree
  | missing => .error .missingFile
  | text content => (read? content).elim (.error .malformedFile) .ok

/-- Lays a file, if there is one, and then the environment over settings. -/
def overlay (env : Environment) (file? : Option File) (s : Settings) : Except LoadError Settings := do
  let base ← s.tree?.elim (.error .tooLarge) .ok
  let source ← match file? with
    | some file => file.tree
    | none => .ok (.table [])
  let tree := env.tree.layer (source.layer base)
  tree.settings?.elim (.error .mismatch) .ok

/-- The settings of an environment and perhaps a file. The environment has the last word. -/
def load (env : Environment) (file? : Option File) : Except LoadError Settings :=
  Settings.default.overlay env file?

/-- Lays a file over settings. The environment still has the last word. -/
def withFile (env : Environment) (file : File) (s : Settings) : Except LoadError Settings :=
  s.overlay env (some file)

end LiveQuery.Settings
