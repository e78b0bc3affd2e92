import LiveQuery.ListenTarget
import LiveQuery.Settings.Load
import LiveQuery.Settings.Validation
import LiveQuery.Transport

namespace LiveQuery

/-- What a command line asks for. -/
structure Options where
  /-- A settings file that goes over the one the environment names. -/
  config : Option String := none
  endpoint : Option String := none
  database : Option String := none
  /-- The documents to watch, relative to the database. -/
  documents : List String := []
  deriving DecidableEq

namespace Options

def usage : String :=
  "Usage: livequery [--config <FILE>] [--endpoint <URI>] [--database <NAME>] --document <PATH>..."

def set (o : Options) (name value : String) : Except String Options :=
  let once (earlier : Option String) (o : Options) : Except String Options :=
    if earlier.isSome then .error ("the argument " ++ name ++ " cannot be used multiple times") else .ok o
  match name with
  | "--config" => once o.config { o with config := some value }
  | "--endpoint" => once o.endpoint { o with endpoint := some value }
  | "--database" => once o.database { o with database := some value }
  | "--document" => .ok { o with documents := o.documents ++ [value] }
  | _ => .error ("unexpected argument " ++ name)

/-- Reads options as in `--document rooms/lobby` or `--document=rooms/lobby`. -/
def readAll (o : Options) : List String → Except String Options
  | [] => .ok o
  | arg :: args => do
    match arg.toList.span (· ≠ '=') with
    | (name, '=' :: value) =>
      let o ← o.set (String.ofList name) (String.ofList value)
      o.readAll args
    | _ =>
      match args with
      | value :: args =>
        let o ← o.set arg value
        o.readAll args
      | [] => .error ("a value is required for " ++ arg)

/-- The options of a command line, which names at least one document. -/
def ofArguments (args : List String) : Except String Options := do
  let o ← readAll {} args
  if o.documents.isEmpty then .error "the argument --document is required" else return o

/-- The settings with what the command line has to say about them. -/
def override (o : Options) (s : Settings) : Settings :=
  { s with
    network := { s.network with endpoint := o.endpoint.getD s.network.endpoint }
    listen := { s.listen with database := o.database.getD s.listen.database } }

end Options

/-- What is to be watched, and how. -/
structure Plan where
  settings : Settings
  transport : Transport
  targets : List ListenTarget

/-- Puts together the settings from their sources, and sets up the connection. -/
def Plan.of (o : Options) (env : Settings.Environment) (file? config? : Option Settings.File) :
    Except Error Plan := do
  let loaded : Except Settings.LoadError Settings := do
    let s ← Settings.load env file?
    match config? with
    | some file => s.withFile env file
    | none => return s
  let settings ← loaded.mapError fun e => .config e.message
  let settings ← (o.override settings).validate
  let database := settings.listen.database
  return {
    settings
    transport := ← Transport.setUp database settings.network
    targets := o.documents.map fun path => .document (.resolve database path) }

end LiveQuery
