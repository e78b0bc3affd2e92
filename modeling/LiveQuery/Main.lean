import LiveQuery.CommandLine

namespace LiveQuery

/-- The variables that set a field, one for each. -/
def variableNames : List String :=
  ((Settings.default.tree?.map Settings.Tree.entries).getD []).flatMap fun (part, fields) =>
    fields.entries.map fun (field, _) =>
      String.ofList (("WATCH__" ++ part ++ "__" ++ field).toList.map Char.toUpper)

def readEnvironment : IO Settings.Environment :=
  variableNames.filterMapM fun name => do return (← IO.getEnv name).map fun value => (name, value)

/-- The file of that name, which may leave out its ending. -/
def readSettingsFile (name : String) : IO Settings.File := do
  for path in [name, name ++ ".toml"] do
    try
      return .text (← IO.FS.readFile path)
    catch _ => pure ()
  return .missing

def runPlan (o : Options) : IO UInt32 := do
  let env ← readEnvironment
  let file? ← (← IO.getEnv "CONFIG_PATH").mapM readSettingsFile
  let config? ← o.config.mapM readSettingsFile
  match Plan.of o env file? config? with
  | .error e =>
    IO.eprintln ("Error: " ++ e.message)
    return 1
  | .ok plan =>
    for target in plan.targets do
      IO.println ("watching " ++ target.debugText)
    return 0

end LiveQuery

def main (args : List String) : IO UInt32 := do
  if args.contains "--help" then
    IO.println LiveQuery.Options.usage
    return 0
  match LiveQuery.Options.ofArguments args with
  | .ok o => LiveQuery.runPlan o
  | .error complaint =>
    IO.eprintln ("error: " ++ complaint ++ "\n\n" ++ LiveQuery.Options.usage)
    return 2
