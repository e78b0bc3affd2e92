import LiveQuery.Settings.Tree
import LiveQuery.Binary64.Decimal

namespace LiveQuery.Settings

/-- Variables and their values. -/
abbrev Environment := List (String × String)

namespace Environment

/-- Every two underscores become a dot. -/
def dotted : List Char → List Char
  | '_' :: '_' :: cs => '.' :: dotted cs
  | c :: cs => c :: dotted cs
  | [] => []

/-- The key a variable stands for, as `listen.database` for `WATCH__LISTEN__DATABASE`. -/
def key? (name : String) : Option String :=
  ("watch__".toList.isPrefixOf? (Text.lower name).toList).map fun rest => String.ofList (dotted rest)

/-- The value of a variable: a Boolean, an integer or a float if it reads as one. -/
def value (s : String) : Tree :=
  let word := Text.lower s
  if word = "true" then .bool true
  else if word = "false" then .bool false
  else
    let number? := (Text.readInt? s).bind Tree.ofInt? <|> (Binary64.ofText? s).map Tree.float
    number?.getD (.text s)

/-- The settings in the environment. An empty variable counts as not set. -/
def tree (env : Environment) : Tree :=
  .table (env.filterMap fun (name, s) =>
    if s.isEmpty then none else (key? name).map fun key => (key, value s))

end Environment

end LiveQuery.Settings
