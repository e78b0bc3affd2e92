import LiveQuery.Settings.Tree
import LiveQuery.Toml.Document

namespace LiveQuery.Settings

/-- What is found under the name of a settings file. -/
inductive File where
  | missing
  | text (content : String)

namespace File

/-- The key that, as the first one of a table, makes the table a date-time. -/
def dateTimeKey : String := "$__toml_private_datetime"

def isDateTime (entries : List (String × Toml.Value)) : Bool :=
  entries.head?.map Prod.fst == some dateTimeKey

/-- The date-time that entries stand for. The first one tells it, in a text; the others do not count. -/
def dateTime? : List (String × Toml.Value) → Option Toml.DateTime
  | (_, .text s) :: _ => Toml.DateTime.read? s
  | _ => none

mutual

/-- The settings in a value. A date-time counts as its text. -/
def treeOf? : Toml.Value → Option Tree
  | .bool b => some (.bool b)
  | .int n => some (.int n)
  | .float x => some (.float x)
  | .text s => some (.text s)
  | .dateTime d => some (.text d.text)
  | .list items => Tree.list <$> treesOf? items
  | .table entries =>
    if isDateTime entries then (dateTime? entries).map fun d => .text d.text
    else Tree.table <$> entriesOf? entries

def treesOf? : List Toml.Value → Option (List Tree)
  | [] => some []
  | item :: rest => do return (← treeOf? item) :: (← treesOf? rest)

def entriesOf? : List (String × Toml.Value) → Option (List (String × Tree))
  | [] => some []
  | (key, value) :: rest => do return (key, ← treeOf? value) :: (← entriesOf? rest)

end

/-- Reads the settings in the text of a file, which are a table. -/
def read? (content : String) : Option Tree := do
  let entries ← Toml.parse? content
  if isDateTime entries then none else treeOf? (.table entries)

end File

end LiveQuery.Settings
