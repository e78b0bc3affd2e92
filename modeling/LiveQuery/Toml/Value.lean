import LiveQuery.Binary64
import LiveQuery.Toml.DateTime

namespace LiveQuery.Toml

/-- A value of a document. -/
inductive Value where
  | bool (b : Bool)
  | int (n : Int64)
  | float (x : Binary64)
  | text (s : String)
  | dateTime (d : DateTime)
  | list (items : List Value)
  | table (entries : List (String × Value))

end LiveQuery.Toml
