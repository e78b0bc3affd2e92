import LiveQuery.Document

namespace LiveQuery

/-- The sort order of a result set. `rank` may leave documents tied. -/
structure DocumentOrder where
  rank : QueryDocument → QueryDocument → Ordering

namespace DocumentOrder

/-- Ties of `rank` are broken by path. -/
def compare (order : DocumentOrder) : QueryDocument → QueryDocument → Ordering :=
  compareLex order.rank (compareOn QueryDocument.path)

def byPath : DocumentOrder := ⟨fun _ _ => .eq⟩

/-- `rank` is a total preorder. -/
abbrev Lawful (order : DocumentOrder) : Prop := Std.TransCmp order.rank

/-- What a sort key reads from a document. -/
inductive SortField where
  /-- The integer in a field, zero without one. -/
  | int (field : String)
  /-- The text in a field, empty without one. -/
  | str (field : String)
  /-- Whether the field exists. -/
  | present (field : String)
  /-- The update time, absent first. -/
  | updateTime

namespace SortField

def intOf (field : String) (d : QueryDocument) : Int :=
  match d.get? field with
  | some (.int n) => n.toInt
  | _ => 0

def textOf (field : String) (d : QueryDocument) : String :=
  match d.get? field with
  | some (.str s) => s
  | _ => ""

def compare : SortField → QueryDocument → QueryDocument → Ordering
  | int field => compareOn (intOf field)
  | str field => compareOn (textOf field)
  | present field => compareOn fun d => (d.get? field).isSome
  | updateTime => compareOn QueryDocument.updateTime

end SortField

structure SortKey where
  field : SortField
  descending : Bool

namespace SortKey

def compare (key : SortKey) (a b : QueryDocument) : Ordering :=
  if key.descending then key.field.compare b a else key.field.compare a b

end SortKey

/-- The order by each key in turn. -/
def ofKeys (keys : List SortKey) : DocumentOrder :=
  ⟨keys.foldr (fun key rest => compareLex key.compare rest) fun _ _ => .eq⟩

end DocumentOrder

end LiveQuery
