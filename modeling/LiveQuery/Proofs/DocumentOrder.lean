import LiveQuery.DocumentOrder

namespace LiveQuery
open Std

instance : TransOrd Timestamp :=
  inferInstanceAs (TransCmp (compareLex (compareOn fun t : Timestamp => t.seconds.toInt)
    (compareOn fun t : Timestamp => t.nanos.toInt)))

namespace DocumentOrder

variable {order : DocumentOrder}

instance [order.Lawful] : TransCmp order.compare :=
  inferInstanceAs (TransCmp (compareLex order.rank (compareOn QueryDocument.path)))

theorem path_eq_of_compare_eq {d e : QueryDocument} (h : order.compare d e = .eq) :
    d.path = e.path := by
  have hpath : Ord.compare d.path e.path = .eq := (compareLex_eq_eq.1 h).2
  exact LawfulEqOrd.eq_of_compare hpath

/-- The order in which no document outranks another is a total preorder. -/
instance : byPath.Lawful where
  eq_swap := rfl
  isLE_trans _ _ := rfl

instance (field : SortField) : TransCmp field.compare := by
  cases field with
  | int field => exact inferInstanceAs (TransCmp (compareOn (SortField.intOf field)))
  | str field => exact inferInstanceAs (TransCmp (compareOn (SortField.textOf field)))
  | present field =>
    exact inferInstanceAs (TransCmp (compareOn fun d : QueryDocument => (d.get? field).isSome))
  | updateTime => exact inferInstanceAs (TransCmp (compareOn QueryDocument.updateTime))

instance (key : SortKey) : TransCmp key.compare := by
  obtain ⟨field, descending⟩ := key
  cases descending with
  | true =>
    have hopposite : TransCmp fun a b => field.compare b a := TransCmp.opposite
    exact hopposite
  | false => exact inferInstanceAs (TransCmp field.compare)

/-- Whatever its keys, an order by sort keys is a total preorder. -/
instance lawful_ofKeys (keys : List SortKey) : (ofKeys keys).Lawful := by
  unfold Lawful ofKeys
  induction keys with
  | nil => exact inferInstanceAs byPath.Lawful
  | cons key keys ih =>
    rw [List.foldr_cons]
    exact inferInstanceAs (TransCmp (compareLex key.compare _))

end DocumentOrder

end LiveQuery
