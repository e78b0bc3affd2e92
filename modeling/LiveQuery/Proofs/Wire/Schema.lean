import Mathlib.Data.List.Defs
import LiveQuery.Proofs.Wire.RoundTrip

namespace LiveQuery.Wire

/-- The messages that a response is made of. -/
inductive Schema where
  | response
  | targetChange
  | documentChange
  | documentDelete
  | documentRemove
  | filter
  | status
  | detail
  | document
  | entry
  | value
  | items
  | map
  | geoPoint
  | timestamp
  deriving DecidableEq

namespace Schema

/-- The numbers that a message declares, each with the message that its field holds, if it holds one. -/
def fields : Schema → List (Nat × Option Schema)
  | response => [(2, some targetChange), (3, some documentChange), (4, some documentDelete),
      (5, some filter), (6, some documentRemove)]
  | targetChange => [(1, none), (2, none), (3, some status), (4, none), (6, some timestamp)]
  | documentChange => [(1, some document), (5, none), (6, none)]
  | documentDelete => [(1, none), (4, some timestamp), (6, none)]
  | documentRemove => [(1, none), (2, none), (4, some timestamp)]
  | filter => [(1, none), (2, none)]
  | status => [(1, none), (2, none), (3, some detail)]
  | detail => [(1, none), (2, none)]
  | document => [(1, none), (2, some entry), (3, some timestamp), (4, some timestamp)]
  | entry => [(1, none), (2, some value)]
  | value => [(1, none), (2, none), (3, none), (5, none), (6, some map), (8, some geoPoint),
      (9, some items), (10, some timestamp), (11, none), (17, none), (18, none)]
  | items => [(1, some value)]
  | map => [(1, some entry)]
  | geoPoint => [(1, none), (2, none)]
  | timestamp => [(1, none), (2, none)]

def numbers (s : Schema) : List Nat := s.fields.map Prod.fst

theorem isTag_of_mem {s : Schema} {n : Nat} (h : n ∈ s.numbers) : IsTag n := by
  have hall : ∀ n ∈ s.numbers, IsTag n := by cases s <;> decide
  exact hall n h

/-- The numbers of the maps in a message, whose entries are length-delimited in any case. -/
def delimited : Schema → Nat → Bool
  | document => isMapTag 2
  | map => isMapTag 1
  | _ => noMap

theorem delimited_of_notMem {s : Schema} {n : Nat} (h : n ∉ s.numbers) : s.delimited n = false := by
  cases s with
  | document | map => exact beq_false_of_ne fun hn => h (hn ▸ by decide)
  | _ => rfl

/-- What a message is read into. -/
def Carrier : Schema → Type
  | response => ListenResponse
  | targetChange => TargetChange
  | documentChange => DocumentChange
  | documentDelete => DocumentDelete
  | documentRemove => DocumentRemove
  | filter => ExistenceFilter
  | status => Status
  | detail => Detail
  | document => Document
  | entry => String × Value
  | value => Value
  | items => List Value
  | map => List (String × Value)
  | geoPoint => GeoPoint
  | timestamp => Timestamp

/-- The reader of a message that may nest `depth` levels more. -/
def merge? : (s : Schema) → (depth : Nat) → s.Carrier → Bytes → Option s.Carrier
  | response => Message.merge? (α := ListenResponse)
  | targetChange => Message.merge? (α := TargetChange)
  | documentChange => Message.merge? (α := DocumentChange)
  | documentDelete => Message.merge? (α := DocumentDelete)
  | documentRemove => Message.merge? (α := DocumentRemove)
  | filter => Message.merge? (α := ExistenceFilter)
  | status => Message.merge? (α := Status)
  | detail => Message.merge? (α := Detail)
  | document => Message.merge? (α := Document)
  | entry => mergeEntry?
  | value => mergeValue?
  | items => mergeItems?
  | map => mergeMap?
  | geoPoint => Message.merge? (α := GeoPoint)
  | timestamp => Message.merge? (α := Timestamp)

end Schema

/-! What is read stays as it is -/

/-- What the first gives, the second gives too. -/
def Upholds {α : Type} (x y : Option α) : Prop := ∀ a, x = some a → y = some a

variable {α β : Type} {x y : Option α} {s : Schema} {depth : Nat} {bs bs' : Bytes}

theorem Upholds.refl (x : Option α) : Upholds x x := fun _ h => h

theorem Upholds.bind {k k' : α → Option β} (h : Upholds x y) (hk : ∀ a, Upholds (k a) (k' a)) :
    Upholds (x.bind k) (y.bind k') := by
  intro b hb
  obtain ⟨a, hx, hb⟩ := Option.bind_eq_some_iff.1 hb
  rw [h a hx, Option.bind_some, hk a b hb]

theorem Upholds.map (h : Upholds x y) (f : α → β) : Upholds (x.map f) (y.map f) := by
  rw [Option.map_eq_bind, Option.map_eq_bind]
  exact h.bind fun _ => .refl _

/-- Whatever comes out of the one bytes as such a message comes out of the other. -/
def Tolerates (s : Schema) (depth : Nat) (bs bs' : Bytes) : Prop :=
  ∀ a, Upholds (s.merge? depth a bs) (s.merge? depth a bs')

theorem upholds_deeper (merge? : Nat → α → Bytes → Option α)
    (h : ∀ a, Upholds (merge? (depth - 1) a bs) (merge? (depth - 1) a bs')) (a : α) :
    Upholds (deeper merge? depth a bs) (deeper merge? depth a bs') := by
  rw [deeper, deeper]
  split
  · intro b hnone
    cases hnone
  · exact h a

section

variable [Message α]

theorem upholds_nested? (h : ∀ a : α, Upholds (Message.merge? (depth - 1) a bs) (Message.merge? (depth - 1) a bs'))
    (a : α) : Upholds (nested? depth a (.bytes bs)) (nested? depth a (.bytes bs')) := by
  rw [nested?_bytes, nested?_bytes]
  exact upholds_deeper _ h a

theorem upholds_optional?
    (h : ∀ a : α, Upholds (Message.merge? (depth - 1) a bs) (Message.merge? (depth - 1) a bs'))
    (o : Option α) : Upholds (optional? depth o (.bytes bs)) (optional? depth o (.bytes bs')) :=
  (upholds_nested? h _).map some

theorem upholds_repeated?
    (h : ∀ a : α, Upholds (Message.merge? (depth - 1) a bs) (Message.merge? (depth - 1) a bs'))
    (as : List α) : Upholds (repeated? depth as (.bytes bs)) (repeated? depth as (.bytes bs')) :=
  (upholds_nested? h _).bind fun _ => .refl _

end

theorem upholds_nestedMember? (h : Tolerates .entry (depth - 1) bs bs') (es : List (String × Value)) :
    Upholds (nestedMember? depth es (.bytes bs)) (nestedMember? depth es (.bytes bs')) := by
  rw [nestedMember?_bytes, nestedMember?_bytes]
  exact (upholds_deeper mergeEntry? h _).bind fun _ => .refl _

/-! Readers -/

/-- Of a field that holds a message, a reader keeps what the reader of that message keeps. -/
def PassesOn (step : α → Field → Option α) (depth tag : Nat) : Option Schema → Prop
  | none => True
  | some sub => ∀ bs bs', Tolerates sub (depth - 1) bs bs' →
      ∀ a, Upholds (step a ⟨tag, .bytes bs⟩) (step a ⟨tag, .bytes bs'⟩)

/-- A message is read field by field, and what its schema does not declare is skipped. -/
structure Follows (s : Schema) (step : Nat → s.Carrier → Field → Option s.Carrier) : Prop where
  merge?_eq (depth : Nat) (a : s.Carrier) :
    s.merge? depth a = mergeFields? s.delimited (step depth) depth a
  undeclared (depth : Nat) (a : s.Carrier) (f : Field) : f.tag ∉ s.numbers → step depth a f = skip? depth a
  passesOn (depth : Nat) : s.fields.Forall fun field => PassesOn (step depth) depth field.1 field.2

theorem absurd_of_declared {P : Prop} {f : Field} {n : Nat} (h : f.tag ∉ s.numbers) (hn : f.tag = n)
    (hdeclared : n ∈ s.numbers) : P :=
  absurd (hn ▸ hdeclared) h

theorem Schema.follows (s : Schema) : ∃ step, Follows s step := by
  cases s with
  | response =>
    refine ⟨_, fun _ _ => rfl, fun _ _ f h => ?_, fun _ => ⟨?_, ?_, ?_, ?_, ?_⟩⟩
    · split <;> first | rfl | exact absurd_of_declared h ‹_› (by decide)
    · exact fun _ _ h _ => (upholds_nested? (α := TargetChange) h _).map _
    · exact fun _ _ h _ => (upholds_nested? (α := DocumentChange) h _).map _
    · exact fun _ _ h _ => (upholds_nested? (α := DocumentDelete) h _).map _
    · exact fun _ _ h _ => (upholds_nested? (α := ExistenceFilter) h _).map _
    · exact fun _ _ h _ => (upholds_nested? (α := DocumentRemove) h _).map _
  | targetChange =>
    refine ⟨_, fun _ _ => rfl, fun _ _ f h => ?_, fun _ => ⟨trivial, trivial, ?_, trivial, ?_⟩⟩
    · split <;> first | rfl | exact absurd_of_declared h ‹_› (by decide)
    · exact fun _ _ h _ => (upholds_optional? (α := Status) h _).bind fun _ => .refl _
    · exact fun _ _ h _ => (upholds_optional? (α := Timestamp) h _).bind fun _ => .refl _
  | documentChange =>
    refine ⟨_, fun _ _ => rfl, fun _ _ f h => ?_, fun _ => ⟨?_, trivial, trivial⟩⟩
    · split <;> first | rfl | exact absurd_of_declared h ‹_› (by decide)
    · exact fun _ _ h _ => (upholds_optional? (α := Document) h _).bind fun _ => .refl _
  | documentDelete =>
    refine ⟨_, fun _ _ => rfl, fun _ _ f h => ?_, fun _ => ⟨trivial, ?_, trivial⟩⟩
    · split <;> first | rfl | exact absurd_of_declared h ‹_› (by decide)
    · exact fun _ _ h _ => (upholds_optional? (α := Timestamp) h _).bind fun _ => .refl _
  | documentRemove =>
    refine ⟨_, fun _ _ => rfl, fun _ _ f h => ?_, fun _ => ⟨trivial, trivial, ?_⟩⟩
    · split <;> first | rfl | exact absurd_of_declared h ‹_› (by decide)
    · exact fun _ _ h _ => (upholds_optional? (α := Timestamp) h _).bind fun _ => .refl _
  | status =>
    refine ⟨_, fun _ _ => rfl, fun _ _ f h => ?_, fun _ => ⟨trivial, trivial, ?_⟩⟩
    · split <;> first | rfl | exact absurd_of_declared h ‹_› (by decide)
    · exact fun _ _ h _ => (upholds_repeated? (α := Detail) h _).bind fun _ => .refl _
  | document =>
    refine ⟨_, fun _ _ => rfl, fun _ _ f h => ?_, fun _ => ⟨trivial, ?_, ?_, ?_⟩⟩
    · split <;> first | rfl | exact absurd_of_declared h ‹_› (by decide)
    · exact fun _ _ h _ => (upholds_nestedMember? h _).bind fun _ => .refl _
    · exact fun _ _ h _ => (upholds_optional? (α := Timestamp) h _).bind fun _ => .refl _
    · exact fun _ _ h _ => (upholds_optional? (α := Timestamp) h _).bind fun _ => .refl _
  | value =>
    refine ⟨_, mergeValue?_eq, fun _ _ f h => ?_,
      fun _ => ⟨trivial, trivial, trivial, trivial, ?_, ?_, ?_, ?_, trivial, trivial, trivial⟩⟩
    · unfold valueField?
      split <;> first | rfl | exact absurd_of_declared h ‹_› (by decide)
    · exact fun _ _ h _ => (upholds_deeper mergeMap? h _).bind fun _ => .refl _
    · exact fun _ _ h _ => (upholds_nested? (α := GeoPoint) h _).map _
    · exact fun _ _ h _ => (upholds_deeper mergeItems? h _).bind fun _ => .refl _
    · exact fun _ _ h _ => (upholds_nested? (α := Timestamp) h _).map _
  | items =>
    refine ⟨_, mergeItems?_eq, fun _ _ f h => ?_, fun _ => ?_⟩
    · unfold itemField?
      split <;> first | rfl | exact absurd_of_declared h ‹_› (by decide)
    · exact fun _ _ h _ => (upholds_deeper mergeValue? h _).bind fun _ => .refl _
  | map =>
    refine ⟨_, mergeMap?_eq, fun _ _ f h => ?_, fun _ => ?_⟩
    · unfold mapField?
      split <;> first | rfl | exact absurd_of_declared h ‹_› (by decide)
    · exact fun _ _ h _ => (upholds_deeper mergeEntry? h _).bind fun _ => .refl _
  | entry =>
    refine ⟨_, mergeEntry?_eq, fun _ _ f h => ?_, fun _ => ⟨trivial, ?_⟩⟩
    · unfold entryField?
      split <;> first | rfl | exact absurd_of_declared h ‹_› (by decide)
    · exact fun _ _ h _ => (upholds_deeper mergeValue? h _).bind fun _ => .refl _
  | filter | detail | geoPoint | timestamp =>
    refine ⟨_, fun _ _ => rfl, fun _ _ f h => ?_, fun _ => ⟨trivial, trivial⟩⟩
    split <;> first | rfl | exact absurd_of_declared h ‹_› (by decide)

end LiveQuery.Wire
