import LiveQuery.Wire.Message

namespace LiveQuery

/-- A value holds values only through the lists of arrays and maps. -/
@[elab_as_elim]
theorem Value.membersInduction {motive : Value → Prop}
    (plain : ∀ v, (∀ vs, v ≠ .array vs) → (∀ es, v ≠ .map es) → motive v)
    (array : ∀ vs, (∀ v ∈ vs, motive v) → motive (.array vs))
    (map : ∀ es, (∀ e ∈ es, motive e.2) → motive (.map es)) (v : Value) : motive v :=
  @Value.rec motive (fun vs => ∀ v ∈ vs, motive v) (fun es => ∀ e ∈ es, motive e.2)
    (fun e => motive e.2)
    (plain _ nofun nofun) (fun _ => plain _ nofun nofun) (fun _ => plain _ nofun nofun)
    (fun _ => plain _ nofun nofun) (fun _ => plain _ nofun nofun) (fun _ => plain _ nofun nofun)
    (fun _ => plain _ nofun nofun) (fun _ => plain _ nofun nofun) (fun _ => plain _ nofun nofun)
    (fun _ => plain _ nofun nofun) array map
    nofun (fun _ _ hv hvs => List.forall_mem_cons.2 ⟨hv, hvs⟩)
    nofun (fun _ _ he hes => List.forall_mem_cons.2 ⟨he, hes⟩) (fun _ _ hv => hv) v

theorem Binary64.isZero_iff {x : Binary64} : x.isZero ↔ x = .zero false ∨ x = .zero true := by
  obtain ⟨bits⟩ := x
  have hlt := bits.toNat_lt
  have heq (negative : Bool) : (⟨bits⟩ : Binary64) = .zero negative ↔
      bits.toNat = if negative then 0x8000000000000000 else 0 := by
    rw [zero, ofMagnitude, Binary64.mk.injEq, ← UInt64.toNat_inj]
    cases negative <;> rfl
  rw [heq, heq, isZero, decide_eq_true_iff, if_pos rfl, if_neg (by decide)]
  change bits.toNat % 0x8000000000000000 = 0 ↔ _
  omega

namespace Wire

/-- How a message looks from outside: how many levels of messages are below it, whether each map in it has
one entry for a key, and what it is with every zero coordinate positive. What is said by default is right
for a message that has no message, no map and no coordinate in it. -/
class Nested (α : Type) where
  levels : α → Nat := fun _ => 0
  Distinct : α → Prop := fun _ => True
  normal : α → α := id

export Nested (levels Distinct normal)

section

variable {α : Type} [Nested α]

instance : Nested (Option α) where
  levels a := a.elim 0 fun a => levels a + 1
  Distinct a := a.elim True Distinct
  normal := Option.map normal

instance : Nested (List α) where
  levels as := as.foldr (fun a l => max (levels a + 1) l) 0
  Distinct as := ∀ a ∈ as, Distinct a
  normal := List.map normal

end

def DistinctKeys {α : Type} (es : List (String × α)) : Prop := (es.map Prod.fst).Nodup

instance : Nested Timestamp := {}

def normalCoordinate (x : Binary64) : Binary64 := if x = .zero true then .zero false else x

instance : Nested GeoPoint where
  normal p := ⟨normalCoordinate p.latitude, normalCoordinate p.longitude⟩

mutual

def valueLevels : Value → Nat
  | .time _ | .geo _ => 1
  | .array vs => itemLevels vs + 1
  | .map es => entryLevels es + 1
  | _ => 0

def itemLevels : List Value → Nat
  | [] => 0
  | v :: vs => max (valueLevels v + 1) (itemLevels vs)

/-- An entry is a level, and its value is one when it is written. -/
def entryLevels : List (String × Value) → Nat
  | [] => 0
  | (_, v) :: es =>
    max ((match v with
      | .unset => 0
      | v => valueLevels v + 1) + 1) (entryLevels es)

end

mutual

def DistinctValue : Value → Prop
  | .array vs => DistinctItems vs
  | .map es => DistinctKeys es ∧ DistinctEntries es
  | _ => True

def DistinctItems : List Value → Prop
  | [] => True
  | v :: vs => DistinctValue v ∧ DistinctItems vs

def DistinctEntries : List (String × Value) → Prop
  | [] => True
  | (_, v) :: es => DistinctValue v ∧ DistinctEntries es

end

mutual

def normalValue : Value → Value
  | .geo p => .geo (normal p)
  | .array vs => .array (normalItems vs)
  | .map es => .map (normalEntries es)
  | v => v

def normalItems : List Value → List Value
  | [] => []
  | v :: vs => normalValue v :: normalItems vs

def normalEntries : List (String × Value) → List (String × Value)
  | [] => []
  | (key, v) :: es => (key, normalValue v) :: normalEntries es

end

instance : Nested Value where
  levels := valueLevels
  Distinct := DistinctValue
  normal := normalValue

/-- An entry of a map as a message. -/
instance : Nested (String × Value) where
  levels e := match e.2 with
    | .unset => 0
    | v => levels v + 1
  Distinct e := Distinct e.2
  normal e := (e.1, normal e.2)

/-- A map, which is more than a list of its entries. -/
instance : Nested (List (String × Value)) where
  levels es := es.foldr (fun e l => max (levels e + 1) l) 0
  Distinct es := DistinctKeys es ∧ ∀ e ∈ es, Distinct e
  normal := List.map normal

instance : Nested Document where
  levels d := max (max (levels d.fields) (levels d.createTime)) (levels d.updateTime)
  Distinct d := Distinct d.fields
  normal d := { d with fields := normal d.fields }

instance : Nested Detail := {}

instance : Nested Status where
  levels s := levels s.details

instance : Nested TargetChange where
  levels c := max (levels c.cause) (levels c.readTime)

instance : Nested DocumentChange where
  levels c := levels c.document
  Distinct c := Distinct c.document
  normal c := { c with document := normal c.document }

instance : Nested DocumentDelete where
  levels d := levels d.readTime

instance : Nested DocumentRemove where
  levels d := levels d.readTime

instance : Nested ExistenceFilter := {}

instance : Nested ListenResponse where
  levels
    | .unset => 0
    | .targetChange c => levels c + 1
    | .documentChange c => levels c + 1
    | .documentDelete d => levels d + 1
    | .filter e => levels e + 1
    | .documentRemove d => levels d + 1
  Distinct
    | .documentChange c => Distinct c
    | _ => True
  normal
    | .documentChange c => .documentChange (normal c)
    | r => r

instance : Nested QueryTarget := {}

instance : Nested DocumentsTarget := {}

instance : Nested TargetKind where
  levels
    | .unset => 0
    | .query _ _ | .documents _ => 1

instance : Nested ResumePoint where
  levels
    | .start | .token _ => 0
    | .readTime _ => 1

instance : Nested Target where
  levels t := max (levels t.kind) (levels t.resume)

instance : Nested RequestChange where
  levels
    | .unset | .removeTarget _ => 0
    | .addTarget t => levels t + 1

instance : Nested Label := {}

def labelMessages (labels : List (String × String)) : List Label :=
  labels.map fun (key, value) => ⟨key, value⟩

instance : Nested ListenRequest where
  levels r := max (levels r.change) (levels (labelMessages r.labels))
  Distinct r := DistinctKeys r.labels

/-! The members of arrays and maps -/

theorem itemFields_eq (vs : List Value) : itemFields vs = vs.map fun v => .ofFields 1 (valueFields v) := by
  induction vs with
  | nil => rfl
  | cons v vs ih => rw [itemFields, ih, List.map_cons]

/-- The fields of an entry of a map. -/
def entryContent (e : String × Value) : List Field :=
  omitting "" (.ofString 1) e.1 ++
    (match e.2 with
      | .unset => []
      | v => [.ofFields 2 (valueFields v)])

theorem entryFields_eq (tag : Nat) (es : List (String × Value)) :
    entryFields tag es = es.map fun e => .ofFields tag (entryContent e) := by
  induction es with
  | nil => rfl
  | cons e es ih =>
    rw [entryFields.eq_def]
    exact congrArg (.ofFields tag (entryContent e) :: ·) ih

theorem levels_array (vs : List Value) : levels (Value.array vs) = levels vs + 1 := by
  have hitems : itemLevels vs = levels vs := by
    induction vs with
    | nil => rfl
    | cons v vs ih =>
      rw [itemLevels, ih]
      rfl
  rw [← hitems]
  rfl

theorem levels_map (es : List (String × Value)) : levels (Value.map es) = levels es + 1 := by
  have hentries : entryLevels es = levels es := by
    induction es with
    | nil => rfl
    | cons e es ih =>
      rw [entryLevels.eq_def]
      exact congrArg (max (levels e + 1)) ih
  rw [← hentries]
  rfl

theorem distinct_array (vs : List Value) : Distinct (Value.array vs) ↔ Distinct vs := by
  have hitems : DistinctItems vs ↔ Distinct vs := by
    induction vs with
    | nil => exact ⟨nofun, fun _ => trivial⟩
    | cons v vs ih =>
      rw [DistinctItems, ih]
      exact List.forall_mem_cons.symm
  exact hitems

theorem distinct_map (es : List (String × Value)) : Distinct (Value.map es) ↔ Distinct es := by
  have hentries : DistinctEntries es ↔ ∀ e ∈ es, Distinct e := by
    induction es with
    | nil => exact ⟨nofun, fun _ => trivial⟩
    | cons e es ih =>
      rw [DistinctEntries, ih]
      exact (List.forall_mem_cons (p := Distinct) (a := e)).symm
  exact and_congr_right' hentries

theorem normal_array (vs : List Value) : normal (Value.array vs) = .array (normal vs) := by
  have hitems : normalItems vs = normal vs := by
    induction vs with
    | nil => rfl
    | cons v vs ih =>
      rw [normalItems, ih]
      rfl
  rw [← hitems]
  rfl

theorem normal_map (es : List (String × Value)) : normal (Value.map es) = .map (normal es) := by
  have hentries : normalEntries es = normal es := by
    induction es with
    | nil => rfl
    | cons e es ih =>
      rw [normalEntries, ih]
      rfl
  rw [← hentries]
  rfl

end Wire

end LiveQuery
