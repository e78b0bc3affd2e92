import LiveQuery.Entries
import LiveQuery.Message
import LiveQuery.Wire.Field

namespace LiveQuery.Wire

/-- How a message of a type is written and read. Reading merges fields into a value, so that a message
sent twice is the union of both. -/
class Message (α : Type) where
  default : α
  fields : α → List Field
  merge? : (depth : Nat) → α → Bytes → Option α

def encode {α : Type} [Message α] (a : α) : Bytes := encodeFields (Message.fields a)

/-- Messages nest at most a hundred levels below the outermost. -/
def maxDepth : Nat := 100

def decode? {α : Type} [Message α] (bs : Bytes) : Option α := Message.merge? maxDepth Message.default bs

/-! Reading -/

/-- Merges fields into a value one after the other. -/
def mergeFields? {α : Type} (delimited : Nat → Bool) (field : α → Field → Option α) (depth : Nat)
    (a : α) (bs : Bytes) : Option α := do
  (← decodeFields? delimited depth bs).foldlM field a

/-- No field is length-delimited against its wire type. -/
def noMap : Nat → Bool := fun _ => false

/-- A field that the message does not know is skipped, which takes a level as well. -/
def skip? {α : Type} (depth : Nat) (a : α) : Option α := if depth = 0 then none else some a

/-- A message inside a message. -/
def nested? {α : Type} [Message α] (depth : Nat) (a : α) (p : Payload) : Option α := do
  if depth = 0 then none
  Message.merge? (depth - 1) a (← p.bytes?)

/-- A message field merges into the message there, if there is one. -/
def optional? {α : Type} [Message α] (depth : Nat) (a : Option α) (p : Payload) : Option (Option α) :=
  some <$> nested? depth (a.getD Message.default) p

/-- A message in a list is a new one. -/
def repeated? {α : Type} [Message α] (depth : Nat) (as : List α) (p : Payload) : Option (List α) := do
  return as ++ [← nested? depth Message.default p]

/-! Writing -/

def ofMessage {α : Type} [Message α] (tag : Nat) (a : α) : Field := .ofFields tag (Message.fields a)

def ofOptional {α : Type} [Message α] (tag : Nat) (a : Option α) : List Field :=
  a.toList.map (ofMessage tag)

instance : Message Timestamp where
  default := ⟨0, 0⟩
  fields t := omitting 0 (.ofInt64 1) t.seconds ++ omitting 0 (.ofInt32 2) t.nanos
  merge? depth := mergeFields? noMap (fun t f =>
    match f.tag with
    | 1 => return { t with seconds := ← f.payload.int64? }
    | 2 => return { t with nanos := ← f.payload.int32? }
    | _ => skip? depth t) depth

/-- A coordinate is left out when it is a zero of either sign. -/
def coordinate (tag : Nat) (x : Binary64) : List Field := if x.isZero then [] else [.ofDouble tag x]

instance : Message GeoPoint where
  default := ⟨.zero false, .zero false⟩
  fields p := coordinate 1 p.latitude ++ coordinate 2 p.longitude
  merge? depth := mergeFields? noMap (fun p f =>
    match f.tag with
    | 1 => return { p with latitude := ← f.payload.double? }
    | 2 => return { p with longitude := ← f.payload.double? }
    | _ => skip? depth p) depth

/-! Values -/

mutual

def valueFields : Value → List Field
  | .unset => []
  | .null n => [.ofInt32 11 n]
  | .bool b => [.ofBool 1 b]
  | .int n => [.ofInt64 2 n]
  | .double x => [.ofDouble 3 x]
  | .time t => [ofMessage 10 t]
  | .str s => [.ofString 17 s]
  | .bytes bs => [.ofBytes 18 bs]
  | .ref s => [.ofString 5 s]
  | .geo p => [ofMessage 8 p]
  | .array vs => [.ofFields 9 (itemFields vs)]
  | .map es => [.ofFields 6 (entryFields 1 es)]

def itemFields : List Value → List Field
  | [] => []
  | v :: vs => .ofFields 1 (valueFields v) :: itemFields vs

/-- An entry is a message of key and value, each left out when it is the default. -/
def entryFields (tag : Nat) : List (String × Value) → List Field
  | [] => []
  | (key, v) :: es =>
    .ofFields tag (omitting "" (.ofString 1) key ++
      (match v with
        | .unset => []
        | v => [.ofFields 2 (valueFields v)])) :: entryFields tag es

end

def Value.items : Value → List Value
  | .array vs => vs
  | _ => []

def Value.entries : Value → List (String × Value)
  | .map es => es
  | _ => []

def Value.timeOrDefault : Value → Timestamp
  | .time t => t
  | _ => Message.default

def Value.geoOrDefault : Value → GeoPoint
  | .geo p => p
  | _ => Message.default

/-- A field of a value: a member of another kind is replaced, a message of the same kind is merged. -/
def valueField? (depth : Nat) (array : List Value → Bytes → Option (List Value))
    (map : List (String × Value) → Bytes → Option (List (String × Value))) (v : Value) (f : Field) :
    Option Value :=
  match f.tag with
  | 1 => .bool <$> f.payload.bool?
  | 2 => .int <$> f.payload.int64?
  | 3 => .double <$> f.payload.double?
  | 5 => .ref <$> f.payload.string?
  | 6 => do return .map (← map (Value.entries v) (← f.payload.bytes?))
  | 8 => .geo <$> nested? depth (Value.geoOrDefault v) f.payload
  | 9 => do return .array (← array (Value.items v) (← f.payload.bytes?))
  | 10 => .time <$> nested? depth (Value.timeOrDefault v) f.payload
  | 11 => .null <$> f.payload.int32?
  | 17 => .str <$> f.payload.string?
  | 18 => .bytes <$> f.payload.bytes?
  | _ => skip? depth v

def itemField? (depth : Nat) (value : Bytes → Option Value) (vs : List Value) (f : Field) :
    Option (List Value) :=
  match f.tag with
  | 1 => do return vs ++ [← value (← f.payload.bytes?)]
  | _ => skip? depth vs

/-- A field of a map's message: an entry replaces an earlier one with its key. -/
def mapField? (depth : Nat) (entry : Bytes → Option (String × Value)) (es : List (String × Value))
    (f : Field) : Option (List (String × Value)) :=
  match f.tag with
  | 1 => do
    let (key, v) ← entry (← f.payload.bytes?)
    return setEntry key v es
  | _ => skip? depth es

def entryField? (depth : Nat) (value : Value → Bytes → Option Value) (e : String × Value) (f : Field) :
    Option (String × Value) :=
  match f.tag with
  | 1 => do return (← f.payload.string?, e.2)
  | 2 => do return (e.1, ← value e.2 (← f.payload.bytes?))
  | _ => skip? depth e

/-- The entries of a map are length-delimited whatever wire type their key announces. -/
def isMapTag (tag : Nat) : Nat → Bool := (· == tag)

mutual

/-- Merges the bytes of a value that may nest `depth` levels more. -/
def mergeValue? : (depth : Nat) → Value → Bytes → Option Value
  | 0, v, bs => mergeFields? noMap (valueField? 0 (fun _ _ => none) (fun _ _ => none)) 0 v bs
  | depth + 1, v, bs =>
    mergeFields? noMap (valueField? (depth + 1) (fun vs bs => mergeItems? depth vs bs)
      (fun es bs => mergeMap? depth es bs)) (depth + 1) v bs

def mergeItems? : (depth : Nat) → List Value → Bytes → Option (List Value)
  | 0, vs, bs => mergeFields? noMap (itemField? 0 fun _ => none) 0 vs bs
  | depth + 1, vs, bs =>
    mergeFields? noMap (itemField? (depth + 1) fun bs => mergeValue? depth .unset bs) (depth + 1) vs bs

def mergeMap? : (depth : Nat) → List (String × Value) → Bytes → Option (List (String × Value))
  | 0, es, bs => mergeFields? (isMapTag 1) (mapField? 0 fun _ => none) 0 es bs
  | depth + 1, es, bs =>
    mergeFields? (isMapTag 1) (mapField? (depth + 1) fun bs => mergeEntry? depth ("", .unset) bs)
      (depth + 1) es bs

def mergeEntry? : (depth : Nat) → String × Value → Bytes → Option (String × Value)
  | 0, e, bs => mergeFields? noMap (entryField? 0 fun _ _ => none) 0 e bs
  | depth + 1, e, bs =>
    mergeFields? noMap (entryField? (depth + 1) fun v bs => mergeValue? depth v bs) (depth + 1) e bs

end

/-! Documents -/

/-- An entry of a map of values, one level down. -/
def nestedMember? (depth : Nat) (es : List (String × Value)) (p : Payload) :
    Option (List (String × Value)) := do
  if depth = 0 then none
  let (key, v) ← mergeEntry? (depth - 1) ("", .unset) (← p.bytes?)
  return setEntry key v es

instance : Message Document where
  default := ⟨"", [], none, none⟩
  fields d := omitting "" (.ofString 1) d.name ++ entryFields 2 d.fields ++
    ofOptional 3 d.createTime ++ ofOptional 4 d.updateTime
  merge? depth := mergeFields? (isMapTag 2) (fun d f =>
    match f.tag with
    | 1 => return { d with name := ← f.payload.string? }
    | 2 => return { d with fields := ← nestedMember? depth d.fields f.payload }
    | 3 => return { d with createTime := ← optional? depth d.createTime f.payload }
    | 4 => return { d with updateTime := ← optional? depth d.updateTime f.payload }
    | _ => skip? depth d) depth

/-! Responses -/

instance : Message Detail where
  default := ⟨"", []⟩
  fields d := omitting "" (.ofString 1) d.typeUrl ++ omitting [] (.ofBytes 2) d.value
  merge? depth := mergeFields? noMap (fun d f =>
    match f.tag with
    | 1 => return { d with typeUrl := ← f.payload.string? }
    | 2 => return { d with value := ← f.payload.bytes? }
    | _ => skip? depth d) depth

instance : Message Status where
  default := ⟨0, "", []⟩
  fields s := omitting 0 (.ofInt32 1) s.code ++ omitting "" (.ofString 2) s.message ++
    s.details.map (ofMessage 3)
  merge? depth := mergeFields? noMap (fun s f =>
    match f.tag with
    | 1 => return { s with code := ← f.payload.int32? }
    | 2 => return { s with message := ← f.payload.string? }
    | 3 => return { s with details := ← repeated? depth s.details f.payload }
    | _ => skip? depth s) depth

instance : Message TargetChange where
  default := ⟨0, [], none, [], none⟩
  fields c := omitting 0 (.ofInt32 1) c.kind ++ packed 2 c.targetIds ++ ofOptional 3 c.cause ++
    omitting [] (.ofBytes 4) c.resumeToken ++ ofOptional 6 c.readTime
  merge? depth := mergeFields? noMap (fun c f =>
    match f.tag with
    | 1 => return { c with kind := ← f.payload.int32? }
    | 2 => return { c with targetIds := c.targetIds ++ (← f.payload.int32s?) }
    | 3 => return { c with cause := ← optional? depth c.cause f.payload }
    | 4 => return { c with resumeToken := ← f.payload.bytes? }
    | 6 => return { c with readTime := ← optional? depth c.readTime f.payload }
    | _ => skip? depth c) depth

instance : Message DocumentChange where
  default := ⟨none, [], []⟩
  fields c := ofOptional 1 c.document ++ packed 5 c.targetIds ++ packed 6 c.removedTargetIds
  merge? depth := mergeFields? noMap (fun c f =>
    match f.tag with
    | 1 => return { c with document := ← optional? depth c.document f.payload }
    | 5 => return { c with targetIds := c.targetIds ++ (← f.payload.int32s?) }
    | 6 => return { c with removedTargetIds := c.removedTargetIds ++ (← f.payload.int32s?) }
    | _ => skip? depth c) depth

instance : Message DocumentDelete where
  default := ⟨"", [], none⟩
  fields d := omitting "" (.ofString 1) d.document ++ ofOptional 4 d.readTime ++
    packed 6 d.removedTargetIds
  merge? depth := mergeFields? noMap (fun d f =>
    match f.tag with
    | 1 => return { d with document := ← f.payload.string? }
    | 4 => return { d with readTime := ← optional? depth d.readTime f.payload }
    | 6 => return { d with removedTargetIds := d.removedTargetIds ++ (← f.payload.int32s?) }
    | _ => skip? depth d) depth

instance : Message DocumentRemove where
  default := ⟨"", [], none⟩
  fields d := omitting "" (.ofString 1) d.document ++ packed 2 d.removedTargetIds ++
    ofOptional 4 d.readTime
  merge? depth := mergeFields? noMap (fun d f =>
    match f.tag with
    | 1 => return { d with document := ← f.payload.string? }
    | 2 => return { d with removedTargetIds := d.removedTargetIds ++ (← f.payload.int32s?) }
    | 4 => return { d with readTime := ← optional? depth d.readTime f.payload }
    | _ => skip? depth d) depth

instance : Message ExistenceFilter where
  default := ⟨0, 0⟩
  fields e := omitting 0 (.ofInt32 1) e.targetId ++ omitting 0 (.ofInt32 2) e.count
  merge? depth := mergeFields? noMap (fun e f =>
    match f.tag with
    | 1 => return { e with targetId := ← f.payload.int32? }
    | 2 => return { e with count := ← f.payload.int32? }
    | _ => skip? depth e) depth

namespace ListenResponse

def changeOrDefault : ListenResponse → TargetChange
  | .targetChange c => c
  | _ => Message.default

def documentChangeOrDefault : ListenResponse → DocumentChange
  | .documentChange c => c
  | _ => Message.default

def deleteOrDefault : ListenResponse → DocumentDelete
  | .documentDelete d => d
  | _ => Message.default

def removeOrDefault : ListenResponse → DocumentRemove
  | .documentRemove d => d
  | _ => Message.default

def filterOrDefault : ListenResponse → ExistenceFilter
  | .filter e => e
  | _ => Message.default

end ListenResponse

instance : Message ListenResponse where
  default := .unset
  fields
    | .unset => []
    | .targetChange c => [ofMessage 2 c]
    | .documentChange c => [ofMessage 3 c]
    | .documentDelete d => [ofMessage 4 d]
    | .filter e => [ofMessage 5 e]
    | .documentRemove d => [ofMessage 6 d]
  merge? depth := mergeFields? noMap (fun r f =>
    match f.tag with
    | 2 => .targetChange <$> nested? depth (ListenResponse.changeOrDefault r) f.payload
    | 3 => .documentChange <$> nested? depth (ListenResponse.documentChangeOrDefault r) f.payload
    | 4 => .documentDelete <$> nested? depth (ListenResponse.deleteOrDefault r) f.payload
    | 5 => .filter <$> nested? depth (ListenResponse.filterOrDefault r) f.payload
    | 6 => .documentRemove <$> nested? depth (ListenResponse.removeOrDefault r) f.payload
    | _ => skip? depth r) depth

/-! Requests -/

/-- The parent of a query target and its query in encoded form. -/
structure QueryTarget where
  parent : String
  structured : Option Bytes

instance : Message QueryTarget where
  default := ⟨"", none⟩
  fields q := omitting "" (.ofString 1) q.parent ++ q.structured.toList.map (.ofBytes 2)
  merge? depth := mergeFields? noMap (fun q f =>
    match f.tag with
    | 1 => return { q with parent := ← f.payload.string? }
    | 2 => return { q with structured := some (← f.payload.bytes?) }
    | _ => skip? depth q) depth

structure DocumentsTarget where
  names : List String

instance : Message DocumentsTarget where
  default := ⟨[]⟩
  fields d := d.names.map (.ofString 2)
  merge? depth := mergeFields? noMap (fun d f =>
    match f.tag with
    | 2 => return ⟨d.names ++ [← f.payload.string?]⟩
    | _ => skip? depth d) depth

namespace Target

def kindFields : TargetKind → List Field
  | .unset => []
  | .query parent structured => [ofMessage 2 (QueryTarget.mk parent structured)]
  | .documents names => [ofMessage 3 (DocumentsTarget.mk names)]

def resumeFields : ResumePoint → List Field
  | .start => []
  | .token token => [.ofBytes 4 token]
  | .readTime t => [ofMessage 11 t]

def queryOrDefault : TargetKind → QueryTarget
  | .query parent structured => ⟨parent, structured⟩
  | _ => Message.default

def documentsOrDefault : TargetKind → DocumentsTarget
  | .documents names => ⟨names⟩
  | _ => Message.default

def readTimeOrDefault : ResumePoint → Timestamp
  | .readTime t => t
  | _ => Message.default

end Target

instance : Message Target where
  default := ⟨.unset, .start, 0, false⟩
  fields t := Target.kindFields t.kind ++ Target.resumeFields t.resume ++
    omitting 0 (.ofInt32 5) t.id ++ omitting false (.ofBool 6) t.once
  merge? depth := mergeFields? noMap (fun t f =>
    match f.tag with
    | 2 => do
      let q ← nested? depth (Target.queryOrDefault t.kind) f.payload
      return { t with kind := .query q.parent q.structured }
    | 3 => do
      let d ← nested? depth (Target.documentsOrDefault t.kind) f.payload
      return { t with kind := .documents d.names }
    | 4 => return { t with resume := .token (← f.payload.bytes?) }
    | 5 => return { t with id := ← f.payload.int32? }
    | 6 => return { t with once := ← f.payload.bool? }
    | 11 => do
      let time ← nested? depth (Target.readTimeOrDefault t.resume) f.payload
      return { t with resume := .readTime time }
    | _ => skip? depth t) depth

/-- A label, the entry of a map from text to text. -/
structure Label where
  key : String
  value : String

instance : Message Label where
  default := ⟨"", ""⟩
  fields l := omitting "" (.ofString 1) l.key ++ omitting "" (.ofString 2) l.value
  merge? depth := mergeFields? noMap (fun l f =>
    match f.tag with
    | 1 => return { l with key := ← f.payload.string? }
    | 2 => return { l with value := ← f.payload.string? }
    | _ => skip? depth l) depth

def addedOrDefault : RequestChange → Target
  | .addTarget t => t
  | _ => Message.default

def requestChangeFields : RequestChange → List Field
  | .unset => []
  | .addTarget t => [ofMessage 2 t]
  | .removeTarget id => [.ofInt32 3 id]

instance : Message ListenRequest where
  default := ⟨"", .unset, []⟩
  fields r := omitting "" (.ofString 1) r.database ++ requestChangeFields r.change ++
    r.labels.map fun (key, value) => ofMessage 4 (Label.mk key value)
  merge? depth := mergeFields? (isMapTag 4) (fun r f =>
    match f.tag with
    | 1 => return { r with database := ← f.payload.string? }
    | 2 => return { r with change := .addTarget (← nested? depth (addedOrDefault r.change) f.payload) }
    | 3 => return { r with change := .removeTarget (← f.payload.int32?) }
    | 4 => do
      let l : Label ← nested? depth Message.default f.payload
      return { r with labels := setEntry l.key l.value r.labels }
    | _ => skip? depth r) depth

end LiveQuery.Wire
