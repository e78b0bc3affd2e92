import LiveQuery.Wire.Message

namespace LiveQuery.Wire

/-- The number of bytes that a message takes, told without writing it. -/
class Sized (α : Type) where
  size : α → Nat

export Sized (size)

def keySize (tag : Nat) : Nat := varintSize (8 * tag)

def varintFieldSize (tag n : Nat) : Nat := keySize tag + varintSize n

/-- The size of a field with so many bytes in it. -/
def delimitedSize (tag count : Nat) : Nat := keySize tag + varintSize count + count

def int32Size (tag : Nat) (n : Int32) : Nat := if n = 0 then 0 else varintFieldSize tag (word n.toInt)

def int64Size (tag : Nat) (n : Int64) : Nat := if n = 0 then 0 else varintFieldSize tag (word n.toInt)

def stringSize (tag : Nat) (s : String) : Nat := if s = "" then 0 else delimitedSize tag s.utf8ByteSize

def bytesSize (tag : Nat) (bs : Bytes) : Nat := if bs = [] then 0 else delimitedSize tag bs.length

def coordinateSize (tag : Nat) (x : Binary64) : Nat := if x.isZero then 0 else keySize tag + 8

/-- The sizes of a list's members together. -/
def totalSize {α : Type} (memberSize : α → Nat) (as : List α) : Nat :=
  as.foldr (fun a total => memberSize a + total) 0

def packedSize (tag : Nat) (ns : List Int32) : Nat :=
  if ns = [] then 0 else delimitedSize tag (totalSize (fun n => varintSize (word n.toInt)) ns)

def messageSize {α : Type} [Sized α] (tag : Nat) (a : α) : Nat := delimitedSize tag (size a)

def optionalSize {α : Type} [Sized α] (tag : Nat) : Option α → Nat
  | none => 0
  | some a => messageSize tag a

instance : Sized Timestamp where
  size t := int64Size 1 t.seconds + int32Size 2 t.nanos

instance : Sized GeoPoint where
  size p := coordinateSize 1 p.latitude + coordinateSize 2 p.longitude

mutual

def valueSize : Value → Nat
  | .unset => 0
  | .null n => varintFieldSize 11 (word n.toInt)
  | .bool _ => keySize 1 + 1
  | .int n => varintFieldSize 2 (word n.toInt)
  | .double _ => keySize 3 + 8
  | .time t => messageSize 10 t
  | .str s => delimitedSize 17 s.utf8ByteSize
  | .bytes bs => delimitedSize 18 bs.length
  | .ref s => delimitedSize 5 s.utf8ByteSize
  | .geo p => messageSize 8 p
  | .array vs => delimitedSize 9 (itemsSize vs)
  | .map es => delimitedSize 6 (entriesSize 1 es)

def itemsSize : List Value → Nat
  | [] => 0
  | v :: vs => delimitedSize 1 (valueSize v) + itemsSize vs

def entriesSize (tag : Nat) : List (String × Value) → Nat
  | [] => 0
  | (key, v) :: es =>
    delimitedSize tag (stringSize 1 key +
      (match v with
        | .unset => 0
        | v => delimitedSize 2 (valueSize v))) + entriesSize tag es

end

instance : Sized Document where
  size d := stringSize 1 d.name + entriesSize 2 d.fields + optionalSize 3 d.createTime +
    optionalSize 4 d.updateTime

instance : Sized Detail where
  size d := stringSize 1 d.typeUrl + bytesSize 2 d.value

instance : Sized Status where
  size s := int32Size 1 s.code + stringSize 2 s.message + totalSize (messageSize 3) s.details

instance : Sized TargetChange where
  size c := int32Size 1 c.kind + packedSize 2 c.targetIds + optionalSize 3 c.cause +
    bytesSize 4 c.resumeToken + optionalSize 6 c.readTime

instance : Sized DocumentChange where
  size c := optionalSize 1 c.document + packedSize 5 c.targetIds + packedSize 6 c.removedTargetIds

instance : Sized DocumentDelete where
  size d := stringSize 1 d.document + optionalSize 4 d.readTime + packedSize 6 d.removedTargetIds

instance : Sized DocumentRemove where
  size d := stringSize 1 d.document + packedSize 2 d.removedTargetIds + optionalSize 4 d.readTime

instance : Sized ExistenceFilter where
  size e := int32Size 1 e.targetId + int32Size 2 e.count

instance : Sized ListenResponse where
  size
    | .unset => 0
    | .targetChange c => messageSize 2 c
    | .documentChange c => messageSize 3 c
    | .documentDelete d => messageSize 4 d
    | .filter e => messageSize 5 e
    | .documentRemove d => messageSize 6 d

instance : Sized QueryTarget where
  size q := stringSize 1 q.parent + (q.structured.map fun bs => delimitedSize 2 bs.length).getD 0

instance : Sized DocumentsTarget where
  size d := totalSize (fun s => delimitedSize 2 s.utf8ByteSize) d.names

def targetKindSize : TargetKind → Nat
  | .unset => 0
  | .query parent structured => messageSize 2 (QueryTarget.mk parent structured)
  | .documents names => messageSize 3 (DocumentsTarget.mk names)

def resumeSize : ResumePoint → Nat
  | .start => 0
  | .token token => delimitedSize 4 token.length
  | .readTime t => messageSize 11 t

instance : Sized Target where
  size t := targetKindSize t.kind + resumeSize t.resume + int32Size 5 t.id +
    if t.once then keySize 6 + 1 else 0

instance : Sized Label where
  size l := stringSize 1 l.key + stringSize 2 l.value

def requestChangeSize : RequestChange → Nat
  | .unset => 0
  | .addTarget t => messageSize 2 t
  | .removeTarget id => varintFieldSize 3 (word id.toInt)

instance : Sized ListenRequest where
  size r := stringSize 1 r.database + requestChangeSize r.change +
    totalSize (fun (key, value) => messageSize 4 (Label.mk key value)) r.labels

end LiveQuery.Wire
