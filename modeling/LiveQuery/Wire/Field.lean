import LiveQuery.Wire.Varint

namespace LiveQuery.Wire

/-- The content of a field. A group is only ever skipped, so its content is not kept. -/
inductive Payload where
  | varint (n : Nat)
  | fixed64 (n : Nat)
  | bytes (bs : Bytes)
  | group
  | fixed32 (n : Nat)
  deriving DecidableEq

structure Field where
  tag : Nat
  payload : Payload
  deriving DecidableEq

/-- The bytes of a number, the lowest first. -/
def littleEndian : Nat → Nat → Bytes
  | 0, _ => []
  | count + 1, n => UInt8.ofNat (n % 256) :: littleEndian count (n / 256)

def ofLittleEndian : Bytes → Nat
  | [] => 0
  | b :: bs => b.toNat + 256 * ofLittleEndian bs

def key (tag wireType : Nat) : Bytes := varint (8 * tag + wireType)

def Field.encode (f : Field) : Bytes :=
  match f.payload with
  | .varint n => key f.tag 0 ++ varint n
  | .fixed64 n => key f.tag 1 ++ littleEndian 8 n
  | .bytes bs => key f.tag 2 ++ varint bs.length ++ bs
  | .group => key f.tag 3 ++ key f.tag 4
  | .fixed32 n => key f.tag 5 ++ littleEndian 4 n

def encodeFields (fs : List Field) : Bytes := fs.flatMap Field.encode

/-- Reads a tag and a wire type. -/
def readKey? (bs : Bytes) : Option (Nat × Nat × Bytes) := do
  let (n, rest) ← readVarint? bs
  if n < UInt32.size ∧ 8 ≤ n ∧ n % 8 ≤ 5 then some (n / 8, n % 8, rest) else none

def take? (count : Nat) (bs : Bytes) : Option (Bytes × Bytes) :=
  if count ≤ bs.length then some (bs.take count, bs.drop count) else none

/-- Reads a length and that many bytes. -/
def readDelimited? (bs : Bytes) : Option (Bytes × Bytes) := do
  let (count, rest) ← readVarint? bs
  take? count rest

/-- Skips the rest of a group. What it holds nests one level deeper, and there must be a level left for
each thing that is skipped. Every step takes a key, so the number of bytes is fuel enough. -/
def skipGroup? : (fuel depth tag : Nat) → Bytes → Option Bytes
  | 0, _, _, _ => none
  | fuel + 1, depth, tag, bs => do
    let (inner, wireType, rest) ← readKey? bs
    if wireType = 4 then if inner = tag then some rest else none
    else if depth ≤ 1 then none
    else
      let rest ← match wireType with
        | 0 => Prod.snd <$> readVarint? rest
        | 1 => Prod.snd <$> take? 8 rest
        | 2 => Prod.snd <$> readDelimited? rest
        | 3 => skipGroup? fuel (depth - 1) inner rest
        | _ => Prod.snd <$> take? 4 rest
      skipGroup? fuel depth tag rest

/-- Reads a field. One whose tag is in `delimited` has a length and that many bytes, whatever wire type
its key announces. -/
def readField? (delimited : Nat → Bool) (depth : Nat) (bs : Bytes) : Option (Field × Bytes) := do
  let (tag, wireType, rest) ← readKey? bs
  if delimited tag || wireType = 2 then
    let (content, rest) ← readDelimited? rest
    return (⟨tag, .bytes content⟩, rest)
  else match wireType with
    | 0 =>
      let (n, rest) ← readVarint? rest
      return (⟨tag, .varint n⟩, rest)
    | 1 =>
      let (content, rest) ← take? 8 rest
      return (⟨tag, .fixed64 (ofLittleEndian content)⟩, rest)
    | 3 =>
      if depth = 0 then none
      let rest ← skipGroup? rest.length depth tag rest
      return (⟨tag, .group⟩, rest)
    | 5 =>
      let (content, rest) ← take? 4 rest
      return (⟨tag, .fixed32 (ofLittleEndian content)⟩, rest)
    | _ => none

/-- Reads fields up to the end. Each takes at least a byte, so the number of bytes is fuel enough. -/
def readFields? (delimited : Nat → Bool) (depth : Nat) : (fuel : Nat) → Bytes → Option (List Field)
  | _, [] => some []
  | 0, _ => none
  | fuel + 1, bs => do
    let (f, rest) ← readField? delimited depth bs
    return f :: (← readFields? delimited depth fuel rest)

/-- The fields of a message that may nest `depth` levels more. -/
def decodeFields? (delimited : Nat → Bool) (depth : Nat) (bs : Bytes) : Option (List Field) :=
  readFields? delimited depth bs.length bs

namespace Payload

def int32? : Payload → Option Int32
  | varint n => some (Int32.ofNat n)
  | _ => none

def int64? : Payload → Option Int64
  | varint n => some (Int64.ofNat n)
  | _ => none

def bool? : Payload → Option Bool
  | varint n => some (n != 0)
  | _ => none

def double? : Payload → Option Binary64
  | fixed64 n => some ⟨UInt64.ofNat n⟩
  | _ => none

def bytes? : Payload → Option Bytes
  | bytes bs => some bs
  | _ => none

/-- Text must be UTF-8. -/
def string? : Payload → Option String
  | bytes bs => String.fromUTF8? ⟨bs.toArray⟩
  | _ => none

/-- Reads varints up to the end. -/
def varints? : (fuel : Nat) → Bytes → Option (List Nat)
  | _, [] => some []
  | 0, _ => none
  | fuel + 1, bs => do
    let (n, rest) ← readVarint? bs
    return n :: (← varints? fuel rest)

/-- One number, or any number of them packed. -/
def int32s? : Payload → Option (List Int32)
  | varint n => some [Int32.ofNat n]
  | bytes bs => (varints? bs.length bs).map (·.map Int32.ofNat)
  | _ => none

end Payload

/-- The bytes of a text. -/
def utf8 (s : String) : Bytes := s.toUTF8.data.toList

/-- A negative number is written like the 64-bit word that equals it. -/
def word (n : Int) : Nat := (n % UInt64.size).toNat

namespace Field

def ofInt32 (tag : Nat) (n : Int32) : Field := ⟨tag, .varint (word n.toInt)⟩

def ofInt64 (tag : Nat) (n : Int64) : Field := ⟨tag, .varint (word n.toInt)⟩

def ofBool (tag : Nat) (b : Bool) : Field := ⟨tag, .varint b.toNat⟩

def ofDouble (tag : Nat) (x : Binary64) : Field := ⟨tag, .fixed64 x.bits.toNat⟩

def ofBytes (tag : Nat) (bs : Bytes) : Field := ⟨tag, .bytes bs⟩

def ofString (tag : Nat) (s : String) : Field := ⟨tag, .bytes (utf8 s)⟩

def ofFields (tag : Nat) (fs : List Field) : Field := ⟨tag, .bytes (encodeFields fs)⟩

end Field

/-- A field that is left out for its default value. -/
def omitting {α : Type} [BEq α] (default : α) (field : α → Field) (a : α) : List Field :=
  if a == default then [] else [field a]

/-- Numbers in one field, left out when there are none. -/
def packed (tag : Nat) (ns : List Int32) : List Field :=
  if ns.isEmpty then [] else [⟨tag, .bytes (ns.flatMap fun n => varint (word n.toInt))⟩]

end LiveQuery.Wire
