import LiveQuery.Binary64
import LiveQuery.Timestamp

namespace LiveQuery

abbrev Bytes := List UInt8

structure GeoPoint where
  latitude : Binary64
  longitude : Binary64
  deriving DecidableEq

/-- A document field. A map is a list of entries with distinct keys, in no meaningful order. -/
inductive Value where
  | unset
  | null (number : Int32)
  | bool (b : Bool)
  | int (n : Int64)
  | double (x : Binary64)
  | time (t : Timestamp)
  | str (s : String)
  | bytes (bs : Bytes)
  | ref (name : String)
  | geo (point : GeoPoint)
  | array (items : List Value)
  | map (entries : List (String × Value))

namespace Value

mutual

/-- Equality of content: doubles compare as numbers, so NaN differs from itself, and maps as maps. -/
def equal : Value → Value → Bool
  | unset, unset => true
  | null m, null n => m == n
  | bool b, bool c => b == c
  | int m, int n => m == n
  | double x, double y => x.equal y
  | time s, time t => s == t
  | str s, str t => s == t
  | bytes bs, bytes cs => bs == cs
  | ref s, ref t => s == t
  | geo p, geo q => p.latitude.equal q.latitude && p.longitude.equal q.longitude
  | array vs, array ws => equalItems vs ws
  | map es, map fs => es.length == fs.length && equalEntries es fs
  | _, _ => false

def equalItems : List Value → List Value → Bool
  | [], [] => true
  | v :: vs, w :: ws => v.equal w && equalItems vs ws
  | _, _ => false

/-- Whether each entry on the left has an equal value under its key on the right. -/
def equalEntries : List (String × Value) → List (String × Value) → Bool
  | [], _ => true
  | (key, v) :: es, fs =>
    (match fs.lookup key with
      | some w => v.equal w
      | none => false) && equalEntries es fs

end

/-- Equality of maps of fields. -/
def equalFields (es fs : List (String × Value)) : Bool :=
  es.length == fs.length && equalEntries es fs

end Value

end LiveQuery
