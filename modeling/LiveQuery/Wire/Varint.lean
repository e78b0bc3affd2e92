import LiveQuery.Value

namespace LiveQuery.Wire

/-- A number in groups of seven bits, the lowest first; every byte but the last has its top bit set. -/
def varint (n : Nat) : Bytes :=
  if n < 128 then [UInt8.ofNat n] else UInt8.ofNat (n % 128 + 128) :: varint (n / 128)
termination_by n

/-- The number of bytes of a varint. -/
def varintSize (n : Nat) : Nat := n.log2 / 7 + 1

/-- Reads a varint of at most so many bytes and gives the rest. -/
def readGroups? : Nat → Bytes → Option (Nat × Bytes)
  | 0, _ => none
  | _, [] => none
  | limit + 1, b :: bs =>
    if b < 128 then some (b.toNat, bs)
    else (readGroups? limit bs).map fun (n, rest) => (b.toNat - 128 + 128 * n, rest)

/-- Reads a varint below `2 ^ 64`: at most ten bytes, the tenth at most one. -/
def readVarint? (bs : Bytes) : Option (Nat × Bytes) :=
  (readGroups? 10 bs).filter fun (n, _) => n < UInt64.size

end LiveQuery.Wire
