namespace LiveQuery

/-- Seconds and nanoseconds since the epoch, kept as given and never normalized. -/
structure Timestamp where
  seconds : Int64
  nanos : Int32
  deriving DecidableEq, Inhabited

namespace Timestamp

instance : Ord Timestamp where
  compare s t := (compare s.seconds.toInt t.seconds.toInt).then (compare s.nanos.toInt t.nanos.toInt)

def debugText (t : Timestamp) : String :=
  "Timestamp \x7b seconds: " ++ toString t.seconds.toInt ++ ", nanos: " ++ toString t.nanos.toInt ++ " \x7d"

end Timestamp

end LiveQuery
