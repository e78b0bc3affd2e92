import LiveQuery.Backoff

namespace LiveQuery

structure ListenSettings where
  database : String
  requestBufferSize : UInt64
  /-- How many existence filters in a row may disagree; zero stands for any number. -/
  maxFilterMismatches : UInt32
  deriving DecidableEq

structure NetworkSettings where
  endpoint : String
  connectTimeoutMs : UInt64
  tcpKeepaliveSecs : UInt64
  http2KeepAliveIntervalSecs : UInt64
  http2KeepAliveTimeoutSecs : UInt64
  enableCompression : Bool
  authToken : Option String
  deriving DecidableEq

structure Settings where
  listen : ListenSettings
  backoff : BackoffPolicy
  network : NetworkSettings
  deriving DecidableEq

def ListenSettings.default : ListenSettings := ⟨"projects/demo-project/databases/(default)", 8, 10⟩

def NetworkSettings.default : NetworkSettings :=
  ⟨"https://firestore.googleapis.com", 5000, 300, 30, 10, false, none⟩

def Settings.default : Settings := ⟨.default, .default, .default⟩

end LiveQuery
