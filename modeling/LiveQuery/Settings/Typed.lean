import LiveQuery.Settings.Tree
import LiveQuery.Binary64.Decimal

namespace LiveQuery.Settings

/-- The Boolean that a word stands for, in any case. -/
def ofWord? (s : String) : Option Bool :=
  let word := Text.lower s
  if word = "true" || word = "on" || word = "yes" then some true
  else if word = "false" || word = "off" || word = "no" then some false
  else none

namespace Tree

/-- The unsigned integer that a value stands for. A float is rounded and kept in range. -/
def uint64? : Tree → Option UInt64
  | int n => if 0 ≤ n then some (UInt64.ofNat n.toInt.toNat) else none
  | float x => some x.round.toUInt64Saturating
  | bool b => some (if b then 1 else 0)
  | text s =>
    match ofWord? s with
    | some b => some (if b then 1 else 0)
    | none => do
      let n ← Text.readNat? s
      if n < UInt64.size then return UInt64.ofNat n else none
  | nil | list _ | table _ => none

def uint32? (t : Tree) : Option UInt32 := do
  let n ← t.uint64?
  if n.toNat < UInt32.size then return n.toUInt32 else none

/-- The float that a value stands for. -/
def float? : Tree → Option Binary64
  | int n => some (.ofInt n.toInt)
  | float x => some x
  | bool b => some (.ofNat (if b then 1 else 0))
  | text s =>
    match ofWord? s with
    | some b => some (.ofNat (if b then 1 else 0))
    | none => Binary64.ofText? s
  | nil | list _ | table _ => none

/-- The Boolean that a value stands for. Every number but zero is true. -/
def bool? : Tree → Option Bool
  | int n => some (n ≠ 0)
  | float x => some (!x.isZero)
  | bool b => some b
  | text s => if s = "1" then some true else if s = "0" then some false else ofWord? s
  | nil | list _ | table _ => none

/-- The text that a value stands for. -/
def string? : Tree → Option String
  | int n => some (toString n.toInt)
  | float x => some x.text
  | bool b => some (toString b)
  | text s => some s
  | nil | list _ | table _ => none

def optionalString? : Tree → Option (Option String)
  | nil => some none
  | t => t.string?.map some

/-- The field of a section: by name in a table, by position in a list. -/
def field? (part : Tree) (position : Nat) (name : String) : Option Tree :=
  match part with
  | list items => items[position]?
  | part => part.entries.lookup name

/-- The typed field of a section, the default if it is missing, and none if it has a wrong value. -/
def typed {α : Type} (part : Tree) (position : Nat) (name : String) (default : α)
    (read? : Tree → Option α) : Option α :=
  match part.field? position name with
  | some value => read? value
  | none => some default

def isSection : Tree → Bool
  | list _ | table _ => true
  | _ => false

def listen? (t : Tree) : Option ListenSettings := do
  let d := ListenSettings.default
  if !t.isSection then none
  return {
    database := ← t.typed 0 "database" d.database string?
    requestBufferSize := ← t.typed 1 "request_buffer_size" d.requestBufferSize uint64?
    maxFilterMismatches := ← t.typed 2 "max_filter_mismatches" d.maxFilterMismatches uint32? }

def backoff? (t : Tree) : Option BackoffPolicy := do
  let d := BackoffPolicy.default
  if !t.isSection then none
  return {
    baseDelayMs := ← t.typed 0 "base_delay_ms" d.baseDelayMs uint64?
    maxDelayMs := ← t.typed 1 "max_delay_ms" d.maxDelayMs uint64?
    multiplier := ← t.typed 2 "multiplier" d.multiplier float?
    jitter := ← t.typed 3 "jitter" d.jitter float? }

def network? (t : Tree) : Option NetworkSettings := do
  let d := NetworkSettings.default
  if !t.isSection then none
  return {
    endpoint := ← t.typed 0 "endpoint" d.endpoint string?
    connectTimeoutMs := ← t.typed 1 "connect_timeout_in_ms" d.connectTimeoutMs uint64?
    tcpKeepaliveSecs := ← t.typed 2 "tcp_keepalive_in_secs" d.tcpKeepaliveSecs uint64?
    http2KeepAliveIntervalSecs :=
      ← t.typed 3 "http2_keep_alive_interval_in_secs" d.http2KeepAliveIntervalSecs uint64?
    http2KeepAliveTimeoutSecs :=
      ← t.typed 4 "http2_keep_alive_timeout_in_secs" d.http2KeepAliveTimeoutSecs uint64?
    enableCompression := ← t.typed 5 "enable_compression" d.enableCompression bool?
    authToken := ← t.typed 6 "auth_token" d.authToken optionalString? }

/-- The settings in a tree. Unknown keys do not matter. -/
def settings? (t : Tree) : Option Settings := do
  return {
    listen := ← t.typed 0 "listen" .default listen?
    backoff := ← t.typed 1 "backoff" .default backoff?
    network := ← t.typed 2 "network" .default network? }

end Tree

end LiveQuery.Settings
