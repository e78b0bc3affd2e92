import LiveQuery.Entries
import LiveQuery.Settings
import LiveQuery.Text.Digits

namespace LiveQuery.Settings

/-- Settings as a source gives them, before they get their types. -/
inductive Tree where
  | nil
  | bool (b : Bool)
  | int (n : Int64)
  | float (x : Binary64)
  | text (s : String)
  | list (items : List Tree)
  | table (entries : List (String × Tree))

namespace Tree

/-- The entries of a table. Anything else has none. -/
def entries : Tree → List (String × Tree)
  | table entries => entries
  | _ => []

/-- The items of a list. Anything else has none. -/
def items : Tree → List Tree
  | list items => items
  | _ => []

mutual

/-- Lays a tree over what is there. Tables are laid over key by key, in lower case, so that of keys that differ
only in case the last counts; all else replaces. -/
def mergeOver : Tree → Tree → Tree
  | table entries, below => mergeEntries entries below
  | nil, _ => nil
  | bool b, _ => bool b
  | int n, _ => int n
  | float x, _ => float x
  | text s, _ => text s
  | list items, _ => list items

def mergeEntries : List (String × Tree) → Tree → Tree
  | [], below => below
  | (key, value) :: rest, below =>
    let key := Text.lower key
    let value := value.mergeOver ((below.entries.lookup key).getD (table []))
    mergeEntries rest (table (setEntry key value below.entries))

end

def ofInt? (n : Int) : Option Tree := if Text.fitsInt64 n then some (int (.ofInt n)) else none

def ofUInt64? (n : UInt64) : Option Tree := ofInt? n.toNat

end Tree

/-- The tree with these settings, unless a number is too large for it. -/
def tree? (s : Settings) : Option Tree := do
  return .table [
    ("listen", .table [
      ("database", .text s.listen.database),
      ("request_buffer_size", ← Tree.ofUInt64? s.listen.requestBufferSize),
      ("max_filter_mismatches", ← Tree.ofUInt64? s.listen.maxFilterMismatches.toUInt64)]),
    ("backoff", .table [
      ("base_delay_ms", ← Tree.ofUInt64? s.backoff.baseDelayMs),
      ("max_delay_ms", ← Tree.ofUInt64? s.backoff.maxDelayMs),
      ("multiplier", .float s.backoff.multiplier),
      ("jitter", .float s.backoff.jitter)]),
    ("network", .table [
      ("endpoint", .text s.network.endpoint),
      ("connect_timeout_in_ms", ← Tree.ofUInt64? s.network.connectTimeoutMs),
      ("tcp_keepalive_in_secs", ← Tree.ofUInt64? s.network.tcpKeepaliveSecs),
      ("http2_keep_alive_interval_in_secs", ← Tree.ofUInt64? s.network.http2KeepAliveIntervalSecs),
      ("http2_keep_alive_timeout_in_secs", ← Tree.ofUInt64? s.network.http2KeepAliveTimeoutSecs),
      ("enable_compression", .bool s.network.enableCompression),
      ("auth_token", (s.network.authToken.map Tree.text).getD .nil)])]

end LiveQuery.Settings
