import LiveQuery.Settings
import LiveQuery.Error
import LiveQuery.Text.Blank
import LiveQuery.Text.Pieces
import LiveQuery.Text.Quoted
import LiveQuery.Binary64.Decimal

namespace LiveQuery

/-- Whether a text is `projects/P/databases/D` for non-empty `P` and `D` without slash. -/
def isDatabaseName (s : String) : Bool :=
  match Text.splitAt '/' s.toList with
  | [projects, project, databases, database] =>
    projects = "projects".toList && databases = "databases".toList && !project.isEmpty && !database.isEmpty
  | _ => false

/-- What is wrong with the listen settings, if anything. -/
def ListenSettings.complaint? (s : ListenSettings) : Option String :=
  if !isDatabaseName s.database then
    some ("database " ++ Text.quoted s.database ++
      " must look like projects/\x7bproject\x7d/databases/\x7bdatabase\x7d")
  else if s.requestBufferSize = 0 then some "request_buffer_size must be > 0"
  else none

/-- What is wrong with a backoff policy, if anything. -/
def BackoffPolicy.complaint? (p : BackoffPolicy) : Option String :=
  if p.baseDelayMs = 0 then some "backoff base_delay_ms must be > 0"
  else if p.maxDelayMs < p.baseDelayMs then
    some ("backoff base_delay_ms " ++ toString p.baseDelayMs.toNat ++ " exceeds max_delay_ms " ++
      toString p.maxDelayMs.toNat)
  else if !p.multiplier.isFinite || p.multiplier.lt (.ofNat 1) then
    some ("backoff multiplier " ++ p.multiplier.text ++ " must be >= 1.0")
  else if !((Binary64.ofNat 0).le p.jitter && p.jitter.le (.ofNat 1)) then
    some ("backoff jitter " ++ p.jitter.text ++ " must be within [0.0, 1.0]")
  else none

namespace NetworkSettings

/-- What is wrong with the network settings, if anything. -/
def complaint? (s : NetworkSettings) : Option String :=
  if !("http://".toList.isPrefixOf s.endpoint.toList || "https://".toList.isPrefixOf s.endpoint.toList) then
    some ("endpoint " ++ Text.quoted s.endpoint ++ " must start with http:// or https://")
  else if s.connectTimeoutMs = 0 then some "connection timeout must be > 0"
  else if s.http2KeepAliveIntervalSecs ≤ s.http2KeepAliveTimeoutSecs then
    some ("keepalive timeout " ++ toString s.http2KeepAliveTimeoutSecs.toNat ++ "s must be < interval " ++
      toString s.http2KeepAliveIntervalSecs.toNat ++ "s")
  else
    match s.authToken with
    | some token => if token.toList.all Text.isBlank then some "auth_token must not be blank" else none
    | none => none

/-- The settings for a log. The token stays secret. -/
def debugText (s : NetworkSettings) : String :=
  "ConnectionParams \x7b endpoint: " ++ Text.quoted s.endpoint ++
    ", connect_timeout_in_ms: " ++ toString s.connectTimeoutMs.toNat ++
    ", tcp_keepalive_in_secs: " ++ toString s.tcpKeepaliveSecs.toNat ++
    ", http2_keep_alive_interval_in_secs: " ++ toString s.http2KeepAliveIntervalSecs.toNat ++
    ", http2_keep_alive_timeout_in_secs: " ++ toString s.http2KeepAliveTimeoutSecs.toNat ++
    ", enable_compression: " ++ toString s.enableCompression ++
    ", auth_token: " ++ (if s.authToken.isSome then "Some(\"<redacted>\")" else "None") ++ " \x7d"

end NetworkSettings

namespace Settings

/-- The first complaint of a section. -/
def complaint? (s : Settings) : Option String :=
  s.listen.complaint? <|> s.backoff.complaint? <|> s.network.complaint?

def validate (s : Settings) : Except Error Settings :=
  match s.complaint? with
  | some complaint => .error (.config complaint)
  | none => .ok s

end Settings

end LiveQuery
