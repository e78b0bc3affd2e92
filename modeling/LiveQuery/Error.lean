import LiveQuery.Code

namespace LiveQuery

/-- A failure of a listen stream: a chain of errors, the outermost first. -/
inductive StreamError where
  | status (code : Code) (message : String)
  | plain (text : String)
  | wrapper (text : String) (source : StreamError)

namespace StreamError

/-- The text of the outermost error that is no status. -/
def text : StreamError → String
  | status _ message => message
  | plain text => text
  | wrapper text _ => text

/-- The first status in the chain. -/
def status? : StreamError → Option (Code × String)
  | status code message => some (code, message)
  | plain _ => none
  | wrapper _ source => source.status?

/-- Whether the failure ends the watch. One without a status does. -/
def isPermanent (e : StreamError) : Bool :=
  match e.status? with
  | some (code, _) => !code.isTransient
  | none => true

/-- Whether the backend asks for a longer delay. -/
def isResourceExhausted (e : StreamError) : Bool :=
  match e.status? with
  | some (code, _) => code == .resourceExhausted
  | none => false

end StreamError

/-- What ends a watch. -/
inductive WatchError where
  /-- The backend sent a message that the listen protocol does not allow. -/
  | invalidArgument (text : String)
  /-- The backend removed the target. -/
  | serverRejection (code : Code) (message : String)
  /-- The stream failed for good. -/
  | stream (code : Code) (message : String)
  /-- Existence filters kept disagreeing with the result set. -/
  | filterMismatch (attempts : UInt32)
  deriving DecidableEq

namespace WatchError

def code : WatchError → Code
  | invalidArgument _ => .invalidArgument
  | serverRejection code _ => code
  | stream code _ => code
  | filterMismatch _ => .dataLoss

def message : WatchError → String
  | invalidArgument text => "Invalid argument: " ++ text
  | serverRejection code message => message ++ " (" ++ code.name ++ ")"
  | stream code message => "Listen stream failed with " ++ code.name ++ ": " ++ message
  | filterMismatch attempts =>
    "Existence filter mismatched " ++ toString attempts.toNat ++ " times without a match in between"

/-- The end of a watch whose stream failed for good. -/
def ofStreamError (e : StreamError) : WatchError :=
  match e.status? with
  | some (code, message) => stream code message
  | none => stream .unknown e.text

end WatchError

/-- A key under which a call carries its routing data or credentials. -/
inductive MetadataKey where
  | resourcePrefix
  | requestParams
  | authorization
  deriving DecidableEq

def MetadataKey.name : MetadataKey → String
  | resourcePrefix => "google-cloud-resource-prefix"
  | requestParams => "x-goog-request-params"
  | authorization => "authorization"

/-- What callers of the library are told. -/
inductive Error where
  | invalidUri (uri : String)
  | invalidMetadata (key : MetadataKey)
  /-- No secure connection can be set up to this host. -/
  | transport
  | config (complaint : String)
  | watch (error : WatchError)
  | alreadyStarted
  | fatal (text : String)
  deriving DecidableEq

namespace Error

def message : Error → String
  | invalidUri uri => "Network error: Invalid URI format: " ++ uri
  | invalidMetadata key => "Network error: Invalid metadata value for " ++ key.name
  | transport => "Network error: transport error"
  | config complaint => complaint
  | watch error => error.message
  | alreadyStarted => "Can't restart an already active watch"
  | fatal text => "Fatal error: " ++ text

end Error

end LiveQuery
