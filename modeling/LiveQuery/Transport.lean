import LiveQuery.Endpoint
import LiveQuery.Error
import LiveQuery.Settings
import LiveQuery.Text.Blank

namespace LiveQuery

/-- What every call carries: the database to route it to, and the credentials. -/
structure CallMetadata where
  resourcePrefix : String
  requestParams : String
  authorization : Option String
  deriving DecidableEq

namespace CallMetadata

def entry (key : MetadataKey) (value : String) : Except Error String :=
  if value.toList.all Text.isLineChar then .ok value else .error (.invalidMetadata key)

def of (database : String) (token : Option String) : Except Error CallMetadata := do
  return {
    resourcePrefix := ← entry .resourcePrefix database
    requestParams := ← entry .requestParams ("database=" ++ database)
    authorization := ← token.mapM fun token => entry .authorization ("Bearer " ++ token) }

end CallMetadata

/-- A connection that is set up but not yet opened. -/
structure Transport where
  endpoint : Endpoint
  metadata : CallMetadata
  compression : Bool
  deriving DecidableEq

/-- Sets up a connection without opening it. -/
def Transport.setUp (database : String) (s : NetworkSettings) : Except Error Transport := do
  match Endpoint.read? s.endpoint with
  | none => .error (.invalidUri s.endpoint)
  | some endpoint =>
    if "https://".toList.isPrefixOf s.endpoint.toList && !isServerName endpoint.host then .error .transport
    else return ⟨endpoint, ← CallMetadata.of database s.authToken, s.enableCompression⟩

end LiveQuery
