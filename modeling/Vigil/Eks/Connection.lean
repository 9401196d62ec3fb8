import Vigil.Defect
import Vigil.Value

/-!
# How the service is reached

The parameters of a connection are handed to the service as they were given. Every use of a
connection opens one client and closes it again, whether the use succeeds or not.
-/

namespace Vigil.Eks

/-- The parameters of a connection. -/
structure Connection where
  region : Value
  profile : Value
  endpoint : Value
  deriving Inhabited

namespace Connection

/-- The names of the parameters. -/
def keys : List String := ["region", "profile", "endpoint_url"]

/-- A connection whose parameters are taken from fields, with defaults for those that are missing.
-/
def ofFields (fields : Fields) : Connection :=
  { region := (Fields.get? fields "region").getD (.text "us-east-1")
    profile := (Fields.get? fields "profile").getD .null
    endpoint := (Fields.get? fields "endpoint_url").getD .null }

/-- A connection from fields that all have to be parameters. -/
def make (fields : Fields) : Except Defect Connection :=
  if (Fields.keys fields).all keys.contains then .ok (ofFields fields) else .error .wrongKind

/-- The name of the profile that a connection uses; `none` for a profile that is not known. Besides
the one that is used when none is given, no profile is known here. -/
def profileName? (c : Connection) : Option String :=
  match c.profile with
  | .null => some "default"
  | _ => none

end Connection

/-- What is asked of the service to open a client. -/
structure ClientRequest where
  service : String
  region : Value
  endpoint : Value
  deriving Inhabited

/-- What becomes of a client. -/
inductive ClientEvent where
  | opened (request : ClientRequest)
  | closed
  deriving Inhabited

namespace Connection

/-- What is asked of the service for a client of a connection. -/
def clientRequest (c : Connection) : ClientRequest := ⟨"eks", c.region, c.endpoint⟩

/-- One use of a connection: what is done with the client happens between its opening and its
closing. -/
def use (c : Connection) : List ClientEvent := [.opened c.clientRequest, .closed]

end Connection

/-- The message about a profile that is not known. -/
def unknownProfile (profile : Value) : Except Defect String := do
  return "The config profile (" ++ (← profile.shown) ++ ") could not be found"

end Vigil.Eks
