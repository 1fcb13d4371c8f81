import CacheDepot.Http.MediaType
import CacheDepot.Http.Message
import CacheDepot.Json.Reader

/-!
# JSON bodies of requests

A body is read only if the request says that it is JSON and if it is not too long. Of its text
the first value counts, whatever follows it.
-/

namespace CacheDepot.Api

open Json (Draft Fault)

/-- The largest body of a request in bytes: two mebibytes. -/
def maxRequestBytes : Nat := 2 * 1024 * 1024

/-- Why the body of a request is refused. -/
inductive PayloadFault where
  | notJson
  | tooLarge
  | unreadable (fault : Fault)
  deriving DecidableEq, Repr

namespace PayloadFault

/-- The status of the answer to a refused body. -/
def status : PayloadFault → Nat
  | .notJson => 415
  | .tooLarge => 413
  | .unreadable .mismatched => 422
  | .unreadable _ => 400

/-- What is said about a refused body. -/
def text : PayloadFault → String
  | .notJson => "The body must be announced as JSON"
  | .tooLarge => "The body is too large"
  | .unreadable .ended => "The body ends too early"
  | .unreadable .malformed => "The body is not JSON"
  | .unreadable .mismatched => "The body does not have the right shape"

/-- The answer to a refused body. -/
def response (f : PayloadFault) : Http.Response := .plain f.status f.text

end PayloadFault

/-- Whether a request says that its body is JSON. -/
def announcesJson (r : Http.Request) : Bool :=
  (r.headers.text? "content-type").any Http.MediaType.isJson

/-- Reads the body of a request. -/
def readPayload {α : Type} (read : Draft → Except Fault α) (r : Http.Request) :
    Except PayloadFault α :=
  if !announcesJson r then .error .notJson
  else if maxRequestBytes < r.body.utf8ByteSize then .error .tooLarge
  else (Draft.leading read r.body).mapError .unreadable

end CacheDepot.Api
