import CacheDepot.Error
import CacheDepot.Http.Headers
import CacheDepot.Http.Target
import CacheDepot.Json.Basic

/-!
# Requests and responses

A request carries its body as text. The body of a response is bytes together with what it
announces about its size; a body can also break off with a failure after its bytes.
-/

namespace CacheDepot.Http

/-- A request. -/
structure Request where
  method : String := "GET"
  target : Target
  headers : Headers := []
  body : String := ""

/-- The body of a response. -/
structure Body where
  data : ByteArray
  /-- The largest size that the body announces, if it announces one. -/
  bound : Option Nat
  /-- Why reading fails after the bytes. -/
  failure : Option String := none

namespace Body

/-- A body of which the size is known. -/
def ofBytes (data : ByteArray) : Body := { data, bound := some data.size }

/-- A text as a body. -/
def ofText (text : String) : Body := ofBytes text.toUTF8

/-- No body. -/
def empty : Body := ofText ""

/-- What a reader of at most `limit` bytes reports about a longer body. -/
def tooLong : String := "length limit exceeded"

/-- Reads a whole body of at most `limit` bytes. -/
def read (body : Body) (limit : Nat) : Except String ByteArray :=
  if limit < body.data.size then .error tooLong
  else match body.failure with
    | some reason => .error reason
    | none => .ok body.data

end Body

/-- A response. -/
structure Response where
  status : Nat := 200
  headers : Headers := []
  body : Body := .empty

namespace Response

/-- The statuses that a response can have; any other stands for 200. -/
def statusOf (status : Nat) : Nat := if 100 ≤ status ∧ status ≤ 999 then status else 200

/-- Whether the status is one of success. -/
def isSuccess (r : Response) : Bool := 200 ≤ r.status && r.status ≤ 299

/-- The content type of texts. -/
def textType : String := "text/plain; charset=utf-8"

/-- An answer in plain text. -/
def plain (status : Nat) (text : String) : Response where
  status
  headers := [("content-type", textType)]
  body := .ofText text

/-- An answer in JSON. -/
def json (status : Nat) (value : Json) : Response where
  status
  headers := [("content-type", "application/json")]
  body := .ofText value.text

/-- The answer to a request that met an error. -/
def ofError (e : CacheError) : Response :=
  json e.status (.object [("error", .string e.text)])

end Response
end CacheDepot.Http
