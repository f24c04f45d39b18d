import OverlayHost.Json.Document
import OverlayHost.Net.Uri

/-!
# HTTP requests and responses

As much of them as the endpoints look at and answer. Which methods a path takes is decided before its endpoint is asked: a
request with the method HEAD is answered as one with GET, but without the body.
-/

set_option autoImplicit false

namespace OverlayHost.Http

/-- A request. -/
structure Request where
  method : String
  uri : Net.Uri
  body : List UInt8 := []

/-- A response. -/
structure Response where
  status : Nat
  contentType : Option String := none
  /-- The methods that the path takes, where another one was asked for. -/
  allow : Option String := none
  body : String := ""
deriving DecidableEq, Repr

namespace Response

/-- A response without a body. -/
def empty (status : Nat) : Response := { status }

/-- A response with a JSON document. -/
def json (status : Nat) (document : Json.Document) : Response :=
  { status, contentType := some "application/json", body := document.render }

/-- A response with plain text. -/
def text (status : Nat) (body : String) : Response :=
  { status, contentType := some "text/plain; charset=utf-8", body }

/-- The path is unknown. -/
def notFound : Response := empty 404

/-- The path does not take the method. -/
def notAllowed (methods : String) : Response := { empty 405 with allow := some methods }

/-- The response to a method: HEAD leaves the body out. -/
def toMethod (method : String) (response : Response) : Response :=
  if method = "HEAD" then { response with body := "" } else response

end Response

/-- Whether a method only reads. -/
def isRead (method : String) : Bool := method = "GET" || method = "HEAD"

end OverlayHost.Http
