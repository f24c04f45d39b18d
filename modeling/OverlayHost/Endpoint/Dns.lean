import OverlayHost.Http.Form
import OverlayHost.Http.Message
import OverlayHost.Metrics.Recording
import OverlayHost.Net.HostPort
import OverlayHost.Resolver

/-!
# The DNS endpoint

Answers queries for the addresses of names, in the form of DNS over JSON. Only queries of type `1` are resolved; to one of
another type there is no record. A name that cannot be resolved is counted as a failure.
-/

set_option autoImplicit false

namespace OverlayHost.Endpoint.Dns

/-- The methods that the paths of the endpoint take. -/
def methods : String := "GET,HEAD"

/-- The counter of the queries that failed. -/
def failureMetric : String := "DNSRequestFailures"

/-- The number of the type of queries that are resolved. -/
def addressType : Nat := 1

/-- What a query asks for. -/
structure Query where
  name : String := ""
  kind : Option String := none
deriving DecidableEq, Repr

/-- The query in the fields of a URI. -/
def Query.ofUri (uri : Net.Uri) : Except Http.Form.Duplicate Query := do
  let fields ← Http.Form.pick ["name", "type"] [] (Http.Form.fields (uri.query.getD ""))
  return { name := (fields.lookup "name").getD "", kind := fields.lookup "type" }

/-- The text of the type that is asked for. -/
def Query.kindText (query : Query) : String :=
  match query.kind with
  | some text => if text = "" then "1" else text
  | none => "1"

/-- What a query is answered with. -/
structure Reply where
  /-- 0 for success, 2 for a failure. -/
  status : Nat
  name : String
  kind : Nat
  /-- The addresses of the name. -/
  addresses : List String
deriving DecidableEq, Repr

/-- The question that is repeated in a reply. -/
def Reply.question (reply : Reply) : Json.Document :=
  .object [("name", .text reply.name), ("type", .number reply.kind)]

/-- The record of one address of a name. -/
def record (name address : String) : Json.Document :=
  .object [("name", .text name), ("type", .number addressType), ("TTL", .number 0), ("data", .text address)]

/-- The reply as a document. -/
def Reply.document (reply : Reply) : Json.Document :=
  .object [("Status", .number reply.status), ("TC", .boolean false), ("RD", .boolean false), ("RA", .boolean false),
    ("AD", .boolean false), ("CD", .boolean false), ("Question", .list [reply.question]),
    ("Answer", .list (reply.addresses.map (record reply.name))), ("Additional", .list []),
    ("edns_client_subnet", .text "0.0.0.0/0")]

/-- What comes of a query. -/
inductive Outcome where
  /-- A reply; a query without a name is a bad request. -/
  | replied (reply : Reply) (badRequest : Bool)
  | failed (cause : ResolveError)

/-- The number of a type in the text of a query; a text that is no number of sixteen bits stands for 0. -/
def kindNumber (text : String) : Nat := ((Net.HostPort.number16? text.toList).map UInt16.toNat).getD 0

/-- Answers a query. -/
def answer {σ : Type} (resolver : Resolver) (backends : Backends σ) (query : Query) (state : σ) : Outcome × σ :=
  if query.kindText ≠ "1" then (.replied ⟨0, query.name, kindNumber query.kindText, []⟩ false, state)
  else if query.name = "" then (.replied ⟨2, "", addressType, []⟩ true, state)
  else
    match resolver.resolve backends query.name state with
    | (.ok answer, after) => (.replied ⟨0, query.name, addressType, answer.addresses⟩ false, after)
    | (.error cause, after) => (.failed cause, after)

/-- The response to a query. -/
def Outcome.response : Outcome → Http.Response
  | .replied reply badRequest => .json (if badRequest then 400 else 200) reply.document
  | .failed cause => .text 500 cause.message

/-- What is reported about a query. -/
def Outcome.metrics : Outcome → List Metrics.Metric
  | .replied .. => []
  | .failed _ => [.counter failureMetric]

/-- The response to a query with a field that was given more than once. -/
def ambiguous (duplicate : Http.Form.Duplicate) : Http.Response :=
  .text 400 s!"Failed to deserialize query string: duplicate field `{duplicate.name}`"

/-- Answers a request, with what is reported about it. -/
def respond {σ : Type} (resolver : Resolver) (backends : Backends σ) (request : Http.Request) (state : σ) :
    Http.Response × List Metrics.Metric × σ :=
  let path := request.uri.path
  if path ≠ "/" && path ≠ "/health" then (.notFound, [], state)
  else if !Http.isRead request.method then (.notAllowed methods, [], state)
  else if path = "/health" then (.empty 200, [], state)
  else match Query.ofUri request.uri with
    | .error duplicate => ((ambiguous duplicate).toMethod request.method, [], state)
    | .ok query =>
      let (outcome, after) := answer resolver backends query state
      (outcome.response.toMethod request.method, outcome.metrics, after)

end OverlayHost.Endpoint.Dns
