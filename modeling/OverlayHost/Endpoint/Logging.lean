import OverlayHost.Http.Message
import OverlayHost.Json.Decode

/-!
# The logging endpoint

Under `/iptables-logging` the flag that turns logging on is read by GET and set by PUT. A PUT that is not answered with
success leaves the flag as it is.
-/

set_option autoImplicit false

namespace OverlayHost.Endpoint.Logging

/-- The path of the endpoint. -/
def path : String := "/iptables-logging"

/-- The methods that the path takes. -/
def methods : String := "GET,HEAD,PUT"

/-- What a PUT asks for; it may leave the flag out. -/
def decoder : Json.Decoder (Option Bool) :=
  Json.Decoder.record
    { record := "SetLogging", name := "enabled", decoder := Json.Decoder.nullable Json.Decoder.boolean
      inObject := some none, inList := none }

/-- The response that shows the flag. -/
def shown (enabled : Bool) : Http.Response := .json 200 (.object [("enabled", .boolean enabled)])

/-- The response to a body that does not set the flag. -/
def refused (message : String) : Http.Response := .json 400 (.object [("error", .text message)])

/-- Sets the flag as a body asks for. -/
def set (body : List UInt8) (enabled : Bool) : Http.Response × Bool :=
  match Json.Decoder.run decoder body with
  | .error error => (refused s!"decoding request body: {error.message}", enabled)
  | .ok none => (refused "missing required key 'enabled'", enabled)
  | .ok (some value) => (shown value, value)

/-- Answers a request; the flag may be another one afterwards. -/
def respond (request : Http.Request) (enabled : Bool) : Http.Response × Bool :=
  if request.uri.path ≠ path then (.notFound, enabled)
  else if Http.isRead request.method then ((shown enabled).toMethod request.method, enabled)
  else if request.method = "PUT" then set request.body enabled
  else (.notAllowed methods, enabled)

end OverlayHost.Endpoint.Logging
