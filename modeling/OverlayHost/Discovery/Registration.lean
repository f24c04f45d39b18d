import OverlayHost.Json.Decode
import OverlayHost.Net.Ipv4

/-!
# Registrations

What service discovery answers about an application: the hosts it runs on, each with the text of its address. A host whose
text is no address is passed over, and an address is kept once.
-/

set_option autoImplicit false

namespace OverlayHost.Discovery

/-- The addresses of the registered hosts, as text. -/
abbrev Registration := List String

namespace Registration

/-- One host, which has to have an address. -/
def host : Json.Decoder String :=
  Json.Decoder.record
    { record := "RegisteredHost", name := "ip_address", decoder := Json.Decoder.text, inObject := none, inList := none }

/-- A registration; without hosts it is empty. -/
def decoder : Json.Decoder Registration :=
  Json.Decoder.record
    { record := "Registration", name := "Hosts", decoder := Json.Decoder.list host, inObject := some [], inList := some [] }

/-- The registration in a body. -/
def ofBytes (body : List UInt8) : Except Json.Error Registration := Json.Decoder.run decoder body

/-- Keeps the first of equal addresses. -/
def distinct : List Net.Ipv4 → List Net.Ipv4
  | [] => []
  | address :: rest => address :: (distinct rest).filter (· ≠ address)

/-- The addresses of the hosts, each once, in the order of their first host. -/
def addresses (registration : Registration) : List Net.Ipv4 := distinct (registration.filterMap Net.Ipv4.ofString?)

end Registration

end OverlayHost.Discovery
