import OverlayHost.Discovery.Registration
import OverlayHost.Http.Status
import OverlayHost.Net.Uri
import OverlayHost.Shutdown
import OverlayHost.Tls.Material

/-!
# Looking up an application

A lookup asks service discovery for the registration of an application. A response that is not a success is followed by
another attempt after a pause, up to four attempts in all; any other failure ends the lookup. The shutdown signal ends it
too, wherever it waits.

What a lookup meets with is its `Conditions`: the fate of each request, the random part of each pause, the moment from which
the shutdown signal is set, and which comes first if that moment is also another event's. `Client.lookup` answers what comes
of the lookup and when its attempts began and ended.
-/

set_option autoImplicit false

namespace OverlayHost.Discovery

/-- Why a lookup has no addresses. -/
inductive Error where
  | invalidUrl (url reason : String)
  | tls (cause : Tls.Error)
  | transport (message : String)
  | timeout (limit : Duration)
  | status (code : Nat)
  | decode (cause : Json.Error)
  | cancelled
deriving DecidableEq, Repr

/-- The error in one line. -/
def Error.message : Error → String
  | .invalidUrl url reason => s!"invalid service discovery url {url}: {reason}"
  | .tls cause => cause.message
  | .transport message => s!"http client do: {message}"
  | .timeout limit => s!"http client do: request timed out after {limit.render}"
  | .status code => s!"received non-successful response from server: {Http.statusLine code}"
  | .decode cause => s!"unmarshal json: {cause.message}"
  | .cancelled => "lookup cancelled"

/-- How many attempts a lookup makes at most. -/
def maxAttempts : Nat := 4

/-- How long an attempt may take. -/
def requestTimeout : Duration := .ofMillis 10000

/-- What may come back from a request. -/
inductive Reply where
  | response (status : Nat) (body : List UInt8)
  | failed (message : String)

/-- A way to put a list of addresses into another order. -/
structure Shuffle where
  order : List Net.Ipv4 → List Net.Ipv4
  perm : ∀ addresses, (order addresses).Perm addresses

/-- The ascending order. -/
def Shuffle.ascending : Shuffle where
  order addresses := addresses.mergeSort fun a b => a.word.toNat ≤ b.word.toNat
  perm addresses := List.mergeSort_perm addresses _

/-- What a lookup meets with. -/
structure Conditions where
  /-- What comes back from each request, and after how long; nothing may come back at all. -/
  fate : Nat → Option (Duration × Reply)
  /-- The random part of the pause after each attempt. -/
  jitter : Nat → Duration
  shuffle : Shuffle
  /-- The moment from which the shutdown signal is set, if there is one. -/
  shutdown : Shutdown.Moment
  /-- Whether the signal comes first if it is set at the moment at which a wait would end, for each wait. -/
  shutdownFirst : Nat → Bool

/-- Whether the shutdown signal comes before the end of a wait. -/
def Conditions.interrupts (conditions : Conditions) (wait : Nat) (ending : Duration) : Bool :=
  conditions.shutdown.precedes ending (conditions.shutdownFirst wait)

/-- When an attempt began and ended. -/
structure Attempt where
  start : Duration
  ending : Duration
deriving DecidableEq, Repr

/-- What came of a lookup. -/
structure Outcome where
  result : Except Error (List Net.Ipv4)
  attempts : List Attempt
  ending : Duration

/-- An outcome with one more attempt in front. -/
def Outcome.after (attempt : Attempt) (outcome : Outcome) : Outcome :=
  { outcome with attempts := attempt :: outcome.attempts }

/-- An outcome that is reached without an attempt. -/
def Outcome.at (ending : Duration) (result : Except Error (List Net.Ipv4)) : Outcome := ⟨result, [], ending⟩

/-- When an attempt ends by itself, and with what, if anything comes back in time. -/
def concluded (fate : Option (Duration × Reply)) (start : Duration) : Duration × Option Reply :=
  match fate with
  | some (delay, reply) => if delay ≤ requestTimeout then (start + delay, some reply) else (start + requestTimeout, none)
  | none => (start + requestTimeout, none)

/-- The fixed part of the pause after an attempt. -/
def basePause (attempt : Nat) : Duration := .ofMillis (500 * attempt)

/-- The addresses in the body of a success. -/
def decode (shuffle : Shuffle) (body : List UInt8) : Except Error (List Net.Ipv4) :=
  match Registration.ofBytes body with
  | .ok registration => .ok (shuffle.order registration.addresses)
  | .error cause => .error (.decode cause)

/-- Makes an attempt, and more if need be; `more` is how many may follow it. -/
def attempt (conditions : Conditions) (more index : Nat) (now : Duration) : Outcome :=
  if conditions.interrupts (3 * index) now then .at now (.error .cancelled)
  else
    let (ending, reply) := concluded (conditions.fate index) now
    if conditions.interrupts (3 * index + 1) ending then
      let ending := conditions.shutdown.noticed now
      (Outcome.at ending (.error .cancelled)).after ⟨now, ending⟩
    else
      let ended (result : Except Error (List Net.Ipv4)) : Outcome := (Outcome.at ending result).after ⟨now, ending⟩
      match reply with
      | none => ended (.error (.timeout requestTimeout))
      | some (.failed message) => ended (.error (.transport message))
      | some (.response status body) =>
        if status = 200 then ended (decode conditions.shuffle body)
        else match more with
          | 0 => ended (.error (.status status))
          | more + 1 =>
            let next := ending + (basePause index + conditions.jitter index)
            let outcome := if conditions.interrupts (3 * index + 2) next then
                Outcome.at (conditions.shutdown.noticed ending) (.error .cancelled)
              else attempt conditions more (index + 1) next
            outcome.after ⟨now, ending⟩
termination_by more

/-- A client of service discovery. -/
structure Client where
  /-- The URL under which registrations are found, without slashes at its end. -/
  baseUrl : String
deriving DecidableEq, Repr

namespace Client

/-- The text without the slashes at its end. -/
def trimSlashes (url : String) : String := String.ofList (url.toList.reverse.dropWhile (· = '/')).reverse

/-- Reads a URL. -/
def parseUrl (url : String) : Except Error Net.Uri :=
  (Net.Uri.ofString url).mapError fun cause => .invalidUrl url cause.message

/-- A client that sends its requests in any way; the URL has to name a host. -/
def new (url : String) : Except Error Client := do
  let baseUrl := trimSlashes url
  let uri ← parseUrl baseUrl
  if uri.authority.isSome then return { baseUrl } else throw (.invalidUrl baseUrl "missing host")

/-- A client that is known to the server by its certificate; the scheme has to be https. -/
def newTls (url : String) (material : Tls.Material) : Except Error Client := do
  let uri ← parseUrl url
  if uri.scheme ≠ some "https" then throw (.invalidUrl url "scheme must be https")
  material.check.mapError Error.tls
  new url

/-- The URI of the registration of an application. -/
def registrationUri (client : Client) (name : String) : Except Error Net.Uri :=
  parseUrl (client.baseUrl ++ "/v1/registration/" ++ name)

/-- Looks up the addresses of an application, from a moment on. -/
def lookup (client : Client) (conditions : Conditions) (name : String) (now : Duration) : Outcome :=
  match client.registrationUri name with
  | .error error => .at now (.error error)
  | .ok _ => attempt conditions (maxAttempts - 1) 0 now

end Client

end OverlayHost.Discovery
