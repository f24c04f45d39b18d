import OverlayHost.Proofs.Endpoint.Dns
import OverlayHost.Proofs.Text.Digits

/-!
# The types that are answered with addresses

The type of a query is compared as a text, and repeated in the response as the number that the text writes. There are other
texts that write the number 1, and a query with one of them looks in its response like one for addresses, but nobody is
asked for them: `isFaithful_iff` says that this shows unless the resolver has no addresses for the name.
-/

set_option autoImplicit false

namespace OverlayHost

/-- The text writes the number, with any zeros and perhaps a plus sign in front. -/
def Text.Writes (text : String) (n : Nat) : Prop :=
  ∃ sign zeros : String, (sign = "" ∨ sign = "+") ∧ (∀ c ∈ zeros.toList, c = '0') ∧
    text = sign ++ zeros ++ toString n

namespace Endpoint.Dns

variable {σ : Type} {resolver : Resolver} {backends : Backends σ} {query : Query} {state : σ}

/-! ## Numbers of types -/

/-- What follows a plus sign, if there is one. -/
def afterPlus : List Char → List Char
  | '+' :: rest => rest
  | cs => cs

/-- The number that digits without a sign write. -/
def unsigned (digits : List Char) : Nat :=
  match Text.valueIn? 10 digits with
  | some n => if n < 65536 then n else 0
  | none => 0

theorem kindNumber_eq (text : String) : kindNumber text = unsigned (afterPlus text.toList) := by
  have hnumber : kindNumber text = ((match Text.valueIn? 10 (afterPlus text.toList) with
      | some n => if n < 65536 then some (UInt16.ofNat n) else none
      | none => none).map UInt16.toNat).getD 0 := rfl
  rw [hnumber, unsigned]
  cases Text.valueIn? 10 (afterPlus text.toList) with
  | none => rfl
  | some n =>
    by_cases hsmall : n < 65536 <;> simp [hsmall]

theorem isDigit_of_mem {zeros : List Char} (hzeros : ∀ c ∈ zeros, c = '0') (n : Nat) :
    ∀ c ∈ zeros ++ Nat.toDigits 10 n, c.isDigit = true := by
  intro c hc
  rcases List.mem_append.mp hc with hzero | hdigit
  · rw [hzeros c hzero]
    rfl
  · exact Nat.isDigit_of_mem_toDigits (by decide) (by decide) hdigit

theorem unsigned_eq_iff {digits : List Char} {n : Nat} (hn : n ≠ 0) (hsmall : n < 65536) :
    unsigned digits = n ↔ ∃ zeros, (∀ c ∈ zeros, c = '0') ∧ digits = zeros ++ Nat.toDigits 10 n := by
  unfold unsigned
  rw [Text.valueIn?_ten]
  by_cases hall : (!digits.isEmpty && digits.all Char.isDigit) = true
  · have hdigits : ∀ c ∈ digits, c.isDigit = true := by
      rw [Bool.and_eq_true] at hall
      exact List.all_eq_true.mp hall.2
    rw [if_pos hall, ← Text.decimalValue_eq_iff hdigits hn]
    dsimp only
    split_ifs <;> omega
  · rw [if_neg hall]
    refine iff_of_false hn.symm ?_
    rintro ⟨zeros, hzeros, rfl⟩
    rw [List.all_eq_true.mpr (isDigit_of_mem hzeros n)] at hall
    simp [Nat.toDigits_ne_nil] at hall

theorem afterPlus_of_digits {digits : List Char} (hdigits : ∀ c ∈ digits, c.isDigit = true) : afterPlus digits = digits := by
  unfold afterPlus
  split
  next rest => exact absurd (hdigits '+' List.mem_cons_self) (by decide)
  next => rfl

/-- The number of a type is the one that its text writes. -/
theorem kindNumber_eq_iff {text : String} {n : Nat} (hn : n ≠ 0) (hsmall : n < 65536) :
    kindNumber text = n ↔ Text.Writes text n := by
  rw [kindNumber_eq, unsigned_eq_iff hn hsmall]
  constructor
  · rintro ⟨zeros, hzeros, hdigits⟩
    have hzeros' : ∀ c ∈ (String.ofList zeros).toList, c = '0' := by simpa using hzeros
    unfold afterPlus at hdigits
    split at hdigits
    next rest hplus =>
      refine ⟨"+", String.ofList zeros, .inr rfl, hzeros', String.toList_inj.mp ?_⟩
      simp [hplus, hdigits]
    next =>
      refine ⟨"", String.ofList zeros, .inl rfl, hzeros', String.toList_inj.mp ?_⟩
      simp [hdigits]
  · rintro ⟨sign, zeros, hsign, hzeros, rfl⟩
    refine ⟨zeros.toList, hzeros, ?_⟩
    rcases hsign with rfl | rfl
    · simp [afterPlus_of_digits (isDigit_of_mem hzeros n)]
    · simp [afterPlus]

/-! ## Faithful responses -/

/-- The response repeats a question of this type. -/
def IsTyped (response : Http.Response) (kind : Nat) : Prop :=
  ∃ name : String, response.Shows "Question" (.list [.object [("name", .text name), ("type", .number kind)]])

/-- The records of the response are the addresses that the name resolves to. -/
def HoldsResolved (resolver : Resolver) (backends : Backends σ) (name : String) (state : σ) (response : Http.Response) :
    Prop :=
  ∃ answer, (resolver.resolve backends name state).1 = .ok answer ∧
    response.Shows "Answer" (records name answer.addresses)

/-- A success with a question for addresses holds what the resolver answers. -/
def IsFaithful (resolver : Resolver) (backends : Backends σ) (get : Get) (state : σ) : Prop :=
  let response := (respond resolver backends get.request state).1
  response.status = 200 → IsTyped response 1 → HoldsResolved resolver backends get.query.name state response

/-- The name resolves, and to no address. -/
def ResolvesToNone (resolver : Resolver) (backends : Backends σ) (name : String) (state : σ) : Prop :=
  ∃ answer, (resolver.resolve backends name state).1 = .ok answer ∧ answer.addresses = []

theorem isTyped_iff (reply : Reply) (status kind : Nat) :
    IsTyped (.json status reply.document) kind ↔ reply.kind = kind := by
  constructor
  · rintro ⟨name, hshows⟩
    have hsame := hshows.unique (shows_question reply status)
    simp [Reply.question] at hsame
    exact hsame.2.symm
  · rintro rfl
    exact ⟨reply.name, shows_question reply status⟩

theorem record_injective (name : String) : Function.Injective (record name) := by
  intro address other h
  simpa [record] using h

theorem records_inj {name : String} {addresses others : List String} :
    records name addresses = records name others ↔ addresses = others := by
  refine ⟨fun h => ?_, congrArg _⟩
  rw [records, records, Json.Document.list.injEq] at h
  exact (record_injective name).list_map h

theorem holdsResolved_iff {name : String} {status kind : Nat} :
    HoldsResolved resolver backends name state (.json status (Reply.document ⟨0, name, kind, []⟩)) ↔
      ResolvesToNone resolver backends name state := by
  constructor
  · rintro ⟨answer, hanswer, hshows⟩
    exact ⟨answer, hanswer, records_inj.mp (hshows.unique (shows_answer _ _))⟩
  · rintro ⟨answer, hanswer, hnone⟩
    refine ⟨answer, hanswer, ?_⟩
    rw [hnone]
    exact shows_answer ⟨0, name, kind, []⟩ status

theorem response_get (resolver : Resolver) (backends : Backends σ) (get : Get) (state : σ) :
    (respond resolver backends get.request state).1 = (answer resolver backends get.query state).1.response := by
  rw [respond_get]

theorem response_replied (reply : Reply) : (Outcome.replied reply false).response = .json 200 reply.document := rfl

theorem response_of_other (h : ¬query.AsksAddress) :
    (answer resolver backends query state).1.response =
      .json 200 (Reply.document ⟨0, query.name, kindNumber query.kindText, []⟩) := by
  rw [answer_of_other h, response_replied]

theorem ne_empty_of_resolves {name : String} {answer : Answer}
    (h : (resolver.resolve backends name state).1 = .ok answer) : name ≠ "" := by
  rintro rfl
  rw [Resolver.resolve_of_empty (Hostname.canonical_of_isAllBlank rfl)] at h
  cases h

theorem holdsResolved_of_success (haddress : query.AsksAddress)
    (hstatus : (answer resolver backends query state).1.response.status = 200) :
    HoldsResolved resolver backends query.name state (answer resolver backends query state).1.response := by
  have hdue := isDue_answer resolver backends query state
  have hsuccess := hdue.success (by rw [hstatus]; decide) (by rw [hstatus]; decide)
  exact hsuccess.2.2.1 haddress

/-- A success is faithful, unless it is one for a type that writes 1 in another way and the resolver has an address or an
error for the name. -/
theorem isFaithful_iff (resolver : Resolver) (backends : Backends σ) (get : Get) (state : σ) :
    IsFaithful resolver backends get state ↔
      get.query.AsksAddress ∨ ¬Text.Writes get.query.kindText 1 ∨
        ResolvesToNone resolver backends get.query.name state := by
  unfold IsFaithful
  rw [response_get, ← kindNumber_eq_iff Nat.one_ne_zero (by decide)]
  by_cases haddress : get.query.AsksAddress
  · exact iff_of_true (fun hstatus _ => holdsResolved_of_success haddress hstatus) (.inl haddress)
  have hstatus (document : Json.Document) : (Http.Response.json 200 document).status = 200 := rfl
  rw [response_of_other haddress, or_iff_right haddress, ← imp_iff_not_or]
  simp only [hstatus, isTyped_iff, holdsResolved_iff, forall_const]

theorem kindNumber_of_asksAddress (h : query.AsksAddress) : kindNumber query.kindText = 1 := by
  rw [kindText_eq_one_iff.mpr h]
  decide

/-- The response to a query for addresses is an empty success just if the name resolves to no address. -/
theorem response_eq_empty_iff (haddress : query.AsksAddress) :
    (answer resolver backends query state).1.response = .json 200 (Reply.document ⟨0, query.name, 1, []⟩) ↔
      ResolvesToNone resolver backends query.name state := by
  constructor
  · intro hempty
    have hstatus : (answer resolver backends query state).1.response.status = 200 := by
      rw [hempty]
      rfl
    have hholds := holdsResolved_of_success haddress hstatus
    rw [hempty] at hholds
    exact holdsResolved_iff.mp hholds
  · rintro ⟨answer, hanswer, hnone⟩
    have hname := ne_empty_of_resolves hanswer
    rcases hresolve : resolver.resolve backends query.name state with ⟨result, after⟩
    rw [hresolve] at hanswer
    subst hanswer
    rw [answer_of_ok haddress hname hresolve, hnone, response_replied, addressType]

/-- Two queries for a name whose types write the same number are answered alike just if both ask for addresses or neither
does, or if the name resolves to no address. -/
theorem alike_iff (resolver : Resolver) (backends : Backends σ) (get other : Get) (state : σ)
    (hname : get.query.name = other.query.name) (hkind : kindNumber get.query.kindText = kindNumber other.query.kindText) :
    (respond resolver backends get.request state).1 = (respond resolver backends other.request state).1 ↔
      (get.query.AsksAddress ↔ other.query.AsksAddress) ∨ ResolvesToNone resolver backends get.query.name state := by
  rw [response_get, response_get]
  by_cases hget : get.query.AsksAddress <;> by_cases hother : other.query.AsksAddress
  · refine iff_of_true ?_ (.inl (iff_of_true hget hother))
    unfold answer
    rw [kindText_eq_one_iff.mpr hget, kindText_eq_one_iff.mpr hother, hname]
  · -- the response to the other query is an empty success for an address
    rw [kindNumber_of_asksAddress hget] at hkind
    rw [response_of_other hother, ← hname, ← hkind, response_eq_empty_iff hget]
    exact (or_iff_right fun hsame => hother (hsame.mp hget)).symm
  · rw [kindNumber_of_asksAddress hother] at hkind
    rw [response_of_other hget, hname, hkind, eq_comm, response_eq_empty_iff hother]
    exact (or_iff_right fun hsame => hget (hsame.mpr hother)).symm
  · refine iff_of_true ?_ (.inl (iff_of_false hget hother))
    rw [response_of_other hget, response_of_other hother, hname, hkind]

/-- Which successes for addresses hold what the resolver answers, and which queries are answered alike. -/
theorem faithful_and_alike_iff (resolver : Resolver) (backends : Backends σ) (get : Get) (state : σ) :
    (IsFaithful resolver backends get state ↔
      get.query.AsksAddress ∨ ¬Text.Writes get.query.kindText 1 ∨
        ResolvesToNone resolver backends get.query.name state) ∧
    ∀ other : Get, get.query.name = other.query.name →
      kindNumber get.query.kindText = kindNumber other.query.kindText →
      ((respond resolver backends get.request state).1 = (respond resolver backends other.request state).1 ↔
        (get.query.AsksAddress ↔ other.query.AsksAddress) ∨
          ResolvesToNone resolver backends get.query.name state) :=
  ⟨isFaithful_iff resolver backends get state, fun other => alike_iff resolver backends get other state⟩

/-! ## A type with a zero in front -/

/-- A query for an address with a zero in front of the type. -/
def zeroGet : Get where
  request := { method := "GET", uri := ⟨none, none, "/", some "name=app.sd-local.&type=01"⟩ }
  query := { name := "app.sd-local.", kind := some "01" }
  method := rfl
  path := rfl
  decoded := by cbv

/-- Service discovery that has one address for every name. -/
def oneAddress : Backends Unit where
  serviceDiscovery _ state := (.ok [⟨0x0a000001⟩], state)
  controlPlane := none

theorem resolve_oneAddress :
    (exampleResolver.resolve oneAddress "app.sd-local." ()).1 = .ok (.backends [⟨0x0a000001⟩]) := by
  rw [resolve_example]
  rfl

theorem not_resolvesToNone_oneAddress : ¬ResolvesToNone exampleResolver oneAddress "app.sd-local." () := by
  rintro ⟨answer, hanswer, hnone⟩
  rw [resolve_oneAddress] at hanswer
  cases hanswer
  simp [Answer.addresses] at hnone

theorem writes_zero_one : Text.Writes "01" 1 := ⟨"", "0", .inl rfl, by simp, rfl⟩

/-- The two queries write one number and are answered differently. -/
theorem faithful_and_alike_iff_zero_one :
    IsFaithful exampleResolver oneAddress plainGet () ∧
      plainGet.query.name = zeroGet.query.name ∧
      kindNumber plainGet.query.kindText = kindNumber zeroGet.query.kindText ∧
      (respond exampleResolver oneAddress plainGet.request ()).1 ≠
        (respond exampleResolver oneAddress zeroGet.request ()).1 := by
  have hkind : kindNumber plainGet.query.kindText = kindNumber zeroGet.query.kindText := by decide
  obtain ⟨hfaithful, halike⟩ := faithful_and_alike_iff exampleResolver oneAddress plainGet ()
  refine ⟨hfaithful.mpr (.inl (by decide)), rfl, hkind, fun hsame => ?_⟩
  rcases (halike zeroGet rfl hkind).mp hsame with hasks | hnone
  · exact absurd hasks (by decide)
  · exact not_resolvesToNone_oneAddress hnone

/-- The response to a type with a zero in front is an empty success for an address, which nobody was asked for. -/
theorem unfaithful_zero_one :
    (respond exampleResolver oneAddress zeroGet.request ()).1 =
        .json 200 (Reply.document ⟨0, "app.sd-local.", 1, []⟩) ∧
      (exampleResolver.resolve oneAddress "app.sd-local." ()).1 = .ok (.backends [⟨0x0a000001⟩]) ∧
      ¬IsFaithful exampleResolver oneAddress zeroGet () := by
  refine ⟨?_, resolve_oneAddress, ?_⟩
  · rw [response_get, response_of_other (by decide)]
    cbv
  · rw [isFaithful_iff]
    rintro (hasks | hwrites | hnone)
    · exact absurd hasks (by decide)
    · exact hwrites writes_zero_one
    · exact not_resolvesToNone_oneAddress hnone

end Endpoint.Dns

end OverlayHost
