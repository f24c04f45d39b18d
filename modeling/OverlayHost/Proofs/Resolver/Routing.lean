import OverlayHost.Proofs.Hostname
import OverlayHost.Proofs.Vip
import OverlayHost.Resolver

/-!
# Who is asked for a hostname

A hostname is answered by this host, by the control plane or by service discovery. `resolve_exact` says by whom, for every
hostname and suffix, and that nobody else is asked: a name under the suffix is asked for nowhere, any other once.
-/

set_option autoImplicit false

namespace OverlayHost

/-- What a backend is asked for. -/
inductive Question where
  | serviceDiscovery (name : String)
  | controlPlane (name : String)
deriving DecidableEq, Repr

variable {σ : Type}

/-- An answer with the state after it and the questions asked so far, one more than before. -/
def noted {ε α : Type} (question : Question) (state : σ × List Question) (reply : Except ε α × σ) :
    Except ε α × σ × List Question :=
  (reply.1, reply.2, state.2 ++ [question])

/-- The backends, with a record of what they are asked. -/
def Backends.recorded (backends : Backends σ) : Backends (σ × List Question) where
  serviceDiscovery name state :=
    noted (.serviceDiscovery name) state (backends.serviceDiscovery name state.1)
  controlPlane := backends.controlPlane.map fun ask name state =>
    noted (.controlPlane name) state (ask name state.1)

/-- The one question that is asked for a name that this host does not answer for. -/
def Backends.question (backends : Backends σ) (name : String) : Question :=
  if backends.controlPlane.isSome then .controlPlane name else .serviceDiscovery name

/-- How a backend is called in the error of a question to it. -/
def Question.party : Question → String
  | .serviceDiscovery _ => "service discovery controller"
  | .controlPlane _ => "control plane"

/-- The reply of a backend as a result: its answer, or its error with the name of the backend around it. -/
def handedOn {ε α : Type} (answer : α → Answer) (wrap : ε → ResolveError) (reply : Except ε α × σ) :
    Except ResolveError Answer × σ :=
  ((reply.1.map answer).mapError wrap, reply.2)

/-- What comes of asking the one backend that is asked for a name. -/
def Backends.answer (backends : Backends σ) (name : String) (state : σ) : Except ResolveError Answer × σ :=
  match backends.controlPlane with
  | some ask => handedOn .controlPlane .controlPlane (ask name state)
  | none => handedOn .backends .serviceDiscovery (backends.serviceDiscovery name state)

variable {backends : Backends σ} {name : String} {state : σ}

theorem handedOn_cases {ε α : Type} (answer : α → Answer) (wrap : ε → ResolveError) (reply : Except ε α × σ) :
    (∃ value, (handedOn answer wrap reply).1 = .ok (answer value)) ∨
      ∃ cause, (handedOn answer wrap reply).1 = .error (wrap cause) := by
  rcases reply with ⟨cause | value, after⟩
  · exact .inr ⟨cause, rfl⟩
  · exact .inl ⟨value, rfl⟩

/-- An answer is none of this host, and an error is called after the backend that was asked. -/
theorem answer_cases (backends : Backends σ) (name : String) (state : σ) :
    (∃ answer, (backends.answer name state).1 = .ok answer ∧ ∀ address, answer ≠ .vip address) ∨
      ∃ (error : ResolveError) (cause : String), (backends.answer name state).1 = .error error ∧ error ≠ .emptyHostname ∧
        error.message = s!"could not connect to {(backends.question name).party}: {cause}" := by
  unfold Backends.answer Backends.question
  cases backends.controlPlane with
  | some ask =>
    rcases handedOn_cases Answer.controlPlane ResolveError.controlPlane (ask name state) with
      ⟨value, hvalue⟩ | ⟨cause, hcause⟩
    · exact .inl ⟨_, hvalue, fun _ => Answer.noConfusion⟩
    · exact .inr ⟨_, cause.message, hcause, ResolveError.noConfusion, rfl⟩
  | none =>
    rcases handedOn_cases Answer.backends ResolveError.serviceDiscovery (backends.serviceDiscovery name state) with
      ⟨value, hvalue⟩ | ⟨cause, hcause⟩
    · exact .inl ⟨_, hvalue, fun _ => Answer.noConfusion⟩
    · exact .inr ⟨_, cause.message, hcause, ResolveError.noConfusion, rfl⟩

theorem answer_ne_emptyHostname (backends : Backends σ) (name : String) (state : σ) :
    (backends.answer name state).1 ≠ .error .emptyHostname := by
  intro hrefused
  rcases answer_cases backends name state with ⟨answer, hanswer, -⟩ | ⟨error, cause, herror, hnot, -⟩
  · cases hanswer.symm.trans hrefused
  · exact hnot (Except.error.inj (herror.symm.trans hrefused))

theorem answer_ne_vip (backends : Backends σ) (name : String) (state : σ) (address : Net.Ipv4) :
    (backends.answer name state).1 ≠ .ok (.vip address) := by
  intro hlocal
  rcases answer_cases backends name state with ⟨answer, hanswer, hnot⟩ | ⟨error, cause, herror, -⟩
  · exact hnot address (Except.ok.inj (hanswer.symm.trans hlocal))
  · cases herror.symm.trans hlocal

theorem exists_message_eq {error : ResolveError} (h : (backends.answer name state).1 = .error error) :
    ∃ cause : String, error.message = s!"could not connect to {(backends.question name).party}: {cause}" := by
  rcases answer_cases backends name state with ⟨answer, hanswer, -⟩ | ⟨_, cause, hcause, -, hmessage⟩
  · cases hanswer.symm.trans h
  · obtain rfl := Except.error.inj (hcause.symm.trans h)
    exact ⟨cause, hmessage⟩

/-- A recorded answer is the answer, and one question. -/
theorem answer_recorded (backends : Backends σ) (name : String) (state : σ) (asked : List Question) :
    backends.recorded.answer name (state, asked) =
      ((backends.answer name state).1, (backends.answer name state).2, asked ++ [backends.question name]) := by
  unfold Backends.answer Backends.recorded Backends.question
  cases backends.controlPlane <;> rfl

namespace Resolver

variable {resolver : Resolver} {hostname : String}

/-! ## The ways to resolve a name -/

theorem route_eq_localVip_iff {hasControlPlane : Bool} :
    resolver.route hasControlPlane name = .localVip ↔ Hostname.Under resolver.suffix name := by
  rw [← Hostname.isUnder_iff]
  unfold route
  cases Hostname.isUnder resolver.suffix name <;> cases hasControlPlane <;> simp

theorem resolve_of_empty (h : Hostname.canonical hostname = ".") :
    resolver.resolve backends hostname state = (.error .emptyHostname, state) := by
  unfold resolve
  simp only [if_pos h]

theorem resolve_of_under (hname : Hostname.canonical hostname ≠ ".")
    (h : Hostname.Under resolver.suffix (Hostname.canonical hostname)) :
    resolver.resolve backends hostname state =
      (.ok (.vip (Vip.get resolver.network (Hostname.canonical hostname))), state) := by
  unfold resolve
  simp only [if_neg hname, route_eq_localVip_iff.mpr h]

theorem resolve_of_not_under (hname : Hostname.canonical hostname ≠ ".")
    (h : ¬Hostname.Under resolver.suffix (Hostname.canonical hostname)) :
    resolver.resolve backends hostname state = backends.answer (Hostname.canonical hostname) state := by
  have hunder : Hostname.isUnder resolver.suffix (Hostname.canonical hostname) = false := by
    rw [← Bool.not_eq_true, Hostname.isUnder_iff]
    exact h
  unfold resolve Backends.answer
  simp only [if_neg hname, route, hunder, Bool.false_eq_true, if_false]
  cases backends.controlPlane <;> rfl

/-- A name that is empty but for its dot is refused, a name under the suffix has an address of its own, and for any other
one question is asked, of the control plane if there is one, whose answer or error is the result. -/
theorem resolve_exact (network : Net.Network) (suffix hostname : String) (backends : Backends σ) (state : σ) :
    let name := Hostname.canonical hostname
    let resolver := Resolver.new network suffix
    let reply := resolver.resolve backends.recorded hostname (state, [])
    let Under := Hostname.Under (Hostname.canonicalSuffix suffix) name
    resolver.resolve backends hostname state = (reply.1, reply.2.1) ∧
      (reply.1 = .error .emptyHostname ↔ name = ".") ∧ (name = "." → reply.2 = (state, [])) ∧
      (name ≠ "." →
        ((∃ address, reply.1 = .ok (.vip address)) ↔ Under) ∧ (reply.2.2 = [] ↔ Under) ∧
        (Under → reply = (.ok (.vip (Vip.get network name)), state, [])) ∧
        (¬Under → reply = ((backends.answer name state).1, (backends.answer name state).2, [backends.question name]) ∧
          ∀ error : ResolveError, reply.1 = .error error →
            ∃ cause : String, error.message = s!"could not connect to {(backends.question name).party}: {cause}")) := by
  intro name resolver reply Under
  by_cases hempty : name = "."
  · have hreply : reply = (.error .emptyHostname, state, []) := resolve_of_empty hempty
    have hplain : resolver.resolve backends hostname state = (.error .emptyHostname, state) := resolve_of_empty hempty
    clear_value reply name
    subst hreply
    exact ⟨hplain, iff_of_true rfl hempty, fun _ => rfl, absurd hempty⟩
  by_cases hunder : Under
  · have hlocal : Vip.get resolver.network name = Vip.get network name := Vip.get_truncate network name
    have hreply : reply = (.ok (.vip (Vip.get network name)), state, []) := by
      rw [← hlocal]
      exact resolve_of_under hempty hunder
    have hplain : resolver.resolve backends hostname state = (.ok (.vip (Vip.get network name)), state) := by
      rw [← hlocal]
      exact resolve_of_under hempty hunder
    clear_value reply name
    subst hreply
    refine ⟨hplain, iff_of_false nofun hempty, fun h => absurd h hempty, fun _ => ?_⟩
    exact ⟨iff_of_true ⟨_, rfl⟩ hunder, iff_of_true rfl hunder, fun _ => rfl, absurd hunder⟩
  · have hreply : reply =
        ((backends.answer name state).1, (backends.answer name state).2, [backends.question name]) := by
      rw [← List.nil_append [_], ← answer_recorded]
      exact resolve_of_not_under hempty hunder
    have hplain : resolver.resolve backends hostname state = backends.answer name state :=
      resolve_of_not_under hempty hunder
    clear_value reply name
    subst hreply
    refine ⟨hplain, iff_of_false (answer_ne_emptyHostname backends name state) hempty, fun h => absurd h hempty,
      fun _ => ⟨iff_of_false ?_ hunder, iff_of_false (List.cons_ne_nil _ _) hunder, fun h => absurd h hunder,
        fun _ => ⟨rfl, fun _ => exists_message_eq⟩⟩⟩
    rintro ⟨address, haddress⟩
    exact answer_ne_vip backends name state address haddress

end Resolver

end OverlayHost
