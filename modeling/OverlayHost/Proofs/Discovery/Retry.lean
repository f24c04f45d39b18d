import OverlayHost.Proofs.Discovery.Requests

/-!
# Trying again

How often a lookup asks that is never cancelled, what it answers, and how long it waits. Nothing but a response that is no
success is followed by another request, and only the last of them decides. `retry_law` puts this together: `asks_free`
says how such a lookup goes on from any of its requests, and the rest is by induction over that.
-/

set_option autoImplicit false

namespace OverlayHost.Discovery

/-! ## Answers -/

/-- What comes back from a request in time, if anything does. -/
def timely? (fate : Option (Duration × Reply)) : Option Reply :=
  (fate.filter fun answer => answer.1 ≤ requestTimeout).map Prod.snd

/-- Whether a request was answered by a response that is no success. -/
def Retried : Option Reply → Prop
  | some (.response status _) => status ≠ 200
  | _ => False

instance : DecidablePred Retried
  | some (.response status _) => inferInstanceAs (Decidable (status ≠ 200))
  | some (.failed _) => inferInstanceAs (Decidable False)
  | none => inferInstanceAs (Decidable False)

/-- What a lookup answers whose last request was answered so. -/
def given (shuffle : Shuffle) : Option Reply → Except Error (List Net.Ipv4)
  | none => .error (.timeout requestTimeout)
  | some (.failed message) => .error (.transport message)
  | some (.response status body) => if status = 200 then decode shuffle body else .error (.status status)

variable {shuffle : Shuffle} {more : Nat} {reply : Option Reply}

theorem given_of_retried (h : Retried reply) :
    ∃ status body, reply = some (.response status body) ∧ given shuffle reply = .error (.status status) := by
  unfold Retried at h
  split at h
  next status body => exact ⟨status, body, rfl, if_neg h⟩
  next => contradiction

theorem given_of_decided {result : Except Error (List Net.Ipv4)} (h : decision shuffle more reply = some result) :
    result = given shuffle reply ∧ (Retried reply → more = 0) := by
  unfold decision at h
  split at h
  next => simp_all [given, Retried]
  next => simp_all [given, Retried]
  next status body =>
    by_cases hok : status = 200
    · simp_all [given, Retried]
    · by_cases hmore : more = 0 <;> simp_all [given, Retried]

theorem retried_of_undecided (h : decision shuffle more reply = none) : Retried reply := by
  unfold decision at h
  split at h
  next => simp at h
  next => simp at h
  next status body => by_cases hok : status = 200 <;> simp_all [Retried]

variable {fate : Option (Duration × Reply)} {start ending : Duration}

theorem timely?_of_concluded (h : concluded fate start = (ending, reply)) : timely? fate = reply := by
  unfold concluded at h
  rcases fate with _ | ⟨delay, answer⟩
  · simp_all [timely?]
  · by_cases hdelay : delay ≤ requestTimeout <;> simp_all [timely?, Option.filter]

theorem le_of_concluded (h : concluded fate start = (ending, reply)) : ending ≤ start + requestTimeout := by
  unfold concluded at h
  split at h
  next delay answer =>
    split at h
    next hdelay =>
      cases h
      exact Nat.add_le_add_left hdelay _
    next => simp_all
  next => simp_all

/-! ## The course of a lookup -/

variable {setting : Setting} {uri : Net.Uri} {index : Nat} {now : Duration} {course : Course}

/-- How a lookup goes on that is never cancelled, from one of its requests on; `more` is how many may follow it. -/
inductive Asks (setting : Setting) (uri : Net.Uri) : Nat → Nat → Duration → Course → Prop
  | settled {more index : Nat} {now ending : Duration} {reply : Option Reply}
      (hconcluded : concluded (setting.transport index uri) now = (ending, reply)) (hlast : Retried reply → more = 0) :
      Asks setting uri more index now ⟨given setting.shuffle reply, [⟨uri, now, ending⟩], ending⟩
  | retried {more index : Nat} {now ending : Duration} {reply : Option Reply} {rest : Course}
      (hconcluded : concluded (setting.transport index uri) now = (ending, reply)) (hretried : Retried reply)
      (hrest : Asks setting uri more (index + 1) (ending + setting.backoff index) rest) :
      Asks setting uri (more + 1) index now { rest with requests := ⟨uri, now, ending⟩ :: rest.requests }

theorem asks_free (setting : Setting) (uri : Net.Uri) (more index : Nat) (now : Duration) :
    Asks setting uri more index now ((attempt (setting.conditions uri).free more index now).to uri) := by
  induction more using Nat.strongRecOn generalizing index now with | _ more ih
  obtain ⟨ending, reply, hconcluded, -, hends⟩ := attempt_free (setting.conditions uri) more index now
  rcases hends with ⟨result, hdecision, hfree⟩ | ⟨fewer, rfl, hnone, hfree⟩
  · obtain ⟨rfl, hlast⟩ := given_of_decided hdecision
    rw [hfree]
    exact .settled hconcluded hlast
  · rw [hfree, setting.backoff_eq]
    exact .retried hconcluded (retried_of_undecided hnone) (ih fewer (Nat.lt_succ_self fewer) (index + 1) _)

/-- The last request decides, and every one before it was answered by a response that is no success. -/
theorem Asks.counted (h : Asks setting uri more index now course) :
    ∃ last ≤ more, course.requests.length = last + 1 ∧
      course.result = given setting.shuffle (timely? (setting.transport (index + last) uri)) ∧
      (∀ earlier < last, Retried (timely? (setting.transport (index + earlier) uri))) ∧
      (Retried (timely? (setting.transport (index + last) uri)) → last = more) := by
  induction h with
  | @settled more index now ending reply hconcluded hlast =>
    rw [← timely?_of_concluded hconcluded] at hlast ⊢
    exact ⟨0, Nat.zero_le _, rfl, rfl, by simp, fun h => (hlast h).symm⟩
  | @retried more index now ending reply rest hconcluded hretried hrest ih =>
    -- the rest counts its requests from the next one on
    obtain ⟨last, hle, hlength, hresult, hearlier, hmore⟩ := ih
    rw [Nat.add_assoc, Nat.add_comm 1] at hresult hmore
    refine ⟨last + 1, by omega, by simp [hlength], hresult, ?_, fun h => congrArg (· + 1) (hmore h)⟩
    intro earlier hlt
    cases earlier with
    | zero =>
      rw [← timely?_of_concluded hconcluded] at hretried
      exact hretried
    | succ earlier =>
      rw [Nat.add_comm earlier, ← Nat.add_assoc]
      exact hearlier earlier (by omega)

/-- When the requests of a lookup begin and end, from one of them on. -/
structure Paced (setting : Setting) (uri : Net.Uri) (index : Nat) (now : Duration) (course : Course) : Prop where
  first : course.requests.head?.map Request.start = some now
  each : ∀ (i : Nat) (request : Request), course.requests[i]? = some request →
    request.uri = uri ∧ request.ending = (concluded (setting.transport (index + i) uri) request.start).1
  pause : ∀ (i : Nat) (request next : Request), course.requests[i]? = some request →
    course.requests[i + 1]? = some next → next.start = request.ending + setting.backoff (index + i)
  last : course.requests.getLast?.map Request.ending = some course.ending

theorem Asks.paced (h : Asks setting uri more index now course) : Paced setting uri index now course := by
  induction h with
  | @settled more index now ending reply hconcluded hlast =>
    refine ⟨rfl, ?_, ?_, rfl⟩
    · intro i request hrequest
      cases i with
      | zero =>
        cases hrequest
        simp [hconcluded]
      | succ i => simp at hrequest
    · simp
  | @retried more index now ending reply rest hconcluded hretried hrest ih =>
    refine ⟨rfl, ?_, ?_, ?_⟩
    · intro i request hrequest
      cases i with
      | zero =>
        cases hrequest
        simp [hconcluded]
      | succ i =>
        have heach := ih.each i request hrequest
        rwa [Nat.add_assoc, Nat.add_comm 1] at heach
    · intro i request next hrequest hnext
      cases i with
      | zero =>
        cases hrequest
        -- the first of the remaining requests is the one after the pause
        have hfirst := ih.first
        rw [List.head?_eq_getElem?] at hfirst
        simp_all
      | succ i =>
        have hpause := ih.pause i request next hrequest hnext
        rwa [Nat.add_assoc, Nat.add_comm 1] at hpause
    · have hlast := ih.last
      cases hrequests : rest.requests <;> simp_all

/-- How long a lookup may take from one of its requests on. -/
def budget : Nat → Nat → Duration
  | 0, _ => requestTimeout
  | more + 1, index => requestTimeout + (.ofMillis (500 * index + 125) + budget more (index + 1))

theorem backoff_mem (setting : Setting) (retry : Nat) :
    Duration.ofMillis (500 * retry + 50) ≤ setting.backoff retry ∧
      setting.backoff retry < .ofMillis (500 * retry + 125) := by
  obtain ⟨hlo, hhi⟩ := (setting.jitter retry).property
  exact ⟨Nat.mul_le_mul_right _ (by omega), Nat.mul_lt_mul_of_pos_right (by omega) (by omega)⟩

theorem Asks.ending_le (h : Asks setting uri more index now course) : course.ending ≤ now + budget more index := by
  induction h with
  | @settled more index now ending reply hconcluded hlast =>
    have hending := le_of_concluded hconcluded
    cases more with
    | zero => exact hending
    | succ more => exact le_trans hending (Nat.add_le_add_left (Nat.le_add_right _ _) _)
  | @retried more index now ending reply rest hconcluded hretried hrest ih =>
    have hending := le_of_concluded hconcluded
    have hpause := le_of_lt (backoff_mem setting index).2
    simp only [budget, Duration.le_iff_nanoseconds, Duration.nanoseconds_add] at *
    omega

variable {client : Client} {name : String}

theorem asks_course (huri : client.registrationUri name = .ok uri) (hshutdown : setting.shutdown = none)
    (now : Duration) : Asks setting uri (maxAttempts - 1) 0 now (client.course setting name now) := by
  have hfree : (setting.conditions uri).free = setting.conditions uri := by
    simp [Conditions.free, Setting.conditions, hshutdown]
  rw [course_eq huri, lookup_eq huri, ← hfree]
  exact asks_free setting uri _ 0 now

/-- A lookup of a name whose URL can be read, and that is never cancelled, asks for this URL until something else than a
response that is no success comes back, four times at most, and answers what its last request was answered. -/
theorem retry_law (client : Client) (setting : Setting) (name : String) (now : Duration)
    (huri : client.registrationUri name = .ok uri) (hshutdown : setting.shutdown = none) :
    let course := client.course setting name now
    let answer (number : Nat) := timely? (setting.transport number uri)
    course = (client.lookup (setting.conditions uri) name now).to uri ∧
    (∀ last < 4, (∀ earlier < last, Retried (answer earlier)) → ¬ Retried (answer last) →
      course.requests.length = last + 1 ∧ course.result = given setting.shuffle (answer last)) ∧
    ((∀ number < 4, Retried (answer number)) →
      course.requests.length = 4 ∧ ∃ status body,
        answer 3 = some (.response status body) ∧ course.result = .error (.status status)) ∧
    Paced setting uri 0 now course ∧
    (∀ (i : Nat) (request next : Request), course.requests[i]? = some request → course.requests[i + 1]? = some next →
      request.ending + .ofMillis (500 * i + 50) ≤ next.start ∧
        next.start < request.ending + .ofMillis (500 * i + 125)) ∧
    course.ending ≤ now + .ofMillis (4 * 10000 + 1875) := by
  intro course answer
  have hasks : Asks setting uri (maxAttempts - 1) 0 now course := asks_course huri hshutdown now
  have hpaced := hasks.paced
  obtain ⟨decided, hle, hlength, hresult, hearlier, hlast⟩ := hasks.counted
  simp only [Nat.zero_add] at hresult hearlier hlast
  have hfour : maxAttempts = 4 := rfl
  refine ⟨course_eq huri setting now, ?_, ?_, hpaced, ?_, hasks.ending_le⟩
  · intro last hlt hbefore hanswer
    have hsame : decided = last := by
      rcases Nat.lt_trichotomy decided last with h | h | h
      · have := hlast (hbefore decided h)
        omega
      · exact h
      · exact absurd (hearlier last h) hanswer
    subst hsame
    exact ⟨hlength, hresult⟩
  · intro hall
    have hsame : decided = 3 := hlast (hall decided (by omega))
    subst hsame
    obtain ⟨status, body, hstatus, hgiven⟩ := given_of_retried (hall 3 (by decide))
    exact ⟨hlength, status, body, hstatus, hresult.trans hgiven⟩
  · intro i request next hrequest hnext
    rw [hpaced.pause i request next hrequest hnext, Nat.zero_add]
    obtain ⟨hlo, hhi⟩ := backoff_mem setting i
    exact ⟨Nat.add_le_add_left hlo _, Nat.add_lt_add_left hhi _⟩

/-- Two failures are followed by a success. -/
theorem retry_law_third :
    let client : Client := ⟨"http://sd"⟩
    let body := "\x7b\"Hosts\":[\x7b\"ip_address\":\"10.0.0.1\"\x7d]\x7d".toUTF8.toList
    let setting : Setting :=
      { transport := fun number _ =>
          some (.ofMillis 10, if number < 2 then .response (500 + number) [] else .response 200 body),
        jitter := fun _ => ⟨60, by decide⟩, shuffle := .ascending, shutdown := none, shutdownFirst := fun _ => false }
    let course := client.course setting "app." .zero
    client.registrationUri "app." = .ok ⟨some "http", some "sd", "/v1/registration/app.", none⟩ ∧
      course.requests.length = 3 ∧ course.result = .ok [⟨0x0a000001⟩] ∧ course.ending ≤ .ofMillis 41875 := by
  intro client body setting course
  have huri : client.registrationUri "app." = .ok ⟨some "http", some "sd", "/v1/registration/app.", none⟩ := by
    unfold client
    cbv
  obtain ⟨-, hcount, -, -, -, hending⟩ := retry_law client setting "app." .zero huri rfl
  obtain ⟨hlength, hresult⟩ := hcount 2 (by decide) (by decide) (by decide)
  refine ⟨huri, hlength, hresult.trans ?_, hending⟩
  unfold setting body
  cbv

end OverlayHost.Discovery
