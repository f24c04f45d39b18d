import OverlayHost.Proofs.Discovery.Cancellation

/-!
# The requests of a lookup

A lookup over a transport that answers by the URI it is asked for, with a record of where each request went and with a
loop that counts the responses it did not accept. `course_eq` says that this is the lookup that only knows what comes back
from its requests, each of which went to the URI of the registration.
-/

set_option autoImplicit false

namespace OverlayHost.Discovery

open Shutdown

/-- The random part of a pause, in milliseconds. -/
abbrev Jitter := { millis : Nat // 50 ≤ millis ∧ millis < 125 }

/-- What a client meets with, whatever it asks for. -/
structure Setting where
  /-- What comes back from each request, by where it goes, and after how long. -/
  transport : Nat → Net.Uri → Option (Duration × Reply)
  jitter : Nat → Jitter
  shuffle : Shuffle
  shutdown : Moment
  shutdownFirst : Nat → Bool

/-- What a lookup meets with all of whose requests go to one URI. -/
def Setting.conditions (setting : Setting) (uri : Net.Uri) : Conditions where
  fate number := setting.transport number uri
  jitter number := .ofMillis (setting.jitter number).val
  shuffle := setting.shuffle
  shutdown := setting.shutdown
  shutdownFirst := setting.shutdownFirst

/-- Where a request went, and when it began and ended. -/
structure Request where
  uri : Net.Uri
  start : Duration
  ending : Duration
deriving DecidableEq, Repr

/-- What came of a lookup, and what it asked. -/
structure Course where
  result : Except Error (List Net.Ipv4)
  requests : List Request
  ending : Duration

/-- An outcome all of whose attempts were requests to one URI. -/
def Outcome.to (outcome : Outcome) (uri : Net.Uri) : Course where
  result := outcome.result
  requests := outcome.attempts.map fun attempt => ⟨uri, attempt.start, attempt.ending⟩
  ending := outcome.ending

namespace Setting

/-- Whether the shutdown signal comes before the end of a wait. -/
def interrupts (setting : Setting) (wait : Nat) (ending : Duration) : Bool :=
  setting.shutdown.precedes ending (setting.shutdownFirst wait)

/-- The pause after a number of responses that were not accepted. -/
def backoff (setting : Setting) (retry : Nat) : Duration := .ofMillis (500 * retry + (setting.jitter retry).val)

/-- Asks for a URI until a response is accepted or too many were not; `failed` counts those. -/
def ask (setting : Setting) (uri : Net.Uri) (failed : Nat) (now : Duration) : Course :=
  if setting.interrupts (3 * failed) now then ⟨.error .cancelled, [], now⟩
  else
    let (ending, reply) := concluded (setting.transport failed uri) now
    if setting.interrupts (3 * failed + 1) ending then
      let ending := setting.shutdown.noticed now
      ⟨.error .cancelled, [⟨uri, now, ending⟩], ending⟩
    else match reply with
      | none => ⟨.error (.timeout requestTimeout), [⟨uri, now, ending⟩], ending⟩
      | some (.failed message) => ⟨.error (.transport message), [⟨uri, now, ending⟩], ending⟩
      | some (.response status body) =>
        if status = 200 then ⟨decode setting.shuffle body, [⟨uri, now, ending⟩], ending⟩
        else if failed + 1 ≥ maxAttempts then ⟨.error (.status status), [⟨uri, now, ending⟩], ending⟩
        else
          let next := ending + setting.backoff failed
          if setting.interrupts (3 * failed + 2) next then
            ⟨.error .cancelled, [⟨uri, now, ending⟩], setting.shutdown.noticed ending⟩
          else
            let rest := setting.ask uri (failed + 1) next
            { rest with requests := ⟨uri, now, ending⟩ :: rest.requests }
termination_by maxAttempts - failed

end Setting

/-- Looks an application up, from a moment on. -/
def Client.course (client : Client) (setting : Setting) (name : String) (now : Duration) : Course :=
  match client.registrationUri name with
  | .error error => ⟨.error error, [], now⟩
  | .ok uri => setting.ask uri 0 now

variable {client : Client} {setting : Setting} {name : String} {uri : Net.Uri} {now : Duration}

theorem Setting.backoff_eq (setting : Setting) (uri : Net.Uri) (retry : Nat) :
    basePause retry + (setting.conditions uri).jitter retry = setting.backoff retry :=
  congrArg Duration.mk (Nat.add_mul _ _ _).symm

theorem Setting.ask_eq (setting : Setting) (uri : Net.Uri) (more failed : Nat) (now : Duration)
    (hmore : failed + more + 1 = maxAttempts) :
    setting.ask uri failed now = (attempt (setting.conditions uri) more failed now).to uri := by
  have hinterrupts (wait : Nat) (moment : Duration) :
      (setting.conditions uri).interrupts wait moment = setting.interrupts wait moment := rfl
  have hfate : (setting.conditions uri).fate failed = setting.transport failed uri := rfl
  -- one counts the attempts that may follow, the other one those before: their sum stays the same
  induction more using Nat.strongRecOn generalizing failed now with | _ more ih
  rw [ask, attempt]
  simp only [hinterrupts, hfate]
  by_cases hset : setting.interrupts (3 * failed) now
  · simp [hset, Outcome.to, Outcome.at]
  rcases concluded (setting.transport failed uri) now with ⟨ending, reply⟩
  by_cases hcut : setting.interrupts (3 * failed + 1) ending
  · simp [hset, hcut, Outcome.to, Outcome.after, Outcome.at, conditions]
  simp only [hset, hcut, if_false, Bool.false_eq_true]
  rcases reply with _ | ⟨status, body⟩ | message
  · rfl
  · by_cases hok : status = 200
    · simp [hok, Outcome.to, Outcome.after, Outcome.at, conditions]
    cases more with
    | zero =>
      have hlast : failed + 1 ≥ maxAttempts := by omega
      simp [hok, hlast, Outcome.to, Outcome.after, Outcome.at]
    | succ fewer =>
      have hmore : ¬ failed + 1 ≥ maxAttempts := by omega
      simp only [hok, hmore, if_false, backoff_eq, ih fewer (Nat.lt_succ_self fewer) (failed + 1) _ (by omega) rfl]
      split <;> rfl
  · rfl

theorem course_eq (huri : client.registrationUri name = .ok uri) (setting : Setting) (now : Duration) :
    client.course setting name now = (client.lookup (setting.conditions uri) name now).to uri := by
  rw [lookup_eq huri, ← Setting.ask_eq setting uri _ 0 now rfl, Client.course, huri]

theorem course_of_invalid {error : Error} (huri : client.registrationUri name = .error error) (setting : Setting)
    (now : Duration) : client.course setting name now = ⟨.error error, [], now⟩ := by
  rw [Client.course, huri]

theorem uri_of_mem_requests (huri : client.registrationUri name = .ok uri) {request : Request}
    (hrequest : request ∈ (client.course setting name now).requests) : request.uri = uri := by
  rw [course_eq huri, Outcome.to, List.mem_map] at hrequest
  obtain ⟨attempt, -, rfl⟩ := hrequest
  rfl

end OverlayHost.Discovery
