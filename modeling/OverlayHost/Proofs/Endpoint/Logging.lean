import OverlayHost.Endpoint.Logging
import Mathlib.Data.List.Basic

/-!
# The flag behind the logging endpoint

The flag after any requests is what the last PUT asked for that was answered with success, and what it was at the start
if there was none. No other request changes it, whatever its path, method and body.
-/

set_option autoImplicit false

namespace OverlayHost.Endpoint.Logging

variable {request : Http.Request} {requests : List Http.Request} {enabled : Bool}

def flagAfter (requests : List Http.Request) (enabled : Bool) : Bool :=
  requests.foldl (fun enabled request => (respond request enabled).2) enabled

/-- Requests with the responses to them. -/
def exchanges : List Http.Request → Bool → List (Http.Request × Http.Response)
  | [], _ => []
  | request :: rest, enabled => (request, (respond request enabled).1) :: exchanges rest (respond request enabled).2

/-- Whether an exchange is a PUT that was answered with success. -/
def isAccepted (exchange : Http.Request × Http.Response) : Bool :=
  exchange.1.method = "PUT" && exchange.2.status = 200

/-- The value that a body asks for. -/
def asked? (request : Http.Request) : Option Bool := (Json.Decoder.run decoder request.body).toOption.join

/-- A request is a PUT that is answered with success and gives the flag the value it asks for, or changes nothing. -/
theorem respond_cases (request : Http.Request) (enabled : Bool) :
    (isAccepted (request, (respond request enabled).1) = true ∧
        asked? request = some (respond request enabled).2) ∨
      (isAccepted (request, (respond request enabled).1) = false ∧ (respond request enabled).2 = enabled) := by
  unfold respond
  split
  next => exact .inr ⟨by simp [isAccepted, Http.Response.notFound, Http.Response.empty], rfl⟩
  next =>
    split
    next hread =>
      have hput : request.method ≠ "PUT" := by
        intro hput
        rw [hput] at hread
        exact absurd hread (by decide)
      exact .inr ⟨by simp [isAccepted, hput], rfl⟩
    next =>
      split
      next hput =>
        unfold set asked?
        split
        next error hrun => exact .inr ⟨by simp [isAccepted, refused, Http.Response.json], rfl⟩
        next hrun => exact .inr ⟨by simp [isAccepted, refused, Http.Response.json], rfl⟩
        next value hrun =>
          rw [hrun]
          exact .inl ⟨by simp [isAccepted, hput, shown, Http.Response.json], rfl⟩
      next hput => exact .inr ⟨by simp [isAccepted, hput], rfl⟩

/-- Whether a flag is what the last accepted PUT among some requests asked for, or what it was if there is none. -/
def IsLastAccepted (requests : List Http.Request) (start enabled : Bool) : Prop :=
  match ((exchanges requests start).filter isAccepted).getLast? with
  | some exchange => asked? exchange.1 = some enabled
  | none => enabled = start

theorem isLastAccepted_flagAfter (requests : List Http.Request) (start : Bool) :
    IsLastAccepted requests start (flagAfter requests start) := by
  unfold IsLastAccepted
  induction requests generalizing start with
  | nil => rfl
  | cons request rest ih =>
    have hrest := ih (respond request start).2
    rw [← show flagAfter (request :: rest) start = flagAfter rest (respond request start).2 from rfl] at hrest
    rw [exchanges]
    rcases respond_cases request start with ⟨haccepted, hasked⟩ | ⟨hrefused, hsame⟩
    · rw [List.filter_cons_of_pos haccepted, List.getLast?_cons]
      cases hlast : ((exchanges rest (respond request start).2).filter isAccepted).getLast? with
      | none =>
        rw [hlast] at hrest
        show asked? request = _
        rw [hasked, hrest]
      | some exchange =>
        rw [hlast] at hrest
        exact hrest
    · rw [List.filter_cons_of_neg (by simp [hrefused])]
      rw [hsame] at hrest ⊢
      exact hrest

end OverlayHost.Endpoint.Logging
