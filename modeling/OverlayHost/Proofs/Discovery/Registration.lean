import OverlayHost.Discovery.Lookup
import OverlayHost.Proofs.Net.Ipv4
import Mathlib

/-!
# The addresses of a registration

What comes of the hosts in a registration: each address once that some host has as its text, and nothing else. How often
and in what order the hosts stand in the body, and which hosts without an address stand between them, only bears on the
order of the addresses.
-/

set_option autoImplicit false

namespace OverlayHost.Discovery

open Net (Ipv4)

namespace Registration

variable {addresses : List Ipv4} {address : Ipv4} {registration : Registration}

theorem mem_distinct : address ∈ distinct addresses ↔ address ∈ addresses := by
  induction addresses with
  | nil => simp [distinct]
  | cons first rest ih =>
    by_cases hfirst : address = first
    · simp [distinct, hfirst]
    · simp [distinct, hfirst, ih]

theorem nodup_distinct (addresses : List Ipv4) : (distinct addresses).Nodup := by
  induction addresses with
  | nil => exact List.nodup_nil
  | cons first rest ih => exact List.nodup_cons.mpr ⟨by simp, ih.filter _⟩

/-- An address comes of a registration just if some host has it as its text. -/
theorem mem_addresses : address ∈ registration.addresses ↔ address.render ∈ registration := by
  simp [Registration.addresses, mem_distinct, Ipv4.ofString?_eq_some_iff]

end Registration

variable {body : List UInt8} {registration : Registration}

theorem decode_of_ofBytes (hbody : Registration.ofBytes body = .ok registration) (shuffle : Shuffle) :
    decode shuffle body = .ok (shuffle.order registration.addresses) := by
  rw [decode, hbody]

/-- What a lookup makes of the hosts in a body. -/
structure Served (registration : Registration) (served : List Ipv4) : Prop where
  nodup : served.Nodup
  mem_iff : ∀ address, address ∈ served ↔ address.render ∈ registration
  perm : served.Perm (registration.filterMap Ipv4.ofString?).dedup

theorem served_order (shuffle : Shuffle) (registration : Registration) :
    Served registration (shuffle.order registration.addresses) := by
  have hperm := shuffle.perm registration.addresses
  have hnodup : registration.addresses.Nodup := Registration.nodup_distinct _
  refine ⟨hperm.nodup_iff.mpr hnodup, ?_, ?_⟩
  · intro address
    rw [hperm.mem_iff, Registration.mem_addresses]
  · refine hperm.trans ((List.perm_ext_iff_of_nodup hnodup (List.nodup_dedup _)).mpr ?_)
    intro address
    rw [List.mem_dedup, Registration.addresses, Registration.mem_distinct]

/-- Each address that some host of a body has as its text is served once, in some order, and no other one is; bodies
whose hosts have the same addresses are served alike. -/
theorem served_of_body (shuffle : Shuffle) (hbody : Registration.ofBytes body = .ok registration) :
    ∃ served, decode shuffle body = .ok served ∧ Served registration served ∧
      ∀ (otherShuffle : Shuffle) (otherBody : List UInt8) (other : Registration),
        Registration.ofBytes otherBody = .ok other →
        (∀ address : Ipv4, address.render ∈ other ↔ address.render ∈ registration) →
        ∃ otherServed, decode otherShuffle otherBody = .ok otherServed ∧ otherServed.Perm served := by
  refine ⟨_, decode_of_ofBytes hbody shuffle, served_order shuffle registration, ?_⟩
  intro otherShuffle otherBody other hother hsame
  refine ⟨_, decode_of_ofBytes hother otherShuffle, ?_⟩
  have hserved := served_order shuffle registration
  have hotherServed := served_order otherShuffle other
  rw [List.perm_ext_iff_of_nodup hotherServed.nodup hserved.nodup]
  intro address
  rw [hotherServed.mem_iff, hserved.mem_iff, hsame]

/-- An octet with a zero in front, a blank in front, a repeated host, and the hosts in another order. -/
theorem served_of_mixed_body :
    let body := "\x7b\"Hosts\":[\x7b\"ip_address\":\"10.0.0.2\"\x7d,\x7b\"ip_address\":\"10.0.0.01\"\x7d,".toUTF8.toList ++
      "\x7b\"ip_address\":\"10.0.0.1\"\x7d,\x7b\"ip_address\":\"10.0.0.2\"\x7d]\x7d".toUTF8.toList
    let other := "[[[\" 10.0.0.7\"],[\"10.0.0.1\"],[\"10.0.0.2\"]]]".toUTF8.toList
    let registration := ["10.0.0.2", "10.0.0.01", "10.0.0.1", "10.0.0.2"]
    let otherRegistration := [" 10.0.0.7", "10.0.0.1", "10.0.0.2"]
    Registration.ofBytes body = .ok registration ∧ Registration.ofBytes other = .ok otherRegistration ∧
      ∃ served, decode .ascending body = .ok served ∧ Served registration served ∧
        ∃ otherServed, decode .ascending other = .ok otherServed ∧ otherServed.Perm served := by
  intro body other registration otherRegistration
  have hbody : Registration.ofBytes body = .ok registration := by
    unfold body registration
    cbv
  have hother : Registration.ofBytes other = .ok otherRegistration := by
    unfold other otherRegistration
    cbv
  have hsame : ∀ address : Ipv4, address.render ∈ otherRegistration ↔ address.render ∈ registration := by
    intro address
    rw [← Registration.mem_addresses, ← Registration.mem_addresses]
    have haddresses : Registration.addresses registration = (Registration.addresses otherRegistration).reverse := by
      unfold registration otherRegistration
      decide
    rw [haddresses, List.mem_reverse]
  obtain ⟨served, hserved, hhosts, halike⟩ := served_of_body .ascending hbody
  exact ⟨hbody, hother, served, hserved, hhosts, halike .ascending other otherRegistration hother hsame⟩

end OverlayHost.Discovery
