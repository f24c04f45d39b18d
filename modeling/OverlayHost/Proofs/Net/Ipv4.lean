import OverlayHost.Net.Ipv4
import OverlayHost.Proofs.Text.Digits
import Mathlib.Data.List.TakeWhile

/-!
# The text of an address

A text is read as an address just if it is what the address is written as: `ofString?_eq_some_iff`. An octet is read as
the digits of a number up to 255, four of them with points between make up the address, and an address is the one of its
octets.
-/

set_option autoImplicit false

namespace OverlayHost.Net.Ipv4

open Text

variable {cs rest : List Char} {octet a b c d : UInt8} {address : Ipv4}

/-! ## Octets -/

theorem word_ofOctets (a b c d : UInt8) :
    (ofOctets a b c d).word.toNat = 16777216 * a.toNat + 65536 * b.toNat + 256 * c.toNat + d.toNat := by
  have ha := a.toNat_lt
  have hb := b.toNat_lt
  have hc := c.toNat_lt
  have hd := d.toNat_lt
  -- each octet lies below the bits of those in front of it
  have hfirst := Nat.two_pow_add_eq_or_of_lt (i := 24) (b := 65536 * b.toNat) (by omega) a.toNat
  have hsecond := Nat.two_pow_add_eq_or_of_lt (i := 16) (b := 256 * c.toNat) (by omega) (256 * a.toNat + b.toNat)
  have hthird := Nat.two_pow_add_eq_or_of_lt (i := 8) (b := d.toNat) (by omega)
    (65536 * a.toNat + 256 * b.toNat + c.toNat)
  have hsame : 65536 * (256 * a.toNat + b.toNat) = 16777216 * a.toNat + 65536 * b.toNat := by omega
  have hrest : 256 * (65536 * a.toNat + 256 * b.toNat + c.toNat) =
      16777216 * a.toNat + 65536 * b.toNat + 256 * c.toNat := by omega
  simp only [hsame, hrest, Nat.reducePow] at hfirst hsecond hthird
  rw [hthird, hsecond, hfirst]
  simp only [ofOctets, UInt32.toNat_or, UInt32.toNat_shiftLeft, UInt8.toNat_toUInt32, UInt32.reduceToNat,
    Nat.shiftLeft_eq, Nat.reduceMod, Nat.reducePow]
  simp (disch := omega) only [Nat.mod_eq_of_lt, Nat.mul_comm]

theorem octets_ofOctets (a b c d : UInt8) : (ofOctets a b c d).octets = [a, b, c, d] := by
  have ha := a.toNat_lt
  have hb := b.toNat_lt
  have hc := c.toNat_lt
  have hd := d.toNat_lt
  have hword := word_ofOctets a b c d
  simp only [octets, List.cons.injEq, ← UInt8.toNat_inj, UInt32.toNat_toUInt8, UInt32.toNat_shiftRight,
    Nat.shiftRight_eq_div_pow, hword, UInt32.reduceToNat, Nat.reduceMod, Nat.reducePow, and_true]
  refine ⟨?_, ?_, ?_, ?_⟩ <;> omega

/-- An address is the one of its octets. -/
theorem exists_octets (address : Ipv4) : ∃ a b c d, address.octets = [a, b, c, d] ∧ address = ofOctets a b c d := by
  refine ⟨_, _, _, _, rfl, ?_⟩
  have hlt := address.word.toNat_lt
  have hword : address.word.toNat = (ofOctets (address.word >>> 24).toUInt8 (address.word >>> 16).toUInt8
      (address.word >>> 8).toUInt8 address.word.toUInt8).word.toNat := by
    rw [word_ofOctets]
    simp only [UInt32.toNat_toUInt8, UInt32.toNat_shiftRight, Nat.shiftRight_eq_div_pow, UInt32.reduceToNat,
      Nat.reduceMod, Nat.reducePow]
    omega
  cases address with
  | mk word => exact congrArg mk (UInt32.toNat_inj.mp hword)

/-- Whether what follows an octet cannot be read as a part of it. -/
def EndsNumber (rest : List Char) : Prop := ∀ c ∈ rest.head?, c.isDigit = false

theorem takeWhile_toDigits (n : Nat) (hrest : EndsNumber rest) :
    (Nat.toDigits 10 n ++ rest).takeWhile Char.isDigit = Nat.toDigits 10 n := by
  have hdigits : ∀ c ∈ Nat.toDigits 10 n, c.isDigit = true := fun c hc =>
    Nat.isDigit_of_mem_toDigits (by decide) (by decide) hc
  have hnone : rest.takeWhile Char.isDigit = [] := by
    cases rest with
    | nil => rfl
    | cons c rest => exact List.takeWhile_cons_of_neg (by simp [hrest c rfl])
  rw [List.takeWhile_append_of_pos hdigits, hnone, List.append_nil]

/-- What is left after all digits at the start of a text. -/
theorem drop_digits (cs : List Char) :
    cs = cs.takeWhile Char.isDigit ++ cs.drop (cs.takeWhile Char.isDigit).length ∧
      EndsNumber (cs.drop (cs.takeWhile Char.isDigit).length) := by
  have hsplit : cs.takeWhile Char.isDigit ++ cs.dropWhile Char.isDigit = cs := List.takeWhile_append_dropWhile
  have hdrop : cs.drop (cs.takeWhile Char.isDigit).length = cs.dropWhile Char.isDigit := calc
    cs.drop (cs.takeWhile Char.isDigit).length
      = (cs.takeWhile Char.isDigit ++ cs.dropWhile Char.isDigit).drop (cs.takeWhile Char.isDigit).length := by rw [hsplit]
    _ = cs.dropWhile Char.isDigit := List.drop_left
  rw [hdrop]
  refine ⟨hsplit.symm, ?_⟩
  intro c hc
  have hnot := List.head?_dropWhile_not Char.isDigit cs
  rw [hc] at hnot
  exact hnot

theorem octet?_toDigits (octet : UInt8) (hrest : EndsNumber rest) :
    octet? false (Nat.toDigits 10 octet.toNat ++ rest) = some (octet, rest) := by
  have hlt := octet.toNat_lt
  have hlength : (Nat.toDigits 10 octet.toNat).length ≤ 3 :=
    (Nat.length_toDigits_le_iff (by decide) (by decide)).mpr (by omega)
  have hzero : 1 < (Nat.toDigits 10 octet.toNat).length → (Nat.toDigits 10 octet.toNat).head? ≠ some '0' := by
    intro hlong
    apply head?_toDigits
    intro hnone
    simp [hnone] at hlong
  simp only [octet?, takeWhile_toDigits _ hrest, decimalValue_toDigits, List.drop_left, UInt8.ofNat_toNat]
  rw [if_neg, if_neg]
  · simpa using hzero
  · simp [Nat.toDigits_ne_nil]
    omega

theorem eq_toDigits_of_octet? (h : octet? false cs = some (octet, rest)) :
    cs = Nat.toDigits 10 octet.toNat ++ rest ∧ EndsNumber rest := by
  unfold octet? at h
  dsimp only at h
  split at h
  next => cases h
  next hsize =>
    split at h
    next => cases h
    next hzero =>
      simp only [Bool.or_eq_true, List.isEmpty_iff, decide_eq_true_eq, not_or, Nat.not_lt] at hsize
      simp at hzero
      obtain ⟨⟨hsome, -⟩, hvalue⟩ := hsize
      obtain ⟨rfl, rfl⟩ := Prod.mk.inj (Option.some.inj h)
      have hdigits : ∀ c ∈ cs.takeWhile Char.isDigit, c.isDigit = true := fun c hc => List.mem_takeWhile_imp hc
      have hoctet : (UInt8.ofNat (decimalValue (cs.takeWhile Char.isDigit))).toNat =
          decimalValue (cs.takeWhile Char.isDigit) := UInt8.toNat_ofNat_of_lt (by simp [UInt8.size]; omega)
      rw [hoctet, toDigits_decimalValue hdigits hsome hzero]
      exact drop_digits cs

theorem octet?_eq_some_iff :
    octet? false cs = some (octet, rest) ↔ cs = Nat.toDigits 10 octet.toNat ++ rest ∧ EndsNumber rest := by
  constructor
  · exact eq_toDigits_of_octet?
  · rintro ⟨rfl, hrest⟩
    exact octet?_toDigits octet hrest

/-! ## Addresses -/

theorem after?_eq_some_iff {expected : Char} : after? expected cs = some rest ↔ cs = expected :: rest := by
  cases cs with
  | nil => simp [after?]
  | cons c cs =>
    by_cases hc : c = expected
    · simp [after?, hc]
    · simp [after?, hc]

theorem endsNumber_point (rest : List Char) : EndsNumber ('.' :: rest) := by
  intro c hc
  rw [← Option.some.inj hc]
  rfl

/-- Four numbers with points between them. -/
def quad (a b c d : UInt8) : List Char :=
  Nat.toDigits 10 a.toNat ++ '.' :: (Nat.toDigits 10 b.toNat ++ '.' :: (Nat.toDigits 10 c.toNat ++ '.' ::
    Nat.toDigits 10 d.toNat))

theorem toList_render (h : address.octets = [a, b, c, d]) : address.render.toList = quad a b c d := by
  simp [render, h, quad]

theorem read?_eq_some_iff :
    read? false cs = some (address, rest) ↔
      ∃ a b c d, address = ofOctets a b c d ∧ cs = quad a b c d ++ rest ∧ EndsNumber rest := by
  simp only [read?, Option.bind_eq_bind, Option.bind_eq_some_iff, Prod.exists, octet?_eq_some_iff, after?_eq_some_iff]
  constructor
  · rintro ⟨a, _, ⟨rfl, -⟩, _, rfl, b, _, ⟨rfl, -⟩, _, rfl, c, _, ⟨rfl, -⟩, _, rfl, d, rest, ⟨rfl, hrest⟩, hread⟩
    obtain ⟨rfl, rfl⟩ := Prod.mk.inj (Option.some.inj hread)
    exact ⟨a, b, c, d, rfl, by simp [quad], hrest⟩
  · rintro ⟨a, b, c, d, rfl, rfl, hrest⟩
    refine ⟨a, _, ⟨?_, endsNumber_point _⟩, _, rfl, b, _, ⟨rfl, endsNumber_point _⟩, _, rfl, c, _,
      ⟨rfl, endsNumber_point _⟩, _, rfl, d, rest, ⟨rfl, hrest⟩, rfl⟩
    simp [quad]

/-- A text is read as an address just if the address is written so. -/
theorem ofString?_eq_some_iff {s : String} : ofString? s = some address ↔ s = address.render := by
  have hread : ofString? s = some address ↔ read? false s.toList = some (address, []) := by
    unfold ofString?
    split
    next hsome => simp [hsome]
    next hnone => exact ⟨by simp, fun hsome => absurd hsome (hnone address)⟩
  rw [hread, read?_eq_some_iff]
  constructor
  · rintro ⟨a, b, c, d, rfl, hs, -⟩
    rw [← String.toList_inj, toList_render (octets_ofOctets a b c d), hs, List.append_nil]
  · rintro rfl
    obtain ⟨a, b, c, d, hoctets, haddress⟩ := exists_octets address
    refine ⟨a, b, c, d, haddress, ?_, by simp [EndsNumber]⟩
    rw [toList_render hoctets, List.append_nil]

end OverlayHost.Net.Ipv4
