import OverlayHost.Text.Digits
import Mathlib.Data.List.Infix

/-!
# Decimal digits

The digits of a number stand for it, and digits are those of the number they stand for as long as there is no zero in
front of others. Zeros in front make no other number of it (`decimalValue_eq_iff`).
-/

set_option autoImplicit false

namespace OverlayHost.Text

variable {written rest : List Char} {n : Nat}

theorem isDigit_iff_toNat (c : Char) : c.isDigit = true ↔ 48 ≤ c.toNat ∧ c.toNat ≤ 57 := by
  simp [Char.isDigit, UInt32.le_iff_toNat_le]

theorem decimalValue_eq_ofDigitChars (written : List Char) :
    decimalValue written = Nat.ofDigitChars 10 written 0 := by
  simp only [decimalValue, Nat.ofDigitChars_eq_foldl, Nat.mul_comm]

theorem decimalValue_toDigits (n : Nat) : decimalValue (Nat.toDigits 10 n) = n := by
  rw [decimalValue_eq_ofDigitChars, Nat.ofDigitChars_ten_toDigits]

theorem decimalValue_concat (earlier : List Char) (last : Char) :
    decimalValue (earlier ++ [last]) = 10 * decimalValue earlier + (last.toNat - 48) := by
  simp [decimalValue, Nat.mul_comm]

theorem decimalValue_lt (h : ∀ c ∈ written, c.isDigit = true) : decimalValue written < Nat.pow 10 written.length := by
  induction written using List.reverseRecOn with
  | nil => decide
  | append_singleton earlier last ih =>
    have hlast : last.toNat ≤ 57 := ((isDigit_iff_toNat last).mp (h last (by simp))).2
    have hearlier := ih fun c hc => h c (List.mem_append_left _ hc)
    have hlonger : Nat.pow 10 (earlier.length + 1) = Nat.pow 10 earlier.length * 10 := rfl
    rw [decimalValue_concat, List.length_append, List.length_singleton, hlonger]
    omega

theorem toDigits_toNat_sub {c : Char} (h : c.isDigit = true) : Nat.toDigits 10 (c.toNat - 48) = [c] := by
  obtain ⟨hlow, hhigh⟩ := (isDigit_iff_toNat c).mp h
  have hdigit : c.toNat - 48 < 10 := by omega
  rw [Nat.toDigits_of_lt_base hdigit, List.singleton_inj, ← Char.toNat_inj, Nat.toNat_digitChar_of_lt_ten hdigit]
  omega

/-- Digits without a zero in front of others are the digits of the number that they stand for. -/
theorem toDigits_decimalValue (hdigits : ∀ c ∈ written, c.isDigit = true) (hsome : written ≠ [])
    (hzero : 1 < written.length → written.head? ≠ some '0') : Nat.toDigits 10 (decimalValue written) = written := by
  induction written using List.reverseRecOn with
  | nil => exact absurd rfl hsome
  | append_singleton earlier last ih =>
    have hlast : last.isDigit = true := hdigits last (by simp)
    have hsmall : last.toNat - 48 < 10 := by
      have := ((isDigit_iff_toNat last).mp hlast).2
      omega
    by_cases hfirst : earlier = []
    · subst hfirst
      simpa [decimalValue] using toDigits_toNat_sub hlast
    have hhead : earlier.head? ≠ some '0' := by
      have hlonger : 1 < (earlier ++ [last]).length := by
        have := List.length_pos_iff.mpr hfirst
        simp
        omega
      rw [← List.head?_append_of_ne_nil earlier hfirst]
      exact hzero hlonger
    have hwritten := ih (fun c hc => hdigits c (List.mem_append_left _ hc)) hfirst fun _ => hhead
    have hpositive : 0 < decimalValue earlier := by
      -- a zero would have been written as such
      rw [Nat.pos_iff_ne_zero]
      intro hvalue
      rw [hvalue, Nat.toDigits_zero] at hwritten
      rw [← hwritten] at hhead
      exact hhead rfl
    have happend := Nat.toDigits_append_toDigits (by decide : 1 < 10) hpositive hsmall
    rw [decimalValue_concat, ← happend, hwritten, toDigits_toNat_sub hlast]

/-- Only a zero is written with a zero in front. -/
theorem head?_toDigits (h : n ≠ 0) : (Nat.toDigits 10 n).head? ≠ some '0' := by
  induction n using Nat.strongRecOn with | _ n ih
  by_cases hsmall : n < 10
  · rw [Nat.toDigits_of_lt_base hsmall, List.head?_cons]
    simpa using h
  · have hbase : 10 ≤ n := Nat.not_lt.mp hsmall
    rw [Nat.toDigits_of_base_le (by decide) hbase, List.head?_append_of_ne_nil _ Nat.toDigits_ne_nil]
    exact ih (n / 10) (by omega) (by omega)

theorem digitIn?_ten (c : Char) : digitIn? 10 c = if c.isDigit then some (c.toNat - 48) else none := by
  unfold digitIn?
  by_cases hdigit : c.isDigit
  · have hrange := (isDigit_iff_toNat c).mp hdigit
    have hsmall : c.toNat - '0'.toNat < 10 := by
      rw [show '0'.toNat = 48 from rfl]
      omega
    simp only [hdigit, if_true]
    exact if_pos hsmall
  · simp only [hdigit, Bool.false_eq_true, if_false]
    refine if_neg ?_
    split_ifs <;> omega

theorem valueIn?_ten (written : List Char) :
    valueIn? 10 written =
      if !written.isEmpty && written.all Char.isDigit then some (decimalValue written) else none := by
  have hfold : written.foldlM (fun value digit => (digitIn? 10 digit).map (value * 10 + ·)) 0 =
      if written.all Char.isDigit then some (decimalValue written) else none := by
    induction written using List.reverseRecOn with
    | nil => rfl
    | append_singleton earlier last ih =>
      rw [List.foldlM_append, ih, List.all_append, decimalValue_concat]
      cases earlier.all Char.isDigit <;> cases hlast : last.isDigit <;>
        simp [digitIn?_ten, hlast, Nat.mul_comm]
  unfold valueIn?
  rw [hfold]
  cases written <;> rfl

/-- Zeros in front make no difference. -/
theorem decimalValue_zeros {zeros : List Char} (h : ∀ c ∈ zeros, c = '0') (written : List Char) :
    decimalValue (zeros ++ written) = decimalValue written := by
  induction zeros with
  | nil => rfl
  | cons c zeros ih =>
    rw [← ih fun c hc => h c (List.mem_cons_of_mem _ hc), h c List.mem_cons_self]
    rfl

/-- A number that is not zero is written by its digits, with any zeros in front of them. -/
theorem decimalValue_eq_iff (hdigits : ∀ c ∈ written, c.isDigit = true) (hn : n ≠ 0) :
    decimalValue written = n ↔ ∃ zeros, (∀ c ∈ zeros, c = '0') ∧ written = zeros ++ Nat.toDigits 10 n := by
  constructor
  · intro hvalue
    have hzeros : ∀ c ∈ written.takeWhile (· = '0'), c = '0' := by
      have hall : (written.takeWhile (· = '0')).all (· = '0') = true := List.all_takeWhile
      exact fun c hc => by simpa using List.all_eq_true.mp hall c hc
    have hsplit : written.takeWhile (· = '0') ++ written.dropWhile (· = '0') = written :=
      List.takeWhile_append_dropWhile
    rw [← hsplit, decimalValue_zeros hzeros] at hvalue
    refine ⟨written.takeWhile (· = '0'), hzeros, ?_⟩
    have hsome : written.dropWhile (· = '0') ≠ [] := by
      intro hnone
      rw [hnone] at hvalue
      exact hn hvalue.symm
    have hhead : (written.dropWhile (· = '0')).head? ≠ some '0' := by
      intro hzero
      simpa [hzero] using List.head?_dropWhile_not (· = '0') written
    have hrest : ∀ c ∈ written.dropWhile (· = '0'), c.isDigit = true :=
      fun c hc => hdigits c ((List.dropWhile_suffix _).subset hc)
    rw [← hvalue, toDigits_decimalValue hrest hsome fun _ => hhead, hsplit]
  · rintro ⟨zeros, hzeros, rfl⟩
    rw [decimalValue_zeros hzeros, decimalValue_toDigits]

end OverlayHost.Text
