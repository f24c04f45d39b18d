import OverlayHost.Proofs.Net.Ipv4
import Mathlib

/-!
# The bits of addresses and networks

Bits are counted from the most significant one, across the octets of an address as within its word. The addresses of a
network go from its first one, where the free bits are clear, to its last one, where they are set; `contains_iff` says that
these are the addresses with the fixed bits of the network.
-/

set_option autoImplicit false

namespace OverlayHost.Net

/-- A bit of bytes, counted from the most significant one of the first byte. -/
def bitOf (bytes : List UInt8) (i : Nat) : Bool := (bytes.getD (i / 8) 0).toBitVec.getMsbD (i % 8)

variable {i : Nat}

namespace Ipv4

/-- A bit of an address, counted from the most significant one. -/
def bit (address : Ipv4) (i : Nat) : Bool := address.word.toBitVec.getMsbD i

theorem bit_eq_testBit (address : Ipv4) (hi : i < 32) : address.bit i = address.word.toNat.testBit (31 - i) := by
  rw [bit, BitVec.getMsbD_eq_getLsbD, decide_eq_true hi, Bool.true_and]
  rfl

theorem ext_bit {a b : Ipv4} (h : ∀ i < 32, a.bit i = b.bit i) : a = b := by
  have hword : a.word.toBitVec = b.word.toBitVec := BitVec.eq_of_getMsbD_eq fun i hi => h i hi
  cases a
  cases b
  exact congrArg mk (UInt32.toBitVec_inj.mp hword)

theorem getMsbD_eq_testBit (octet : UInt8) (hi : i < 8) : octet.toBitVec.getMsbD i = octet.toNat.testBit (7 - i) := by
  rw [BitVec.getMsbD_eq_getLsbD, decide_eq_true hi, Bool.true_and]
  rfl

/-- An octet of an address is what is left of its word when the octets after it are shifted out. -/
theorem exists_shift (address : Ipv4) {k : Nat} (hk : k < 4) :
    ∃ shift : UInt32, shift.toNat = 24 - 8 * k ∧ address.octets.getD k 0 = (address.word >>> shift).toUInt8 := by
  interval_cases k
  · exact ⟨24, rfl, rfl⟩
  · exact ⟨16, rfl, rfl⟩
  · exact ⟨8, rfl, rfl⟩
  · exact ⟨0, rfl, by rw [UInt32.shiftRight_zero]; rfl⟩

/-- The bits of an address are those of its octets, one after the other. -/
theorem bitOf_octets (address : Ipv4) (hi : i < 32) : bitOf address.octets i = address.bit i := by
  have hj : i % 8 < 8 := Nat.mod_lt _ (by decide)
  obtain ⟨shift, hshift, hoctet⟩ := exists_shift address (k := i / 8) (by omega)
  have hsmall : shift.toNat % 32 = 24 - 8 * (i / 8) := by omega
  have hplace : 24 - 8 * (i / 8) + (7 - i % 8) = 31 - i := by omega
  have hlow : 7 - i % 8 < 8 := by omega
  rw [bit_eq_testBit address hi, bitOf, getMsbD_eq_testBit _ hj, hoctet, UInt32.toNat_toUInt8, UInt32.toNat_shiftRight,
    hsmall, Nat.testBit_mod_two_pow _ 8, decide_eq_true hlow, Bool.true_and, Nat.testBit_shiftRight, hplace]

theorem bit_ofOctets (a b c d : UInt8) (hi : i < 32) : (ofOctets a b c d).bit i = bitOf [a, b, c, d] i := by
  rw [← bitOf_octets _ hi, octets_ofOctets]

end Ipv4

namespace Network

variable {network : Network} {address : Ipv4}

/-! ## Masks -/

theorem toNat_hostMask (network : Network) : network.hostMask.toNat = 2 ^ (32 - network.length) - 1 := by
  have hle : 2 ^ (32 - network.length) ≤ 2 ^ 32 := Nat.pow_le_pow_right (by decide) (by omega)
  have hpos : 0 < 2 ^ (32 - network.length) := Nat.two_pow_pos _
  exact UInt32.toNat_ofNat_of_lt (by simp [UInt32.size]; omega)

theorem bit_hostMask (network : Network) (hi : i < 32) :
    (Ipv4.mk network.hostMask).bit i = decide (network.length ≤ i) := by
  have hlength := network.length_le
  rw [Ipv4.bit_eq_testBit _ hi, toNat_hostMask, Nat.testBit_two_pow_sub_one]
  exact decide_eq_decide.mpr (by omega)

theorem bit_truncate (network : Network) (hi : i < 32) :
    network.truncate.address.bit i = (network.address.bit i && decide (i < network.length)) := by
  have hmask : network.hostMask.toBitVec.getMsbD i = decide (network.length ≤ i) := bit_hostMask network hi
  have hbits : network.truncate.address.bit i =
      (network.address.bit i && (decide (i < 32) && !network.hostMask.toBitVec.getMsbD i)) := by
    rw [← BitVec.getMsbD_not]
    exact BitVec.getMsbD_and
  rw [hbits, hmask, decide_eq_true hi, Bool.true_and, ← decide_not, decide_eq_decide.mpr Nat.not_le]

/-! ## Ranges -/

/-- The address lies between the first and the last one of the network. -/
def Contains (network : Network) (address : Ipv4) : Prop :=
  network.truncate.address.word ≤ address.word ∧ address.word ≤ network.truncate.address.word ||| network.hostMask

theorem testBit_of_le (word : UInt32) {j : Nat} (hj : 32 ≤ j) : word.toNat.testBit j = false :=
  Nat.testBit_lt_two_pow (lt_of_lt_of_le word.toNat_lt (Nat.pow_le_pow_right (by decide) hj))

theorem toNat_truncate (network : Network) :
    network.truncate.address.word.toNat =
      2 ^ (32 - network.length) * (network.address.word.toNat / 2 ^ (32 - network.length)) := by
  have hlength := network.length_le
  apply Nat.eq_of_testBit_eq
  intro j
  rw [Nat.testBit_two_pow_mul, ← Nat.shiftRight_eq_div_pow, Nat.testBit_shiftRight]
  by_cases hj : j < 32
  · have hplace : 31 - (31 - j) = j := by omega
    have hbit := bit_truncate network (i := 31 - j) (by omega)
    rw [Ipv4.bit_eq_testBit _ (by omega), Ipv4.bit_eq_testBit _ (by omega), hplace] at hbit
    rw [hbit]
    by_cases hfixed : 32 - network.length ≤ j
    · simp [hfixed, show 31 - j < network.length by omega]
    · simp [hfixed, show ¬ 31 - j < network.length by omega]
  · rw [testBit_of_le _ (by omega)]
    by_cases hfixed : 32 - network.length ≤ j
    · simp [hfixed, testBit_of_le network.address.word (j := j) (by omega)]
    · simp [hfixed]

theorem toNat_last (network : Network) :
    (network.truncate.address.word ||| network.hostMask).toNat =
      network.truncate.address.word.toNat + (2 ^ (32 - network.length) - 1) := by
  have hpos : 0 < 2 ^ (32 - network.length) := Nat.two_pow_pos _
  rw [UInt32.toNat_or, toNat_hostMask, toNat_truncate]
  exact (Nat.two_pow_add_eq_or_of_lt (by omega) _).symm

/-- Two addresses have the same first bits just if they are in the same block. -/
theorem div_eq_div_iff {a b : Ipv4} {n : Nat} (hn : n ≤ 32) :
    a.word.toNat / 2 ^ (32 - n) = b.word.toNat / 2 ^ (32 - n) ↔ ∀ i < n, a.bit i = b.bit i := by
  constructor
  · intro h i hi
    have hbit := congrArg (Nat.testBit · (n - 1 - i)) h
    have hplace : 32 - n + (n - 1 - i) = 31 - i := by omega
    simp only [← Nat.shiftRight_eq_div_pow, Nat.testBit_shiftRight, hplace] at hbit
    rw [Ipv4.bit_eq_testBit _ (by omega), Ipv4.bit_eq_testBit _ (by omega), hbit]
  · intro h
    apply Nat.eq_of_testBit_eq
    intro j
    rw [← Nat.shiftRight_eq_div_pow, ← Nat.shiftRight_eq_div_pow, Nat.testBit_shiftRight, Nat.testBit_shiftRight]
    by_cases hj : 32 - n + j < 32
    · have hplace : 31 - (31 - (32 - n + j)) = 32 - n + j := by omega
      have hbit := h (31 - (32 - n + j)) (by omega)
      rwa [Ipv4.bit_eq_testBit _ (by omega), Ipv4.bit_eq_testBit _ (by omega), hplace] at hbit
    · rw [testBit_of_le _ (by omega), testBit_of_le _ (by omega)]

/-- The addresses of a network are those with its fixed bits. -/
theorem contains_iff : network.Contains address ↔ ∀ i < network.length, address.bit i = network.address.bit i := by
  have hpos : 0 < 2 ^ (32 - network.length) := Nat.two_pow_pos _
  rw [← div_eq_div_iff network.length_le, Contains, UInt32.le_iff_toNat_le, UInt32.le_iff_toNat_le, toNat_last,
    toNat_truncate, Nat.div_eq_iff hpos, Nat.mul_comm, Nat.add_sub_assoc hpos]

end Network

end OverlayHost.Net
