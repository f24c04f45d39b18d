import OverlayHost.Proofs.Net.Bits
import OverlayHost.Vip

/-!
# Where the address of a name lies

The address of a name has the fixed bits of the network and, after them, the bits of the digest at the same places
(`bit_ofName`), although it is put together octet by octet and a network may end inside an octet. What follows from that
for networks, names and digests is `ofName_lies`.
-/

set_option autoImplicit false

namespace OverlayHost.Vip

open Net

variable {network : Network} {bytes : List UInt8} {i : Nat}

theorem getMsbD_mixed (wildcard free fixed : UInt8) (hi : i < 8) :
    (mixed wildcard free fixed).toBitVec.getMsbD i =
      if wildcard.toBitVec.getMsbD i then free.toBitVec.getMsbD i else fixed.toBitVec.getMsbD i := by
  have hbits : (mixed wildcard free fixed).toBitVec.getMsbD i =
      ((free.toBitVec.getMsbD i && wildcard.toBitVec.getMsbD i) ||
        (fixed.toBitVec.getMsbD i && !wildcard.toBitVec.getMsbD i)) := by
    simp [mixed, hi]
  rw [hbits]
  cases wildcard.toBitVec.getMsbD i <;> simp

/-- Each bit of a place is a bit of the network or one of the bytes. -/
theorem bit_place (network : Network) (bytes : List UInt8) (hi : i < 32) :
    (place network bytes).bit i = if i < network.length then network.address.bit i else bitOf bytes i := by
  have hwildcard : bitOf (Ipv4.mk network.truncate.hostMask).octets i = decide (network.length ≤ i) := by
    rw [Ipv4.bitOf_octets _ hi]
    exact network.bit_hostMask hi
  have hbase : bitOf network.truncate.address.octets i = (network.address.bit i && decide (i < network.length)) := by
    rw [Ipv4.bitOf_octets _ hi, network.bit_truncate hi]
  have hoctet : bitOf [octet network bytes 0, octet network bytes 1, octet network bytes 2, octet network bytes 3] i =
      (octet network bytes (i / 8)).toBitVec.getMsbD (i % 8) := by
    have hk : i / 8 < 4 := by omega
    rw [bitOf]
    generalize i / 8 = k at hk
    interval_cases k <;> rfl
  rw [place, Ipv4.bit_ofOctets _ _ _ _ hi, hoctet, octet, getMsbD_mixed _ _ _ (Nat.mod_lt _ (by decide))]
  simp only [bitOf] at hwildcard hbase ⊢
  rw [hwildcard, hbase]
  by_cases hfixed : i < network.length
  · simp [hfixed, Nat.not_le.mpr hfixed]
  · simp [hfixed, Nat.not_lt.mp hfixed]

theorem contains_place (network : Network) (bytes : List UInt8) : network.Contains (place network bytes) := by
  rw [Network.contains_iff]
  intro i hi
  have hlength := network.length_le
  rw [bit_place network bytes (by omega), if_pos hi]

/-- Two places agree if the networks do in the fixed bits, and the bytes in the free ones. -/
theorem place_congr {other : Network} {more : List UInt8} (hlength : other.length = network.length)
    (hfixed : ∀ i < network.length, other.address.bit i = network.address.bit i)
    (hfree : ∀ i < 32, network.length ≤ i → bitOf more i = bitOf bytes i) : place other more = place network bytes := by
  apply Ipv4.ext_bit
  intro i hi
  rw [bit_place _ _ hi, bit_place _ _ hi, hlength]
  split
  next h => exact hfixed i h
  next h => exact hfree i hi (Nat.not_lt.mp h)

theorem place_truncate (network : Network) (bytes : List UInt8) :
    place network.truncate bytes = place network bytes := by
  have hlength := network.length_le
  refine place_congr rfl (fun i hi => ?_) fun _ _ _ => rfl
  rw [network.bit_truncate (by omega), decide_eq_true hi, Bool.and_true]

theorem get_truncate (network : Network) (name : String) : get network.truncate name = get network name :=
  place_truncate network _

/-- The bits of an address are in the first four bytes. -/
theorem bitOf_congr {more : List UInt8} (h : more.take 4 = bytes.take 4) (hi : i < 32) : bitOf more i = bitOf bytes i := by
  have hk : i / 8 < 4 := by omega
  have hbyte (all : List UInt8) : (all.take 4).getD (i / 8) 0 = all.getD (i / 8) 0 := by
    simp [List.getD_eq_getElem?_getD, hk]
  rw [bitOf, bitOf, ← hbyte more, ← hbyte bytes, h]

theorem place_of_contains {address : Ipv4} (h : network.Contains address) (hbytes : bytes.take 4 = address.octets) :
    place network bytes = address := by
  apply Ipv4.ext_bit
  intro i hi
  rw [bit_place network bytes hi]
  split
  next hfixed => exact (Network.contains_iff.mp h i hfixed).symm
  next =>
    have hbits : bitOf bytes i = bitOf address.octets i := bitOf_congr hbytes hi
    rw [hbits, Ipv4.bitOf_octets address hi]

/-- A network with all its addresses in another one fixes as many bits as this, or more. -/
theorem length_le_of_contains {inner : Network} (h : ∀ address, inner.Contains address → network.Contains address) :
    network.length ≤ inner.length := by
  by_contra hlt
  have hlength := network.length_le
  have hi : inner.length < 32 := by omega
  -- the first bit that is free in the inner network is fixed in the outer one
  have hfixed (bytes : List UInt8) : bitOf bytes inner.length = network.address.bit inner.length := by
    have hbit := Network.contains_iff.mp (h _ (contains_place inner bytes)) inner.length (by omega)
    rwa [bit_place inner bytes hi, if_neg (lt_irrefl _)] at hbit
  have hclear : bitOf [] inner.length = false := by simp [bitOf]
  have hset : bitOf [255, 255, 255, 255] inner.length = true := by
    generalize inner.length = i at hi
    decide +revert
  have hsame := (hfixed []).trans (hfixed [255, 255, 255, 255]).symm
  rw [hclear, hset] at hsame
  exact Bool.false_ne_true hsame

theorem bit_ofName (digest : List UInt8 → List UInt8) (network : Network) (name : String) (hi : i < 32) :
    (ofName digest network name).bit i =
      if i < network.length then network.address.bit i else bitOf (digest name.toUTF8.toList) i :=
  bit_place network _ hi

/-- The address of a name has the fixed bits of the network and the free ones from the first four bytes of the digest. So
it lies in the network, depends on the fixed bits alone, can be any address there, is the same for names with the same first
digest bytes, and keeps its free bits in a network that contains this one. -/
theorem ofName_lies (digest : List UInt8 → List UInt8) (network : Network) (name : String) :
    let address := ofName digest network name
    let bytes (name : String) := digest name.toUTF8.toList
    (∀ i < 32, address.bit i = if i < network.length then network.address.bit i else bitOf ((bytes name).take 4) i) ∧
      network.Contains address ∧
      (∀ other : Network, other.length = network.length →
        (∀ i < network.length, other.address.bit i = network.address.bit i) → ofName digest other name = address) ∧
      (∀ place, network.Contains place → ∃ digest' : List UInt8 → List UInt8,
        (∀ message, (digest' message).length = 32) ∧ ofName digest' network name = place) ∧
      (∀ other : String, (bytes other).take 4 = (bytes name).take 4 → ofName digest network other = address) ∧
      ∀ inner : Network, (∀ place, inner.Contains place → network.Contains place) →
        ∀ i < 32, inner.length ≤ i → (ofName digest inner name).bit i = address.bit i := by
  intro address bytes
  refine ⟨?bits, contains_place network _, ?fixed, ?onto, ?collide, ?nested⟩
  case bits =>
    intro i hi
    have hbits : bitOf ((bytes name).take 4) i = bitOf (bytes name) i :=
      bitOf_congr (by rw [List.take_take, Nat.min_self]) hi
    rw [hbits]
    exact bit_ofName digest network name hi
  case fixed =>
    intro other hlength hfixed
    exact place_congr hlength hfixed fun _ _ _ => rfl
  case onto =>
    intro place hplace
    refine ⟨fun _ => place.octets ++ List.replicate 28 0, fun _ => rfl, ?_⟩
    exact place_of_contains hplace rfl
  case collide =>
    intro other hbytes
    exact place_congr rfl (fun _ _ => rfl) fun i hi _ => bitOf_congr hbytes hi
  case nested =>
    intro inner hinner i hi hfree
    -- what is free in the inner network is free in the outer one
    have houter := length_le_of_contains hinner
    rw [bit_ofName digest inner name hi, bit_ofName digest network name hi, if_neg (Nat.not_lt.mpr hfree),
      if_neg (Nat.not_lt.mpr (houter.trans hfree))]

end OverlayHost.Vip
