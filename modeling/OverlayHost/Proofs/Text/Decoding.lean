import OverlayHost.Proofs.Text.Utf8

/-!
# Decoding is the inverse of encoding

Bytes are decoded into characters only just if they are the bytes of these characters: `decode_eq_iff`. So there is one
way to write a character, and no way to write a number that is none.
-/

set_option autoImplicit false

namespace OverlayHost.Text.Utf8

variable {bytes rest : List UInt8} {cs : List Char} {c : Char} {p : Pending} {b b₁ b₂ b₃ : UInt8} {n : Nat}

theorem toNat_ofNat (h : n.isValidChar) : (Char.ofNat n).toNat = n := by
  rw [Char.ofNat, dif_pos h]
  rfl

/-- The bytes of the character with a number. -/
theorem utf8EncodeChar_ofNat (h : n.isValidChar) : String.utf8EncodeChar (Char.ofNat n) =
    if n ≤ 127 then [UInt8.ofNat n]
    else if n ≤ 2047 then [UInt8.ofNat (n / 64 % 32 + 192), UInt8.ofNat (n % 64 + 128)]
    else if n ≤ 65535 then
      [UInt8.ofNat (n / 4096 % 16 + 224), UInt8.ofNat (n / 64 % 64 + 128), UInt8.ofNat (n % 64 + 128)]
    else
      [UInt8.ofNat (n / 262144 % 8 + 240), UInt8.ofNat (n / 4096 % 64 + 128), UInt8.ofNat (n / 64 % 64 + 128),
        UInt8.ofNat (n % 64 + 128)] := by
  rw [String.utf8EncodeChar, Char.toNat_val, toNat_ofNat h]

theorem eq_ofNat_of_toNat (h : b.toNat = n) : UInt8.ofNat n = b := by rw [← h, UInt8.ofNat_toNat]

theorem start_eq (b : UInt8) : start b =
    if b.toNat < 128 then .char (Char.ofNat b.toNat)
    else if b.toNat < 194 then .none
    else if b.toNat < 224 then .pending ⟨b.toNat - 192, 1, 0x80, 0xBF⟩
    else if b.toNat < 240 then
      .pending ⟨b.toNat - 224, 2, if b = 0xE0 then 0xA0 else 0x80, if b = 0xED then 0x9F else 0xBF⟩
    else if b.toNat < 245 then
      .pending ⟨b.toNat - 240, 3, if b = 0xF0 then 0x90 else 0x80, if b = 0xF4 then 0x8F else 0xBF⟩
    else .none := by
  simp only [start, UInt8.lt_iff_toNat_lt, UInt8.reduceToNat]

/-! ## From bytes to characters -/

/-- What goes on with a character and is decoded into characters begins with a byte that may come next. -/
theorem exists_next_of_pending (h : decodeFrom (some p) bytes = cs.map some) :
    ∃ b rest, bytes = b :: rest ∧ p.low.toNat ≤ b.toNat ∧ b.toNat ≤ p.high.toNat ∧
      (p.missing = 1 → ∃ more, cs = Char.ofNat (p.bits * 64 + (b.toNat - 128)) :: more ∧
        decodeFrom none rest = more.map some) ∧
      (p.missing ≠ 1 →
        decodeFrom (some ⟨p.bits * 64 + (b.toNat - 128), p.missing - 1, 0x80, 0xBF⟩) rest = cs.map some) := by
  cases bytes with
  | nil => cases cs <;> simp [decodeFrom] at h
  | cons b rest =>
    rw [decodeFrom] at h
    split at h
    next hrange =>
      rw [Bool.and_eq_true, decide_eq_true_eq, decide_eq_true_eq, UInt8.le_iff_toNat_le, UInt8.le_iff_toNat_le] at hrange
      refine ⟨b, rest, rfl, hrange.1, hrange.2, fun hlast => ?_, fun hmore => ?_⟩
      · dsimp only at h
        rw [if_pos hlast] at h
        cases cs with
        | nil => cases h
        | cons c more =>
          rw [List.map_cons, List.cons.injEq] at h
          exact ⟨more, by rw [← Option.some.inj h.1], h.2⟩
      · dsimp only at h
        rw [if_neg hmore] at h
        exact h
    next => cases cs <;> simp at h

/-- What a first byte says of the bytes that go on with its character. -/
theorem pending_of_start (h : start b = .pending p) :
    (194 ≤ b.toNat ∧ b.toNat < 224 ∧ p = ⟨b.toNat - 192, 1, 0x80, 0xBF⟩) ∨
    (224 ≤ b.toNat ∧ b.toNat < 240 ∧
      p = ⟨b.toNat - 224, 2, if b = 0xE0 then 0xA0 else 0x80, if b = 0xED then 0x9F else 0xBF⟩) ∨
    (240 ≤ b.toNat ∧ b.toNat < 245 ∧
      p = ⟨b.toNat - 240, 3, if b = 0xF0 then 0x90 else 0x80, if b = 0xF4 then 0x8F else 0xBF⟩) := by
  rw [start_eq] at h
  split at h
  next => cases h
  split at h
  next => cases h
  next h194 =>
    split at h
    next h224 =>
      obtain rfl := Start.pending.inj h
      exact .inl ⟨Nat.le_of_not_lt h194, h224, rfl⟩
    next h224 =>
      split at h
      next h240 =>
        obtain rfl := Start.pending.inj h
        exact .inr (.inl ⟨Nat.le_of_not_lt h224, h240, rfl⟩)
      next h240 =>
        split at h
        next h245 =>
          obtain rfl := Start.pending.inj h
          exact .inr (.inr ⟨Nat.le_of_not_lt h240, h245, rfl⟩)
        next => cases h

theorem encodeChar_one (h : start b = .char c) : String.utf8EncodeChar c = [b] := by
  unfold start at h
  split at h
  next hsmall =>
    cases h
    have hsmall : b.toNat < 128 := hsmall
    rw [utf8EncodeChar_ofNat (.inl (by omega)), if_pos (by omega), UInt8.ofNat_toNat]
  next =>
    repeat' split at h
    all_goals cases h

theorem encodeChar_two (hfirst : 194 ≤ b.toNat) (hfirst' : b.toNat < 224) (hlow : 128 ≤ b₁.toNat)
    (hhigh : b₁.toNat ≤ 191) :
    String.utf8EncodeChar (Char.ofNat ((b.toNat - 192) * 64 + (b₁.toNat - 128))) = [b, b₁] := by
  rw [utf8EncodeChar_ofNat (.inl (by omega)), if_neg (by omega), if_pos (by omega),
    eq_ofNat_of_toNat (b := b) (by omega), eq_ofNat_of_toNat (b := b₁) (by omega)]

theorem encodeChar_three (hfirst : 224 ≤ b.toNat) (hfirst' : b.toNat < 240)
    (hlow : (if b = 0xE0 then 0xA0 else 0x80 : UInt8).toNat ≤ b₁.toNat)
    (hhigh : b₁.toNat ≤ (if b = 0xED then 0x9F else 0xBF : UInt8).toNat) (hlow₂ : 128 ≤ b₂.toNat)
    (hhigh₂ : b₂.toNat ≤ 191) :
    String.utf8EncodeChar
      (Char.ofNat (((b.toNat - 224) * 64 + (b₁.toNat - 128)) * 64 + (b₂.toNat - 128))) = [b, b₁, b₂] := by
  have hfew : b.toNat = 224 → 160 ≤ b₁.toNat := by
    intro hb
    rwa [if_pos (UInt8.toNat_inj.mp hb)] at hlow
  have hsurrogate : b.toNat = 237 → b₁.toNat ≤ 159 := by
    intro hb
    rwa [if_pos (UInt8.toNat_inj.mp hb)] at hhigh
  have hlow : 128 ≤ b₁.toNat := by
    refine Nat.le_trans ?_ hlow
    split <;> decide
  have hhigh : b₁.toNat ≤ 191 := by
    refine Nat.le_trans hhigh ?_
    split <;> decide
  rw [utf8EncodeChar_ofNat (by unfold Nat.isValidChar; omega), if_neg (by omega), if_neg (by omega), if_pos (by omega),
    eq_ofNat_of_toNat (b := b) (by omega), eq_ofNat_of_toNat (b := b₁) (by omega),
    eq_ofNat_of_toNat (b := b₂) (by omega)]

theorem encodeChar_four (hfirst : 240 ≤ b.toNat) (hfirst' : b.toNat < 245)
    (hlow : (if b = 0xF0 then 0x90 else 0x80 : UInt8).toNat ≤ b₁.toNat)
    (hhigh : b₁.toNat ≤ (if b = 0xF4 then 0x8F else 0xBF : UInt8).toNat) (hlow₂ : 128 ≤ b₂.toNat)
    (hhigh₂ : b₂.toNat ≤ 191) (hlow₃ : 128 ≤ b₃.toNat) (hhigh₃ : b₃.toNat ≤ 191) :
    String.utf8EncodeChar
      (Char.ofNat ((((b.toNat - 240) * 64 + (b₁.toNat - 128)) * 64 + (b₂.toNat - 128)) * 64 + (b₃.toNat - 128))) =
        [b, b₁, b₂, b₃] := by
  have hfew : b.toNat = 240 → 144 ≤ b₁.toNat := by
    intro hb
    rwa [if_pos (UInt8.toNat_inj.mp hb)] at hlow
  have hmany : b.toNat = 244 → b₁.toNat ≤ 143 := by
    intro hb
    rwa [if_pos (UInt8.toNat_inj.mp hb)] at hhigh
  have hlow : 128 ≤ b₁.toNat := by
    refine Nat.le_trans ?_ hlow
    split <;> decide
  have hhigh : b₁.toNat ≤ 191 := by
    refine Nat.le_trans hhigh ?_
    split <;> decide
  rw [utf8EncodeChar_ofNat (by unfold Nat.isValidChar; omega), if_neg (by omega), if_neg (by omega), if_neg (by omega),
    eq_ofNat_of_toNat (b := b) (by omega), eq_ofNat_of_toNat (b := b₁) (by omega),
    eq_ofNat_of_toNat (b := b₂) (by omega), eq_ofNat_of_toNat (b := b₃) (by omega)]

/-- Bytes that are decoded into characters begin with the bytes of the first one. -/
theorem exists_first_of_decoded (h : decodeFrom none (b :: bytes) = cs.map some) :
    ∃ c more rest, cs = c :: more ∧ b :: bytes = String.utf8EncodeChar c ++ rest ∧
      decodeFrom none rest = more.map some := by
  rw [decodeFrom] at h
  cases hstart : start b with
  | char c =>
    rw [hstart] at h
    cases cs with
    | nil => cases h
    | cons c' more =>
      rw [List.map_cons, List.cons.injEq] at h
      obtain rfl := Option.some.inj h.1
      exact ⟨c, more, bytes, rfl, by rw [encodeChar_one hstart, List.singleton_append], h.2⟩
  | none =>
    rw [hstart] at h
    cases cs <;> simp at h
  | pending p =>
    rw [hstart] at h
    dsimp only at h
    obtain ⟨b₁, bytes₁, rfl, hlow, hhigh, hlast, hmore⟩ := exists_next_of_pending h
    rcases pending_of_start hstart with ⟨hfirst, hfirst', rfl⟩ | ⟨hfirst, hfirst', rfl⟩ | ⟨hfirst, hfirst', rfl⟩
    · obtain ⟨more, rfl, hrest⟩ := hlast rfl
      exact ⟨_, more, bytes₁, rfl, by rw [encodeChar_two hfirst hfirst' hlow hhigh]; rfl, hrest⟩
    · obtain ⟨b₂, bytes₂, rfl, hlow₂, hhigh₂, hlast, -⟩ := exists_next_of_pending (hmore (by simp))
      obtain ⟨more, rfl, hrest⟩ := hlast rfl
      exact ⟨_, more, bytes₂, rfl, by rw [encodeChar_three hfirst hfirst' hlow hhigh hlow₂ hhigh₂]; rfl, hrest⟩
    · obtain ⟨b₂, bytes₂, rfl, hlow₂, hhigh₂, -, hmore⟩ := exists_next_of_pending (hmore (by simp))
      obtain ⟨b₃, bytes₃, rfl, hlow₃, hhigh₃, hlast, -⟩ := exists_next_of_pending (hmore (by simp))
      obtain ⟨more, rfl, hrest⟩ := hlast rfl
      exact ⟨_, more, bytes₃, rfl,
        by rw [encodeChar_four hfirst hfirst' hlow hhigh hlow₂ hhigh₂ hlow₃ hhigh₃]; rfl, hrest⟩

theorem eq_encode_of_decode (h : decode bytes = cs.map some) : bytes = encode cs := by
  unfold decode at h
  induction cs generalizing bytes with
  | nil =>
    cases bytes with
    | nil => rfl
    | cons b bytes =>
      obtain ⟨c, more, rest, hnone, -, -⟩ := exists_first_of_decoded h
      cases hnone
  | cons c cs ih =>
    cases bytes with
    | nil => cases h
    | cons b bytes =>
      obtain ⟨c', more, rest, hsame, hbytes, hrest⟩ := exists_first_of_decoded h
      obtain ⟨rfl, rfl⟩ := List.cons.inj hsame
      rw [hbytes, ih hrest, encode_cons]

/-! ## From characters to bytes -/

variable {bits d m : Nat} {low high : UInt8}

theorem toNat_continuation (hd : d < 64) : (UInt8.ofNat (d + 128)).toNat = d + 128 := by
  rw [UInt8.toNat_ofNat']
  omega

theorem mem_range_of_continuation (hd : d < 64) (hlow : low.toNat ≤ d + 128) (hhigh : d + 128 ≤ high.toNat) :
    (decide (low ≤ UInt8.ofNat (d + 128)) && decide (UInt8.ofNat (d + 128) ≤ high)) = true := by
  rw [Bool.and_eq_true, decide_eq_true_eq, decide_eq_true_eq, UInt8.le_iff_toNat_le, UInt8.le_iff_toNat_le,
    toNat_continuation hd]
  exact ⟨hlow, hhigh⟩

theorem decodeFrom_last (hd : d < 64) (hlow : low.toNat ≤ d + 128) (hhigh : d + 128 ≤ high.toNat) :
    decodeFrom (some ⟨bits, 1, low, high⟩) (UInt8.ofNat (d + 128) :: rest) =
      some (Char.ofNat (bits * 64 + d)) :: decodeFrom none rest := by
  rw [decodeFrom, if_pos (mem_range_of_continuation hd hlow hhigh), toNat_continuation hd, Nat.add_sub_cancel]
  dsimp only
  rw [if_pos rfl]

theorem decodeFrom_more (hd : d < 64) (hlow : low.toNat ≤ d + 128) (hhigh : d + 128 ≤ high.toNat) :
    decodeFrom (some ⟨bits, m + 2, low, high⟩) (UInt8.ofNat (d + 128) :: rest) =
      decodeFrom (some ⟨bits * 64 + d, m + 1, 0x80, 0xBF⟩) rest := by
  rw [decodeFrom, if_pos (mem_range_of_continuation hd hlow hhigh), toNat_continuation hd, Nat.add_sub_cancel]
  dsimp only
  rw [if_neg (by omega), show m + 2 - 1 = m + 1 from rfl]

theorem decodeFrom_two (h : 128 ≤ n) (h' : n < 2048) :
    decodeFrom none (UInt8.ofNat (n / 64 % 32 + 192) :: UInt8.ofNat (n % 64 + 128) :: rest) =
      some (Char.ofNat n) :: decodeFrom none rest := by
  have hb : (UInt8.ofNat (n / 64 % 32 + 192)).toNat = n / 64 + 192 := by
    rw [UInt8.toNat_ofNat']
    omega
  have hbits : (n / 64 + 192 - 192) * 64 + n % 64 = n := by omega
  rw [decodeFrom, start_eq, hb, if_neg (by omega), if_neg (by omega), if_pos (by omega)]
  dsimp only
  rw [decodeFrom_last (Nat.mod_lt _ (by decide)) (Nat.le_add_left _ _) (by simp; omega), hbits]

/-- The byte after the first one of three is bounded below where fewer bytes would do, and above where surrogates begin. -/
theorem decodeFrom_three (h : 2048 ≤ n) (h' : n < 65536) (hvalid : n.isValidChar) :
    decodeFrom none (UInt8.ofNat (n / 4096 % 16 + 224) :: UInt8.ofNat (n / 64 % 64 + 128) ::
      UInt8.ofNat (n % 64 + 128) :: rest) = some (Char.ofNat n) :: decodeFrom none rest := by
  have hb : (UInt8.ofNat (n / 4096 % 16 + 224)).toNat = n / 4096 + 224 := by
    rw [UInt8.toNat_ofNat']
    omega
  have hbits : ((n / 4096 + 224 - 224) * 64 + n / 64 % 64) * 64 + n % 64 = n := by omega
  rw [decodeFrom, start_eq, hb, if_neg (by omega), if_neg (by omega), if_neg (by omega), if_pos (by omega)]
  dsimp only
  rw [decodeFrom_more (Nat.mod_lt _ (by decide)) ?_ ?_,
    decodeFrom_last (Nat.mod_lt _ (by decide)) (Nat.le_add_left _ _) (by simp; omega), hbits]
  · split
    next hfew =>
      have hfirst : n / 4096 + 224 = 224 := by rw [← hb, hfew, UInt8.toNat_ofNat]
      simp
      omega
    next => simp
  · split
    next hsurrogate =>
      have hfirst : n / 4096 + 224 = 237 := by rw [← hb, hsurrogate, UInt8.toNat_ofNat]
      simp
      rcases hvalid with hvalid | hvalid <;> omega
    next =>
      simp
      omega

/-- The byte after the first one of four is bounded below where fewer bytes would do, and above where the characters end. -/
theorem decodeFrom_four (h : 65536 ≤ n) (h' : n < 1114112) :
    decodeFrom none (UInt8.ofNat (n / 262144 % 8 + 240) :: UInt8.ofNat (n / 4096 % 64 + 128) ::
      UInt8.ofNat (n / 64 % 64 + 128) :: UInt8.ofNat (n % 64 + 128) :: rest) =
      some (Char.ofNat n) :: decodeFrom none rest := by
  have hb : (UInt8.ofNat (n / 262144 % 8 + 240)).toNat = n / 262144 + 240 := by
    rw [UInt8.toNat_ofNat']
    omega
  have hbits : (((n / 262144 + 240 - 240) * 64 + n / 4096 % 64) * 64 + n / 64 % 64) * 64 + n % 64 = n := by omega
  rw [decodeFrom, start_eq, hb, if_neg (by omega), if_neg (by omega), if_neg (by omega), if_neg (by omega),
    if_pos (by omega)]
  dsimp only
  rw [decodeFrom_more (Nat.mod_lt _ (by decide)) ?_ ?_,
    decodeFrom_more (Nat.mod_lt _ (by decide)) (Nat.le_add_left _ _) (by simp; omega),
    decodeFrom_last (Nat.mod_lt _ (by decide)) (Nat.le_add_left _ _) (by simp; omega), hbits]
  · split
    next hfew =>
      have hfirst : n / 262144 + 240 = 240 := by rw [← hb, hfew, UInt8.toNat_ofNat]
      simp
      omega
    next => simp
  · split
    next hmany =>
      have hfirst : n / 262144 + 240 = 244 := by rw [← hb, hmany, UInt8.toNat_ofNat]
      simp
      omega
    next =>
      simp
      omega

theorem decodeFrom_encodeChar (c : Char) (rest : List UInt8) :
    decodeFrom none (String.utf8EncodeChar c ++ rest) = some c :: decodeFrom none rest := by
  have hvalid : c.toNat.isValidChar := c.valid
  rw [← Char.ofNat_toNat c]
  generalize c.toNat = n at hvalid
  rw [utf8EncodeChar_ofNat hvalid]
  have hbound : n < 1114112 := by rcases hvalid with h | h <;> omega
  split
  next hone =>
    have hb : (UInt8.ofNat n).toNat = n := by
      rw [UInt8.toNat_ofNat']
      omega
    rw [List.singleton_append, decodeFrom, start_eq, hb, if_pos (by omega)]
  split
  next hone htwo => exact decodeFrom_two (by omega) (by omega)
  split
  next htwo hthree => exact decodeFrom_three (by omega) (by omega) hvalid
  next htwo hthree => exact decodeFrom_four (by omega) hbound

theorem decode_encode (cs : List Char) : decode (encode cs) = cs.map some := by
  unfold decode
  induction cs with
  | nil => rfl
  | cons c cs ih => rw [encode_cons, decodeFrom_encodeChar, ih, List.map_cons]

/-- Bytes are decoded into characters alone just if they are the bytes of the characters. -/
theorem decode_eq_iff : decode bytes = cs.map some ↔ bytes = encode cs := by
  refine ⟨eq_encode_of_decode, ?_⟩
  rintro rfl
  exact decode_encode cs

end OverlayHost.Text.Utf8
