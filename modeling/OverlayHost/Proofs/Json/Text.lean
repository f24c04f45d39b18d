import OverlayHost.Proofs.Json.Skip

/-!
# What a text is read as

A text is read as the characters that it spells, and read at all just if it spells any: if its bytes are UTF-8 and no half
of a pair of surrogates stands alone. So a text that is read could have been skipped (`isText_of_spells`), but not the other
way round.
-/

set_option autoImplicit false

namespace OverlayHost.Json

open Grammar

variable {rest bytes : List UInt8} {cursor : Cursor} {c : Char} {cs : List Char} {n : Nat}

/-! ## Escapes -/

theorem arrives_between {expected : Char} (hexpected : expected.toNat < 256) :
    Arrives (Text.between expected cursor) rest ↔ cursor.rest = ascii expected :: rest := by
  unfold Text.between
  constructor
  · intro h
    split at h
    next => exact absurd h Cursor.not_arrives_here
    next found hpeek =>
      split at h
      next hsame => rw [Cursor.rest_of_peek? hpeek, arrives_ok.mp h, hsame]
      next => exact absurd h Cursor.not_arrives_here
  · intro hrest
    rw [Cursor.peek?_of_rest hrest hexpected]
    dsimp only
    rw [if_pos rfl]
    exact arrives_ok.mpr (Cursor.rest_step_of_cons hrest)

theorem isLeading_of_isTrailing (h : Text.isTrailing n = true) : Text.isLeading n = false := by
  simp only [Text.isTrailing, Text.isLeading, Bool.and_eq_true, decide_eq_true_eq, Bool.and_eq_false_iff,
    decide_eq_false_iff_not] at h ⊢
  omega

theorem returns_codePoint (cursor : Cursor) :
    Returns (Text.codePoint cursor) c rest ↔ ∃ digits, IsCodePoint digits c ∧ cursor.rest = digits ++ rest := by
  unfold Text.codePoint
  constructor
  · intro h
    obtain ⟨⟨first, afterFirst⟩, hfirst, h⟩ := returns_bind.mp h
    obtain ⟨digits, hdigits, hrest⟩ := (returns_fourDigits _).mp ⟨afterFirst, hfirst, rfl⟩
    dsimp only at h
    split at h
    next => exact absurd h Cursor.not_returns_here
    next htrailing =>
      split at h
      next hleading =>
        obtain ⟨afterBackslash, hbackslash, h⟩ := returns_bind.mp h
        obtain ⟨afterLetter, hletter, h⟩ := returns_bind.mp h
        obtain ⟨⟨second, afterSecond⟩, hsecond, h⟩ := returns_bind.mp h
        have hbackslash := (arrives_between (by decide)).mp ⟨afterBackslash, hbackslash, rfl⟩
        have hletter := (arrives_between (by decide)).mp ⟨afterLetter, hletter, rfl⟩
        obtain ⟨digits', hdigits', hmore⟩ := (returns_fourDigits _).mp ⟨afterSecond, hsecond, rfl⟩
        dsimp only at h
        split at h
        next htrailing =>
          obtain ⟨rfl, hend⟩ := returns_ok.mp h
          refine ⟨_, .pair hdigits hleading hdigits' htrailing, ?_⟩
          rw [hrest, hbackslash, hletter, hmore, hend]
          simp
        next => exact absurd h Cursor.not_returns_here
      next hleading =>
        obtain ⟨rfl, hend⟩ := returns_ok.mp h
        exact ⟨digits, .unit hdigits (by simpa using hleading) (by simpa using htrailing), by rw [hrest, hend]⟩
  · rintro ⟨digits, hdigits, hrest⟩
    cases hdigits with
    | unit hdigits hleading htrailing =>
      obtain ⟨after, hafter, hend⟩ := (returns_fourDigits _).mpr ⟨_, hdigits, hrest⟩
      refine returns_bind.mpr ⟨_, hafter, ?_⟩
      dsimp only
      rw [if_neg (by simp [htrailing]), if_neg (by simp [hleading])]
      exact returns_ok.mpr ⟨rfl, hend⟩
    | @pair first second n m hfirst hleading hsecond htrailing =>
      have hlone : Text.isTrailing n = false := by
        by_contra h
        rw [isLeading_of_isTrailing (by simpa using h)] at hleading
        cases hleading
      rw [List.append_assoc, List.cons_append, List.cons_append] at hrest
      obtain ⟨afterFirst, hafterFirst, hend⟩ := (returns_fourDigits _).mpr ⟨_, hfirst, hrest⟩
      obtain ⟨afterBackslash, hbackslash, hend⟩ := (arrives_between (by decide)).mpr hend
      obtain ⟨afterLetter, hletter, hend⟩ := (arrives_between (by decide)).mpr hend
      obtain ⟨afterSecond, hafterSecond, hend⟩ := (returns_fourDigits _).mpr ⟨_, hsecond, hend⟩
      refine returns_bind.mpr ⟨_, hafterFirst, ?_⟩
      dsimp only
      rw [if_neg (by simp [hlone]), if_pos hleading]
      refine returns_bind.mpr ⟨_, hbackslash, returns_bind.mpr ⟨_, hletter, returns_bind.mpr ⟨_, hafterSecond, ?_⟩⟩⟩
      dsimp only
      rw [if_pos htrailing]
      exact returns_ok.mpr ⟨rfl, hend⟩

theorem toNat_lt_of_escaped? {letter : Char} (h : Text.escaped? letter = some c) : letter.toNat < 256 ∧ letter ≠ 'u' :=
  toNat_lt_of_mem_escapes ((isSome_escaped?_iff letter).mp (by rw [h]; rfl))

theorem returns_escape (cursor : Cursor) :
    Returns (Text.escape cursor) c rest ↔ ∃ escape, StandsFor escape c ∧ cursor.rest = escape ++ rest := by
  unfold Text.escape
  constructor
  · intro h
    split at h
    next => exact absurd h Cursor.not_returns_here
    next hpeek =>
      obtain ⟨digits, hdigits, hrest⟩ := (returns_codePoint _).mp h
      exact ⟨_, .codePoint hdigits, by rw [Cursor.rest_of_peek? hpeek, hrest, List.cons_append]⟩
    next letter _ hpeek =>
      split at h
      next hsome =>
        obtain ⟨rfl, hrest⟩ := returns_ok.mp h
        exact ⟨_, .letter hsome, by rw [Cursor.rest_of_peek? hpeek, hrest, List.singleton_append]⟩
      next => exact absurd h Cursor.not_returns_here
  · rintro ⟨escape, hescape, hrest⟩
    cases hescape with
    | letter hsome =>
      obtain ⟨hbyte, hletter⟩ := toNat_lt_of_escaped? hsome
      rw [List.singleton_append] at hrest
      rw [Cursor.peek?_of_rest hrest hbyte]
      split
      next hnone => cases hnone
      next hpeek => exact absurd (Option.some.inj hpeek) hletter
      next letter _ hpeek =>
        obtain rfl := Option.some.inj hpeek
        rw [hsome]
        exact returns_ok.mpr ⟨rfl, Cursor.rest_step_of_cons hrest⟩
    | codePoint hdigits =>
      rw [List.cons_append] at hrest
      rw [Cursor.peek?_of_rest hrest (by decide)]
      exact (returns_codePoint _).mpr ⟨_, hdigits, Cursor.rest_step_of_cons hrest⟩

/-! ## Runs of bytes that stand for themselves -/

open OverlayHost.Text.Utf8 (encode)

theorem eq_map_some_of_length {decoded : List (Option Char)}
    (h : ((decoded.takeWhile Option.isSome).filterMap id).length = decoded.length) :
    decoded = ((decoded.takeWhile Option.isSome).filterMap id).map some := by
  induction decoded with
  | nil => rfl
  | cons first decoded ih =>
    cases first with
    | none => cases h
    | some c => exact congrArg (some c :: ·) (ih (Nat.succ.inj h))

theorem decode_eq_ok_iff (cursor : Cursor) : Text.decode bytes cursor = .ok cs ↔ bytes = encode cs := by
  rw [← OverlayHost.Text.Utf8.decode_eq_iff, Text.decode]
  generalize OverlayHost.Text.Utf8.decode bytes = decoded
  constructor
  · intro h
    split at h
    next hlength =>
      rw [← Except.ok.inj h]
      exact eq_map_some_of_length hlength
    next => cases h
  · rintro rfl
    have htake : ((cs.map some).takeWhile Option.isSome).filterMap id = cs := by
      induction cs with
      | nil => rfl
      | cons c cs ih => exact congrArg (c :: ·) ih
    rw [htake, if_pos (List.length_map some).symm]

theorem isPlain_iff (b : UInt8) : Text.isPlain b = true ↔ b.toNat ≠ 34 ∧ b.toNat ≠ 92 ∧ 32 ≤ b.toNat := by
  simp [Text.isPlain, ← UInt8.toNat_inj, UInt8.le_iff_toNat_le, and_assoc]

/-- A character stands for itself just if all of its bytes do. -/
theorem isPlain_encodeChar_iff (c : Char) :
    (∀ b ∈ String.utf8EncodeChar c, Text.isPlain b = true) ↔ c ≠ '"' ∧ c ≠ '\\' ∧ 32 ≤ c.toNat := by
  have hnumber (d : Char) : c = d ↔ c.toNat = d.toNat := Char.toNat_inj.symm
  rw [ne_eq, ne_eq, hnumber, hnumber, String.utf8EncodeChar, Char.toNat_val, show '"'.toNat = 34 from rfl,
    show '\\'.toNat = 92 from rfl]
  have hvalid : c.toNat.isValidChar := c.valid
  have hbound : c.toNat < 1114112 := by rcases hvalid with h | h <;> omega
  split_ifs
  · rw [List.forall_mem_singleton, isPlain_iff, UInt8.toNat_ofNat']
    omega
  all_goals
    refine iff_of_true (fun b hb => (isPlain_iff b).mpr ?_) (by omega)
    simp only [List.mem_cons, List.not_mem_nil, or_false] at hb
  · rcases hb with rfl | rfl <;> rw [UInt8.toNat_ofNat'] <;> omega
  · rcases hb with rfl | rfl | rfl <;> rw [UInt8.toNat_ofNat'] <;> omega
  · rcases hb with rfl | rfl | rfl | rfl <;> rw [UInt8.toNat_ofNat'] <;> omega

theorem spells_append {run : List Char} (hrun : ∀ b ∈ encode run, Text.isPlain b = true) (h : Spells rest cs) :
    Spells (encode run ++ rest) (run ++ cs) := by
  induction run with
  | nil => exact h
  | cons c run ih =>
    rw [OverlayHost.Text.Utf8.encode_cons] at hrun ⊢
    obtain ⟨hquote, hbackslash, hcontrol⟩ :=
      (isPlain_encodeChar_iff c).mp fun b hb => hrun b (List.mem_append_left _ hb)
    rw [List.append_assoc]
    exact .plain hquote hbackslash hcontrol (ih fun b hb => hrun b (List.mem_append_right _ hb))

/-- What is spelled is a run of characters that stand for themselves, and perhaps an escape and more. -/
theorem exists_run_of_spells (h : Spells bytes cs) :
    ∃ run tail more, bytes = encode run ++ tail ∧ cs = run ++ more ∧ (∀ b ∈ encode run, Text.isPlain b = true) ∧
      (tail = [] ∧ more = [] ∨ ∃ escape others c ds, tail = ascii '\\' :: (escape ++ others) ∧ more = c :: ds ∧
        StandsFor escape c ∧ Spells others ds) := by
  induction h with
  | nil => exact ⟨[], [], [], rfl, rfl, List.forall_mem_nil _, .inl ⟨rfl, rfl⟩⟩
  | @plain c rest cs hquote hbackslash hcontrol _ ih =>
    obtain ⟨run, tail, more, rfl, rfl, hrun, htail⟩ := ih
    refine ⟨c :: run, tail, more, ?_, rfl, ?_, htail⟩
    · rw [OverlayHost.Text.Utf8.encode_cons, List.append_assoc]
    · rw [OverlayHost.Text.Utf8.encode_cons, List.forall_mem_append]
      exact ⟨(isPlain_encodeChar_iff c).mpr ⟨hquote, hbackslash, hcontrol⟩, hrun⟩
  | escape hescape hrest =>
    exact ⟨[], _, _, rfl, rfl, List.forall_mem_nil _, .inr ⟨_, _, _, _, rfl, rfl, hescape, hrest⟩⟩

/-! ## Whole texts -/

theorem parts_succ (n : Nat) (before : List Char) (start : Cursor) : Text.parts (n + 1) before start =
    let plain := start.rest.takeWhile Text.isPlain
    let cursor := start.dropWhile Text.isPlain
    match cursor.peek? with
    | none => cursor.here .endInString
    | some '"' => do return (before ++ (← Text.decode plain start), cursor.step)
    | some '\\' => do
      let text ← Text.decode plain start
      let (c, cursor) ← Text.escape cursor.step
      Text.parts n (before ++ text ++ [c]) cursor
    | some _ => cursor.step.here .controlCharacter := rfl

theorem spells_of_returns_parts {before : List Char} (h : Returns (Text.parts n before cursor) cs rest) :
    ∃ inside ds, Spells inside ds ∧ cs = before ++ ds ∧ cursor.rest = inside ++ ascii '"' :: rest := by
  induction n generalizing before cursor with
  | zero => exact absurd h Cursor.not_returns_here
  | succ n ih =>
    have hsplit : cursor.rest = cursor.rest.takeWhile Text.isPlain ++ (cursor.dropWhile Text.isPlain).rest := by
      rw [Cursor.rest_dropWhile, List.takeWhile_append_dropWhile]
    have hrun : ∀ b ∈ cursor.rest.takeWhile Text.isPlain, Text.isPlain b = true :=
      fun b hb => List.all_eq_true.mp List.all_takeWhile b hb
    rw [parts_succ] at h
    generalize cursor.rest.takeWhile Text.isPlain = plain at h hsplit hrun
    dsimp only at h
    split at h
    next => exact absurd h Cursor.not_returns_here
    next hpeek =>
      obtain ⟨run, hdecode, h⟩ := returns_bind.mp h
      obtain ⟨rfl, hend⟩ := returns_ok.mp h
      obtain rfl := (decode_eq_ok_iff cursor).mp hdecode
      refine ⟨encode run, run, by simpa using spells_append hrun .nil, rfl, ?_⟩
      rw [hsplit, Cursor.rest_of_peek? hpeek, hend]
    next hpeek =>
      obtain ⟨run, hdecode, hescaped⟩ := returns_bind.mp h
      obtain ⟨⟨c, after⟩, hafter, hparts⟩ := returns_bind.mp hescaped
      obtain rfl := (decode_eq_ok_iff cursor).mp hdecode
      obtain ⟨escape, hescape, hmore⟩ := (returns_escape _).mp ⟨after, hafter, rfl⟩
      obtain ⟨inside, ds, hinside, rfl, hend⟩ := ih hparts
      refine ⟨encode run ++ ascii '\\' :: (escape ++ inside), run ++ c :: ds,
        spells_append hrun (.escape hescape hinside), by simp, ?_⟩
      rw [hsplit, Cursor.rest_of_peek? hpeek, hmore, hend]
      simp
    next => exact absurd h Cursor.not_returns_here

theorem returns_parts {before : List Char} (hfuel : cursor.rest.length < n) :
    Returns (Text.parts n before cursor) cs rest ↔
      ∃ inside ds, Spells inside ds ∧ cs = before ++ ds ∧ cursor.rest = inside ++ ascii '"' :: rest := by
  refine ⟨spells_of_returns_parts, ?_⟩
  rintro ⟨inside, ds, hinside, rfl, hrest⟩
  induction n generalizing before cursor inside ds with
  | zero => exact absurd hfuel (Nat.not_lt_zero _)
  | succ n ih =>
    obtain ⟨run, tail, more, rfl, rfl, hrun, ⟨rfl, rfl⟩ | ⟨escape, others, c, ds, rfl, rfl, hescape, hothers⟩⟩ :=
      exists_run_of_spells hinside
    · have hstart : cursor.rest = encode run ++ ascii '"' :: rest := by simpa using hrest
      have htake : (encode run ++ ascii '"' :: rest).takeWhile Text.isPlain = encode run :=
        takeWhile_isPlain_append hrun (by decide)
      have hend : (cursor.dropWhile Text.isPlain).rest = ascii '"' :: rest := by
        rw [Cursor.rest_dropWhile, hstart, dropWhile_isPlain_append hrun (by decide)]
      rw [parts_succ, hstart, htake]
      dsimp only
      rw [Cursor.peek?_of_rest hend (by decide)]
      exact returns_bind.mpr ⟨run, (decode_eq_ok_iff cursor).mpr rfl,
        returns_ok.mpr ⟨by rw [List.append_nil], Cursor.rest_step_of_cons hend⟩⟩
    · have hstart : cursor.rest = encode run ++ ascii '\\' :: (escape ++ (others ++ ascii '"' :: rest)) := by
        simpa using hrest
      have htake : (encode run ++ ascii '\\' :: (escape ++ (others ++ ascii '"' :: rest))).takeWhile Text.isPlain =
          encode run := takeWhile_isPlain_append hrun (by decide)
      have hend : (cursor.dropWhile Text.isPlain).rest = ascii '\\' :: (escape ++ (others ++ ascii '"' :: rest)) := by
        rw [Cursor.rest_dropWhile, hstart, dropWhile_isPlain_append hrun (by decide)]
      obtain ⟨after, hafter, hplace⟩ := (returns_escape _).mpr ⟨escape, hescape, Cursor.rest_step_of_cons hend⟩
      have hfuel : after.rest.length < n := by
        rw [hstart] at hfuel
        rw [hplace]
        simp only [List.length_append, List.length_cons] at hfuel ⊢
        omega
      rw [parts_succ, hstart, htake]
      dsimp only
      rw [Cursor.peek?_of_rest hend (by decide)]
      refine returns_bind.mpr ⟨run, (decode_eq_ok_iff cursor).mpr rfl, returns_bind.mpr ⟨(c, after), hafter, ?_⟩⟩
      have hmore : Returns (Text.parts n (before ++ run ++ [c]) after) (before ++ run ++ [c] ++ ds) rest :=
        ih hfuel others ds hothers hplace
      simpa using hmore

/-- A text is read as the characters that it spells. -/
theorem returns_text (cursor : Cursor) {text : String} :
    Returns (Text.read cursor) text rest ↔
      ∃ inside, Spells inside text.toList ∧ cursor.rest = inside ++ ascii '"' :: rest := by
  unfold Text.read
  rw [returns_bind]
  constructor
  · rintro ⟨⟨cs, after⟩, hparts, h⟩
    obtain ⟨rfl, hend⟩ := returns_ok.mp h
    obtain ⟨inside, ds, hinside, rfl, hrest⟩ := spells_of_returns_parts ⟨after, hparts, hend⟩
    exact ⟨inside, by simpa using hinside, hrest⟩
  · rintro ⟨inside, hinside, hrest⟩
    obtain ⟨after, hparts, hend⟩ : Returns (Text.parts (cursor.rest.length + 1) [] cursor) text.toList rest :=
      (returns_parts (Nat.lt_succ_self _)).mpr ⟨inside, text.toList, hinside, rfl, hrest⟩
    exact ⟨_, hparts, returns_ok.mpr ⟨by simp, hend⟩⟩

/-- A text spells one sequence of characters at most. -/
theorem Grammar.Spells.unique {ds : List Char} (h : Spells bytes cs) (h' : Spells bytes ds) : cs = ds := by
  have hread {es : List Char} (h : Spells bytes es) :
      Returns (Text.read { rest := bytes ++ [ascii '"'] }) (String.ofList es) [] :=
    (returns_text _).mpr ⟨bytes, by simpa using h, rfl⟩
  simpa using congrArg String.toList ((hread h).unique (hread h')).1

/-! ## Texts that are read could be skipped -/

theorem isText_of_standsFor {escape : List UInt8} (h : StandsFor escape c) (hrest : IsText rest) :
    IsText (ascii '\\' :: (escape ++ rest)) := by
  cases h with
  | letter hsome => exact .escape (.letter ((isSome_escaped?_iff _).mp (by rw [hsome]; rfl))) hrest
  | codePoint hdigits =>
    cases hdigits with
    | unit hdigits => exact .escape (.unit hdigits) hrest
    | pair hfirst _ hsecond _ =>
      have hsecond : IsText (ascii '\\' :: ((ascii 'u' :: _) ++ rest)) := .escape (.unit hsecond) hrest
      simpa using IsText.escape (.unit hfirst) hsecond

theorem isText_of_spells (h : Spells bytes cs) : IsText bytes := by
  induction h with
  | nil => exact .nil
  | plain hquote hbackslash hcontrol _ ih =>
    exact isText_append ((isPlain_encodeChar_iff _).mpr ⟨hquote, hbackslash, hcontrol⟩) ih
  | escape hescape _ ih => exact isText_of_standsFor hescape ih

end OverlayHost.Json
