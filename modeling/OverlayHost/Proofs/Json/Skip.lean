import OverlayHost.Json.Skip
import OverlayHost.Proofs.Json.Cursor

/-!
# What is skipped is a value

A value that nobody asks for is skipped just if it is one of the grammar, whatever the bytes of its texts are.
-/

set_option autoImplicit false

namespace OverlayHost.Json

open Grammar

variable {rest bytes : List UInt8} {cursor : Cursor} {n : Nat}

/-! ## Texts -/

theorem isSome_escaped?_iff (c : Char) :
    (Text.escaped? c).isSome = true ↔ c ∈ ['"', '\\', '/', 'b', 'f', 'n', 'r', 't'] := by
  unfold Text.escaped?
  split <;> simp_all

theorem toNat_lt_of_mem_escapes {c : Char} (h : c ∈ ['"', '\\', '/', 'b', 'f', 'n', 'r', 't']) :
    c.toNat < 256 ∧ c ≠ 'u' := by
  simp only [List.mem_cons, List.not_mem_nil, or_false] at h
  rcases h with rfl | rfl | rfl | rfl | rfl | rfl | rfl | rfl <;> decide

theorem returns_fourDigits (cursor : Cursor) :
    Returns (Text.fourDigits cursor) n rest ↔ ∃ digits, IsHex digits n ∧ cursor.rest = digits ++ rest := by
  unfold Text.fourDigits
  dsimp only
  constructor
  · intro h
    split at h
    next => exact absurd h Cursor.not_returns_here
    next hlength =>
      split at h
      next value hvalue =>
        obtain ⟨rfl, hrest⟩ := returns_ok.mp h
        refine ⟨cursor.rest.take 4, ⟨?_, hvalue⟩, ?_⟩
        · have hshort := List.length_take_le 4 cursor.rest
          omega
        · rw [← hrest, Cursor.rest_advance, List.take_append_drop]
      next => exact absurd h Cursor.not_returns_here
  · rintro ⟨digits, hdigits, hrest⟩
    have htake : cursor.rest.take 4 = digits := by rw [hrest, List.take_left' hdigits.length]
    rw [htake, if_neg (by rw [hdigits.length]; decide), hdigits.value]
    refine returns_ok.mpr ⟨rfl, ?_⟩
    rw [Cursor.rest_advance, hrest, List.drop_left' hdigits.length]

theorem arrives_map_snd {α : Type} (x : Except Error (α × Cursor)) :
    Arrives (x.map Prod.snd) rest ↔ ∃ a, Returns x a rest := by
  cases x with
  | error error => exact iff_of_false nofun nofun
  | ok p =>
    constructor
    · exact fun h => ⟨p.1, p.2, rfl, arrives_ok.mp h⟩
    · rintro ⟨a, cursor, hsame, hrest⟩
      cases hsame
      exact arrives_ok.mpr hrest

theorem arrives_escape (cursor : Cursor) :
    Arrives (Skip.escape cursor) rest ↔ ∃ escape, IsEscape escape ∧ cursor.rest = escape ++ rest := by
  unfold Skip.escape
  constructor
  · intro h
    split at h
    next => exact absurd h Cursor.not_arrives_here
    next hpeek =>
      obtain ⟨n, hn⟩ := (arrives_map_snd _).mp h
      obtain ⟨digits, hdigits, hrest⟩ := (returns_fourDigits _).mp hn
      exact ⟨_, .unit hdigits, by rw [Cursor.rest_of_peek? hpeek, hrest, List.cons_append]⟩
    next letter _ hpeek =>
      split at h
      next hsome =>
        refine ⟨_, .letter ((isSome_escaped?_iff letter).mp hsome), ?_⟩
        rw [Cursor.rest_of_peek? hpeek, arrives_ok.mp h, List.singleton_append]
      next => exact absurd h Cursor.not_arrives_here
  · rintro ⟨escape, hescape, hrest⟩
    cases hescape with
    | letter hmember =>
      obtain ⟨hbyte, hletter⟩ := toNat_lt_of_mem_escapes hmember
      rw [List.singleton_append] at hrest
      rw [Cursor.peek?_of_rest hrest hbyte]
      split
      next hnone => cases hnone
      next hsome => exact absurd (Option.some.inj hsome) hletter
      next letter hsome =>
        obtain rfl := Option.some.inj hsome
        rw [if_pos ((isSome_escaped?_iff _).mpr hmember)]
        exact arrives_ok.mpr (Cursor.rest_step_of_cons hrest)
    | unit hdigits =>
      rw [List.cons_append] at hrest
      rw [Cursor.peek?_of_rest hrest (by decide)]
      exact (arrives_map_snd _).mpr ⟨_, (returns_fourDigits _).mpr ⟨_, hdigits, Cursor.rest_step_of_cons hrest⟩⟩

theorem isText_append {run : List UInt8} (hrun : ∀ b ∈ run, Text.isPlain b = true) (h : IsText rest) :
    IsText (run ++ rest) := by
  induction run with
  | nil => exact h
  | cons b run ih => exact .plain (hrun b List.mem_cons_self) (ih fun b hb => hrun b (List.mem_cons_of_mem _ hb))

/-- A text is a run of bytes that stand for themselves, and perhaps an escape and more. -/
theorem exists_run_of_isText (h : IsText bytes) :
    ∃ run tail, bytes = run ++ tail ∧ (∀ b ∈ run, Text.isPlain b = true) ∧
      (tail = [] ∨ ∃ escape more, tail = ascii '\\' :: (escape ++ more) ∧ IsEscape escape ∧ IsText more) := by
  induction h with
  | nil => exact ⟨[], [], rfl, List.forall_mem_nil _, .inl rfl⟩
  | plain hb _ ih =>
    obtain ⟨run, tail, rfl, hrun, htail⟩ := ih
    exact ⟨_ :: run, tail, rfl, List.forall_mem_cons.mpr ⟨hb, hrun⟩, htail⟩
  | escape hescape hrest => exact ⟨[], _, rfl, List.forall_mem_nil _, .inr ⟨_, _, rfl, hescape, hrest⟩⟩

theorem dropWhile_isPlain_append {run tail : List UInt8} {b : UInt8} (hrun : ∀ b ∈ run, Text.isPlain b = true)
    (hb : Text.isPlain b = false) : (run ++ b :: tail).dropWhile Text.isPlain = b :: tail := by
  rw [List.dropWhile_append_of_pos hrun, List.dropWhile_cons_of_neg (by simp [hb])]

theorem takeWhile_isPlain_append {run tail : List UInt8} {b : UInt8} (hrun : ∀ b ∈ run, Text.isPlain b = true)
    (hb : Text.isPlain b = false) : (run ++ b :: tail).takeWhile Text.isPlain = run := by
  rw [List.takeWhile_append_of_pos hrun, List.takeWhile_cons_of_neg (by simp [hb]), List.append_nil]

/-- Behind the bytes that stand for themselves is the end of the text, or an escape. -/
theorem Skip.parts_succ (n : Nat) (cursor : Cursor) : Skip.parts (n + 1) cursor =
    match (cursor.dropWhile Text.isPlain).peek? with
    | none => (cursor.dropWhile Text.isPlain).here .endInString
    | some '"' => .ok (cursor.dropWhile Text.isPlain).step
    | some '\\' =>
      match Skip.escape (cursor.dropWhile Text.isPlain).step with
      | .ok after => Skip.parts n after
      | .error error => .error error
    | some _ => (cursor.dropWhile Text.isPlain).here .controlCharacter := rfl

theorem isText_of_arrives_parts (h : Arrives (Skip.parts n cursor) rest) :
    ∃ inside, IsText inside ∧ cursor.rest = inside ++ ascii '"' :: rest := by
  induction n generalizing cursor with
  | zero => exact absurd h Cursor.not_arrives_here
  | succ n ih =>
    obtain ⟨run, hrun, hsplit⟩ := Cursor.exists_run Text.isPlain cursor
    rw [Skip.parts_succ] at h
    split at h
    next => exact absurd h Cursor.not_arrives_here
    next hpeek =>
      refine ⟨run, by simpa using isText_append hrun .nil, ?_⟩
      rw [hsplit, Cursor.rest_of_peek? hpeek, arrives_ok.mp h]
    next hpeek =>
      split at h
      next after hafter =>
        obtain ⟨escape, hescape, hrest⟩ := (arrives_escape _).mp ⟨after, hafter, rfl⟩
        obtain ⟨inside, hinside, hmore⟩ := ih h
        refine ⟨run ++ ascii '\\' :: (escape ++ inside), isText_append hrun (.escape hescape hinside), ?_⟩
        rw [hsplit, Cursor.rest_of_peek? hpeek, hrest, hmore]
        simp
      next => cases h.choose_spec.1
    next => exact absurd h Cursor.not_arrives_here

theorem arrives_parts (hfuel : cursor.rest.length < n) :
    Arrives (Skip.parts n cursor) rest ↔ ∃ inside, IsText inside ∧ cursor.rest = inside ++ ascii '"' :: rest := by
  refine ⟨isText_of_arrives_parts, ?_⟩
  rintro ⟨inside, hinside, hrest⟩
  induction n generalizing cursor inside with
  | zero => exact absurd hfuel (Nat.not_lt_zero _)
  | succ n ih =>
    obtain ⟨run, tail, rfl, hrun, rfl | ⟨escape, more, rfl, hescape, hmore⟩⟩ := exists_run_of_isText hinside
    · have hend : (cursor.dropWhile Text.isPlain).rest = ascii '"' :: rest := by
        rw [Cursor.rest_dropWhile, hrest, List.append_nil, dropWhile_isPlain_append hrun (by decide)]
      rw [Skip.parts_succ, Cursor.peek?_of_rest hend (by decide)]
      exact arrives_ok.mpr (Cursor.rest_step_of_cons hend)
    · have hend : (cursor.dropWhile Text.isPlain).rest = ascii '\\' :: (escape ++ (more ++ ascii '"' :: rest)) := by
        rw [Cursor.rest_dropWhile, hrest]
        simpa using dropWhile_isPlain_append hrun (b := ascii '\\') (by decide)
      obtain ⟨after, hafter, hplace⟩ := (arrives_escape _).mpr ⟨escape, hescape, Cursor.rest_step_of_cons hend⟩
      rw [Skip.parts_succ, Cursor.peek?_of_rest hend (by decide)]
      rw [hafter]
      refine ih ?_ more hmore hplace
      rw [hrest] at hfuel
      rw [hplace]
      simp at hfuel ⊢
      omega

theorem arrives_text (cursor : Cursor) :
    Arrives (Skip.text cursor) rest ↔ ∃ inside, IsText inside ∧ cursor.rest = inside ++ ascii '"' :: rest :=
  arrives_parts (Nat.lt_succ_self _)

/-! ## Numbers -/

/-- What comes next goes on with no number. -/
def EndsNumber (bytes : List UInt8) : Prop :=
  ∀ b ∈ bytes.head?, Cursor.isDigit b = false ∧ b ≠ ascii '.' ∧ b ≠ ascii 'e' ∧ b ≠ ascii 'E'

/-- What comes next goes on with no digits. -/
def EndsDigits (bytes : List UInt8) : Prop := ∀ b ∈ bytes.head?, Cursor.isDigit b = false

theorem EndsNumber.endsDigits (h : EndsNumber bytes) : EndsDigits bytes := fun b hb => (h b hb).1

theorem endsDigits_cons {b : UInt8} : EndsDigits (b :: rest) ↔ Cursor.isDigit b = false := by simp [EndsDigits]

theorem exists_digits (h : cursor.atDigit = true) :
    ∃ digits, IsDigits digits ∧ cursor.rest = digits ++ (cursor.dropWhile Cursor.isDigit).rest := by
  obtain ⟨run, hrun, hsplit⟩ := Cursor.exists_run Cursor.isDigit cursor
  obtain ⟨digit, more, hrest, hdigit⟩ := Cursor.atDigit_iff.mp h
  refine ⟨run, ⟨?_, hrun⟩, hsplit⟩
  rintro rfl
  rw [Cursor.rest_dropWhile, hrest, List.dropWhile_cons_of_pos hdigit, List.nil_append] at hsplit
  have hlength := congrArg List.length hsplit
  have hshort := (List.dropWhile_sublist Cursor.isDigit (l := more)).length_le
  rw [List.length_cons] at hlength
  omega

theorem atDigit_of_digits {digits : List UInt8} (hdigits : IsDigits digits) (hrest : cursor.rest = digits ++ rest) :
    cursor.atDigit = true := by
  obtain ⟨digit, more, rfl⟩ := List.exists_cons_of_ne_nil hdigits.some
  exact Cursor.atDigit_iff.mpr ⟨digit, _, hrest, hdigits.digits digit List.mem_cons_self⟩

theorem not_atDigit (h : EndsDigits cursor.rest) : ¬cursor.atDigit = true := by
  intro hdigit
  obtain ⟨digit, more, hrest, hdigit⟩ := Cursor.atDigit_iff.mp hdigit
  rw [hrest, endsDigits_cons, hdigit] at h
  cases h

theorem rest_dropDigits {digits : List UInt8} (hdigits : ∀ b ∈ digits, Cursor.isDigit b = true)
    (hrest : cursor.rest = digits ++ rest) (hends : EndsDigits rest) :
    (cursor.dropWhile Cursor.isDigit).rest = rest := by
  rw [Cursor.rest_dropWhile, hrest, List.dropWhile_append_of_pos hdigits]
  cases rest with
  | nil => rfl
  | cons b rest => rw [List.dropWhile_cons_of_neg (by simp [endsDigits_cons.mp hends])]

/-- The place after the sign of an exponent. -/
def afterSign (cursor : Cursor) : Cursor :=
  match cursor.peek? with
  | some '+' => cursor.step
  | some '-' => cursor.step
  | _ => cursor

theorem exponent_eq (cursor : Cursor) : Skip.exponent cursor =
    if (afterSign cursor.step).atDigit then .ok ((afterSign cursor.step).dropWhile Cursor.isDigit)
    else (afterSign cursor.step).step.here .invalidNumber := rfl

theorem afterSign_cases (cursor : Cursor) : afterSign cursor = cursor ∨
    ∃ sign ∈ [ascii '+', ascii '-'], cursor.rest = sign :: (afterSign cursor).rest := by
  unfold afterSign
  split
  next hpeek => exact .inr ⟨_, List.mem_cons_self, Cursor.rest_of_peek? hpeek⟩
  next hpeek => exact .inr ⟨_, List.mem_cons_of_mem _ List.mem_cons_self, Cursor.rest_of_peek? hpeek⟩
  next => exact .inl rfl

theorem exists_sign (cursor : Cursor) : ∃ sign ∈ signs, cursor.rest = sign ++ (afterSign cursor).rest := by
  rcases afterSign_cases cursor with hsame | ⟨sign, hsign, hrest⟩
  · exact ⟨[], by simp [signs], by rw [hsame, List.nil_append]⟩
  · exact ⟨[sign], by simpa [signs] using hsign, hrest⟩

theorem ne_ascii_of_isDigit {b : UInt8} {c : Char} (h : Cursor.isDigit b = true) (hc : Cursor.isDigit (ascii c) = false) :
    b ≠ ascii c := by
  rintro rfl
  rw [h] at hc
  cases hc

theorem afterSign_of_digits {digits : List UInt8} (hdigits : IsDigits digits) (hrest : cursor.rest = digits ++ rest) :
    afterSign cursor = cursor := by
  obtain ⟨digit, more, rfl⟩ := List.exists_cons_of_ne_nil hdigits.some
  have hdigit := hdigits.digits digit List.mem_cons_self
  rcases afterSign_cases cursor with hsame | ⟨sign, hsign, hrest'⟩
  · exact hsame
  · obtain rfl : digit = sign := (List.cons.inj (hrest.symm.trans hrest')).1
    rw [List.mem_cons, List.mem_singleton] at hsign
    rcases hsign with rfl | rfl <;> cases hdigit

theorem rest_afterSign {sign digits : List UInt8} (hsign : sign ∈ signs) (hdigits : IsDigits digits)
    (hrest : cursor.rest = sign ++ (digits ++ rest)) : (afterSign cursor).rest = digits ++ rest := by
  simp only [signs, List.mem_cons, List.not_mem_nil, or_false] at hsign
  rcases hsign with rfl | rfl | rfl
  · rw [afterSign_of_digits hdigits hrest]
    exact hrest
  all_goals
    rw [List.singleton_append] at hrest
    rw [afterSign, Cursor.peek?_of_rest hrest (by decide)]
    exact Cursor.rest_step_of_cons hrest

theorem isExponent_of_arrives (h : Arrives (Skip.exponent? cursor) rest) :
    ∃ exponent, IsExponent exponent ∧ cursor.rest = exponent ++ rest := by
  have hpresent {letter : Char} (hletter : ascii letter ∈ [ascii 'e', ascii 'E']) (hpeek : cursor.peek? = some letter)
      (h : Arrives (Skip.exponent cursor) rest) : ∃ exponent, IsExponent exponent ∧ cursor.rest = exponent ++ rest := by
    obtain ⟨sign, hsign, hplace⟩ := exists_sign cursor.step
    rw [exponent_eq] at h
    split at h
    next hdigit =>
      obtain ⟨digits, hdigits, hmore⟩ := exists_digits hdigit
      refine ⟨_, .present hletter hsign hdigits, ?_⟩
      rw [Cursor.rest_of_peek? hpeek, hplace, hmore, arrives_ok.mp h, List.cons_append, List.append_assoc]
    next => exact absurd h Cursor.not_arrives_here
  unfold Skip.exponent? at h
  split at h
  next hpeek => exact hpresent (by simp) hpeek h
  next hpeek => exact hpresent (by simp) hpeek h
  next => exact ⟨[], .absent, arrives_ok.mp h⟩

theorem arrives_exponent {exponent : List UInt8} (hexponent : IsExponent exponent)
    (hrest : cursor.rest = exponent ++ rest) (hends : EndsNumber rest) : Arrives (Skip.exponent? cursor) rest := by
  cases hexponent with
  | absent =>
    rw [List.nil_append] at hrest
    unfold Skip.exponent?
    split
    next hpeek => exact absurd hpeek (Cursor.peek?_ne_of_head fun b hb => (hends b (hrest ▸ hb)).2.2.1)
    next hpeek => exact absurd hpeek (Cursor.peek?_ne_of_head fun b hb => (hends b (hrest ▸ hb)).2.2.2)
    next => exact arrives_ok.mpr hrest
  | @present letter sign digits hletter hsign hdigits =>
    have hplace : (afterSign cursor.step).rest = digits ++ rest := by
      refine rest_afterSign hsign hdigits (Cursor.rest_step_of_cons (b := letter) ?_)
      rw [hrest, List.cons_append, List.append_assoc]
    have hskip : Arrives (Skip.exponent cursor) rest := by
      rw [exponent_eq, if_pos (atDigit_of_digits hdigits hplace)]
      exact arrives_ok.mpr (rest_dropDigits hdigits.digits hplace hends.endsDigits)
    rw [List.mem_cons, List.mem_singleton] at hletter
    unfold Skip.exponent?
    rcases hletter with rfl | rfl
    all_goals
      rw [Cursor.peek?_of_rest hrest (by decide)]
      exact hskip

theorem exists_fraction (h : Arrives (Skip.afterInteger cursor) rest) :
    ∃ fraction exponent, IsFraction fraction ∧ IsExponent exponent ∧ cursor.rest = fraction ++ (exponent ++ rest) := by
  unfold Skip.afterInteger at h
  split at h
  next hpeek =>
    split at h
    next hdigit =>
      obtain ⟨digits, hdigits, hsplit⟩ := exists_digits hdigit
      obtain ⟨exponent, hexponent, hmore⟩ := isExponent_of_arrives h
      refine ⟨_, exponent, .present hdigits, hexponent, ?_⟩
      rw [Cursor.rest_of_peek? hpeek, hsplit, hmore, List.cons_append]
    next => exact absurd h Cursor.not_arrives_ahead
  next =>
    obtain ⟨exponent, hexponent, hmore⟩ := isExponent_of_arrives h
    exact ⟨[], exponent, .absent, hexponent, hmore⟩

/-- An exponent goes on with no digits and with no fraction. -/
theorem endsDigits_exponent {exponent : List UInt8} (hexponent : IsExponent exponent) (hends : EndsNumber rest) :
    ∀ b ∈ (exponent ++ rest).head?, Cursor.isDigit b = false ∧ b ≠ ascii '.' := by
  cases hexponent with
  | absent => exact fun b hb => ⟨(hends b hb).1, (hends b hb).2.1⟩
  | present hletter _ _ =>
    rw [List.mem_cons, List.mem_singleton] at hletter
    intro b hb
    obtain rfl := Option.some.inj hb
    rcases hletter with rfl | rfl <;> decide

theorem arrives_afterInteger {fraction exponent : List UInt8} (hfraction : IsFraction fraction)
    (hexponent : IsExponent exponent) (hrest : cursor.rest = fraction ++ (exponent ++ rest)) (hends : EndsNumber rest) :
    Arrives (Skip.afterInteger cursor) rest := by
  have hclear := endsDigits_exponent hexponent hends
  unfold Skip.afterInteger
  cases hfraction with
  | absent =>
    rw [List.nil_append] at hrest
    split
    next hpeek => exact absurd hpeek (Cursor.peek?_ne_of_head fun b hb => (hclear b (hrest ▸ hb)).2)
    next => exact arrives_exponent hexponent hrest hends
  | present hdigits =>
    rw [List.cons_append] at hrest
    have hstep := Cursor.rest_step_of_cons hrest
    rw [Cursor.peek?_of_rest hrest (by decide)]
    rw [if_pos (atDigit_of_digits hdigits hstep)]
    exact arrives_exponent hexponent (rest_dropDigits hdigits.digits hstep fun b hb => (hclear b hb).1) hends

theorem isMagnitude_of_arrives (h : Arrives (Skip.number cursor) rest) :
    ∃ magnitude, IsMagnitude magnitude ∧ cursor.rest = magnitude ++ rest := by
  unfold Skip.number at h
  split at h
  next hpeek =>
    split at h
    next => exact absurd h Cursor.not_arrives_ahead
    next =>
      obtain ⟨fraction, exponent, hfraction, hexponent, hmore⟩ := exists_fraction h
      refine ⟨_, @IsMagnitude.mk [ascii '0'] _ _ ⟨⟨nofun, List.forall_mem_singleton.mpr (by decide)⟩, fun _ => rfl⟩
        hfraction hexponent, ?_⟩
      rw [Cursor.rest_of_peek? hpeek, hmore]
      simp
  next hzero =>
    split at h
    next hdigit =>
      obtain ⟨digits, hdigits, hsplit⟩ := exists_digits hdigit
      obtain ⟨fraction, exponent, hfraction, hexponent, hmore⟩ := exists_fraction h
      refine ⟨_, .mk ⟨hdigits, fun hhead => ?_⟩ hfraction hexponent, ?_⟩
      · obtain ⟨more, rfl⟩ := List.head?_eq_some_iff.mp hhead
        exact absurd (Cursor.peek?_of_rest hsplit (by decide)) hzero
      · rw [hsplit, hmore]
        simp
    next => exact absurd h Cursor.not_arrives_here

theorem endsDigits_fraction {fraction exponent : List UInt8} (hfraction : IsFraction fraction)
    (hexponent : IsExponent exponent) (hends : EndsNumber rest) : EndsDigits (fraction ++ (exponent ++ rest)) := by
  cases hfraction with
  | absent => exact fun b hb => (endsDigits_exponent hexponent hends b hb).1
  | present => exact endsDigits_cons.mpr (by decide)

theorem arrives_number {magnitude : List UInt8} (hmagnitude : IsMagnitude magnitude)
    (hrest : cursor.rest = magnitude ++ rest) (hends : EndsNumber rest) : Arrives (Skip.number cursor) rest := by
  obtain @⟨whole, fraction, exponent, hwhole, hfraction, hexponent⟩ := hmagnitude
  have hclear := endsDigits_fraction hfraction hexponent hends
  have hrest : cursor.rest = whole ++ (fraction ++ (exponent ++ rest)) := by simp [hrest]
  unfold Skip.number
  split
  next hpeek =>
    obtain rfl : whole = [ascii '0'] := by
      obtain ⟨digit, more, rfl⟩ := List.exists_cons_of_ne_nil hwhole.isDigits.some
      refine hwhole.zero ?_
      have hsame := (Cursor.rest_of_peek? hpeek).symm.trans hrest
      rw [(List.cons.inj hsame).1, List.head?_cons]
    have hstep := Cursor.rest_step_of_cons hrest
    rw [if_neg (not_atDigit (hstep ▸ hclear))]
    exact arrives_afterInteger hfraction hexponent hstep hends
  next =>
    rw [if_pos (atDigit_of_digits hwhole.isDigits hrest)]
    exact arrives_afterInteger hfraction hexponent (rest_dropDigits hwhole.isDigits.digits hrest hclear) hends

/-! ## Values -/

/-- What is skipped in a number of steps is a value, or the elements of a list and the bracket that closes it, or the members
of an object and the brace. -/
structure SkipsValues (n : Nat) : Prop where
  value {cursor : Cursor} {rest : List UInt8} (h : Arrives (Skip.value n cursor) rest) :
    ∃ (before : Blank) (written : List UInt8), IsValue written ∧ cursor.rest = before.bytes ++ (written ++ rest)
  elements {cursor : Cursor} {rest : List UInt8} (h : Arrives (Skip.elements n cursor) rest) :
    ∃ (item : Item) (items : List Item), (∀ one ∈ item :: items, IsValue one.value) ∧
      cursor.rest = separated ((item :: items).map Item.bytes) ++ ascii ']' :: rest
  members {cursor : Cursor} {rest : List UInt8} (h : Arrives (Skip.members n cursor) rest) :
    ∃ (member : Member) (members : List Member),
      (∀ one ∈ member :: members, IsText one.name ∧ IsValue one.value) ∧
      cursor.rest = separated ((member :: members).map Member.bytes) ++ ascii '\x7d' :: rest

theorem exists_value_of_skip (hskips : SkipsValues n) (h : Arrives (Skip.value (n + 1) cursor) rest) :
    ∃ (before : Blank) (written : List UInt8), IsValue written ∧ cursor.rest = before.bytes ++ (written ++ rest) := by
  obtain ⟨before, hbefore⟩ := Cursor.exists_blank cursor
  suffices hvalue : ∃ written, IsValue written ∧ cursor.skipBlanks.rest = written ++ rest by
    obtain ⟨written, hwritten, hrest⟩ := hvalue
    exact ⟨before, written, hwritten, by rw [hbefore, hrest]⟩
  rw [Skip.value] at h
  split at h
  next => exact absurd h Cursor.not_arrives_ahead
  next hpeek =>
    rw [Cursor.arrives_word (by decide)] at h
    exact ⟨_, .null, by rw [Cursor.rest_of_peek? hpeek, h]; rfl⟩
  next hpeek =>
    rw [Cursor.arrives_word (by decide)] at h
    exact ⟨_, .true, by rw [Cursor.rest_of_peek? hpeek, h]; rfl⟩
  next hpeek =>
    rw [Cursor.arrives_word (by decide)] at h
    exact ⟨_, .false, by rw [Cursor.rest_of_peek? hpeek, h]; rfl⟩
  next hpeek =>
    obtain ⟨magnitude, hmagnitude, hmore⟩ := isMagnitude_of_arrives h
    exact ⟨_, .negative hmagnitude, by rw [Cursor.rest_of_peek? hpeek, hmore]; rfl⟩
  next hpeek =>
    obtain ⟨inside, hinside, hmore⟩ := (arrives_text _).mp h
    exact ⟨_, .text hinside, by rw [Cursor.rest_of_peek? hpeek, hmore]; simp⟩
  next hpeek =>
    obtain ⟨inside, hinside⟩ := Cursor.exists_blank cursor.skipBlanks.step
    dsimp only at h
    split at h
    next hclose =>
      refine ⟨listOf inside [], .list (List.forall_mem_nil _), ?_⟩
      rw [Cursor.rest_of_peek? hpeek, hinside, Cursor.rest_of_peek? hclose, arrives_ok.mp h]
      simp [listOf, separated]
    next =>
      obtain ⟨item, items, hitems, hmore⟩ := hskips.elements h
      refine ⟨listOf inside (item :: items), .list hitems, ?_⟩
      rw [Cursor.rest_of_peek? hpeek, hinside, hmore]
      simp [listOf]
    next => exact absurd h Cursor.not_arrives_ahead
  next hpeek =>
    obtain ⟨inside, hinside⟩ := Cursor.exists_blank cursor.skipBlanks.step
    dsimp only at h
    split at h
    next hclose =>
      refine ⟨objectOf inside [], .object (List.forall_mem_nil _) (List.forall_mem_nil _), ?_⟩
      rw [Cursor.rest_of_peek? hpeek, hinside, Cursor.rest_of_peek? hclose, arrives_ok.mp h]
      simp [objectOf, separated]
    next =>
      obtain ⟨member, members, hmembers, hmore⟩ := hskips.members h
      refine ⟨objectOf inside (member :: members), .object (fun one hone => (hmembers one hone).1)
        fun one hone => (hmembers one hone).2, ?_⟩
      rw [Cursor.rest_of_peek? hpeek, hinside, hmore]
      simp [objectOf]
  next =>
    split at h
    next =>
      obtain ⟨magnitude, hmagnitude, hmore⟩ := isMagnitude_of_arrives h
      exact ⟨_, .positive hmagnitude, hmore⟩
    next => exact absurd h Cursor.not_arrives_ahead

theorem exists_elements_of_skip (hskips : SkipsValues n) (h : Arrives (Skip.elements (n + 1) cursor) rest) :
    ∃ (item : Item) (items : List Item), (∀ one ∈ item :: items, IsValue one.value) ∧
      cursor.rest = separated ((item :: items).map Item.bytes) ++ ascii ']' :: rest := by
  rw [Skip.elements] at h
  split at h
  next => exact absurd h nofun
  next place hplace =>
    obtain ⟨before, written, hwritten, hrest⟩ := hskips.value ⟨place, hplace, rfl⟩
    obtain ⟨after, hafter⟩ := Cursor.exists_blank place
    dsimp only at h
    split at h
    next hpeek =>
      obtain ⟨next, items, hitems, hmore⟩ := hskips.elements h
      refine ⟨⟨before, written, after⟩, next :: items, List.forall_mem_cons.mpr ⟨hwritten, hitems⟩, ?_⟩
      rw [hrest, hafter, Cursor.rest_of_peek? hpeek, hmore, List.map_cons, List.map_cons, separated_cons]
      simp [Item.bytes, separated_cons]
    next hpeek =>
      refine ⟨⟨before, written, after⟩, [], List.forall_mem_singleton.mpr hwritten, ?_⟩
      rw [hrest, hafter, Cursor.rest_of_peek? hpeek, arrives_ok.mp h, List.map_singleton, separated_cons]
      simp [Item.bytes]
    next => exact absurd h Cursor.not_arrives_ahead
    next => exact absurd h Cursor.not_arrives_ahead

theorem arrives_colon (cursor : Cursor) :
    Arrives (Skip.colon cursor) rest ↔ ∃ before : Blank, cursor.rest = before.bytes ++ ascii ':' :: rest := by
  unfold Skip.colon
  constructor
  · intro h
    obtain ⟨before, hbefore⟩ := Cursor.exists_blank cursor
    dsimp only at h
    split at h
    next hpeek => exact ⟨before, by rw [hbefore, Cursor.rest_of_peek? hpeek, arrives_ok.mp h]⟩
    next => exact absurd h Cursor.not_arrives_ahead
    next => exact absurd h Cursor.not_arrives_ahead
  · rintro ⟨before, hrest⟩
    have hcolon := Cursor.rest_skipBlanks_of_blank before hrest (Cursor.startsFull_cons.mpr (by decide))
    dsimp only
    rw [Cursor.peek?_of_rest hcolon (by decide)]
    exact arrives_ok.mpr (Cursor.rest_step_of_cons hcolon)

theorem exists_members_of_skip (hskips : SkipsValues n) (h : Arrives (Skip.members (n + 1) cursor) rest) :
    ∃ (member : Member) (members : List Member),
      (∀ one ∈ member :: members, IsText one.name ∧ IsValue one.value) ∧
      cursor.rest = separated ((member :: members).map Member.bytes) ++ ascii '\x7d' :: rest := by
  obtain ⟨before, hbefore⟩ := Cursor.exists_blank cursor
  rw [Skip.members] at h
  dsimp only at h
  split at h
  next hpeek =>
    split at h
    next => exact absurd h nofun
    next afterName hname =>
      obtain ⟨name, hname, hquoted⟩ := (arrives_text _).mp ⟨afterName, hname, rfl⟩
      split at h
      next => exact absurd h nofun
      next afterColon hcolon =>
        obtain ⟨colon, hcolon⟩ := (arrives_colon _).mp ⟨afterColon, hcolon, rfl⟩
        split at h
        next => exact absurd h nofun
        next place hplace =>
          obtain ⟨start, written, hwritten, hvalue⟩ := hskips.value ⟨place, hplace, rfl⟩
          obtain ⟨after, hafter⟩ := Cursor.exists_blank place
          split at h
          next hcomma =>
            obtain ⟨next, members, hmembers, hmore⟩ := hskips.members h
            refine ⟨⟨before, name, colon, ⟨start, written, after⟩⟩, next :: members,
              List.forall_mem_cons.mpr ⟨⟨hname, hwritten⟩, hmembers⟩, ?_⟩
            rw [hbefore, Cursor.rest_of_peek? hpeek, hquoted, hcolon, hvalue, hafter, Cursor.rest_of_peek? hcomma, hmore,
              List.map_cons, List.map_cons, separated_cons]
            simp [Member.bytes, Item.bytes, separated_cons]
          next hbrace =>
            refine ⟨⟨before, name, colon, ⟨start, written, after⟩⟩, [], List.forall_mem_singleton.mpr ⟨hname, hwritten⟩, ?_⟩
            rw [hbefore, Cursor.rest_of_peek? hpeek, hquoted, hcolon, hvalue, hafter, Cursor.rest_of_peek? hbrace,
              arrives_ok.mp h, List.map_singleton, separated_cons]
            simp [Member.bytes, Item.bytes]
          next => exact absurd h Cursor.not_arrives_ahead
          next => exact absurd h Cursor.not_arrives_ahead
  next => exact absurd h Cursor.not_arrives_ahead
  next => exact absurd h Cursor.not_arrives_ahead

theorem skipsValues (n : Nat) : SkipsValues n := by
  induction n with
  | zero =>
    refine ⟨fun h => ?_, fun h => ?_, fun h => ?_⟩
    · rw [Skip.value] at h
      exact absurd h Cursor.not_arrives_here
    · rw [Skip.elements] at h
      exact absurd h Cursor.not_arrives_here
    · rw [Skip.members] at h
      exact absurd h Cursor.not_arrives_here
  | succ n ih =>
    exact ⟨exists_value_of_skip ih, exists_elements_of_skip ih, exists_members_of_skip ih⟩

theorem isValue_of_arrives (h : Arrives (Skip.any cursor) rest) :
    ∃ (before : Blank) (written : List UInt8), IsValue written ∧ cursor.rest = before.bytes ++ (written ++ rest) :=
  (skipsValues _).value h

/-! ## Every value is skipped -/

theorem endsNumber_cons {b : UInt8} :
    EndsNumber (b :: rest) ↔ Cursor.isDigit b = false ∧ b ≠ ascii '.' ∧ b ≠ ascii 'e' ∧ b ≠ ascii 'E' := by
  simp [EndsNumber]

theorem endsNumber_blank_append (before : Blank) (h : EndsNumber rest) : EndsNumber (before.bytes ++ rest) := by
  obtain ⟨bytes, hblank⟩ := before
  cases bytes with
  | nil => exact h
  | cons b bytes =>
    have hb := hblank b List.mem_cons_self
    simp only [Cursor.isBlank, Bool.or_eq_true, decide_eq_true_eq] at hb
    rw [List.cons_append, endsNumber_cons]
    rcases hb with ((rfl | rfl) | rfl) | rfl <;> decide

theorem exists_digit_of_isMagnitude (h : IsMagnitude bytes) : ∃ digit more, bytes = digit :: more ∧ Cursor.isDigit digit = true := by
  obtain @⟨whole, fraction, exponent, hwhole, hfraction, hexponent⟩ := h
  obtain ⟨digit, more, rfl⟩ := List.exists_cons_of_ne_nil hwhole.isDigits.some
  exact ⟨digit, _, rfl, hwhole.isDigits.digits digit List.mem_cons_self⟩

theorem isBlank_eq_false_of_isDigit {b : UInt8} (h : Cursor.isDigit b = true) : Cursor.isBlank b = false := by
  by_contra hblank
  simp only [Cursor.isBlank, Bool.or_eq_true, decide_eq_true_eq, Bool.not_eq_false] at hblank
  rcases hblank with ((rfl | rfl) | rfl) | rfl <;> exact absurd h (by decide)

theorem exists_first_of_isValue (h : IsValue bytes) :
    ∃ first more, bytes = first :: more ∧ Cursor.isBlank first = false ∧ first ≠ ascii ']' := by
  cases h with
  | positive hmagnitude =>
    obtain ⟨digit, more, rfl, hdigit⟩ := exists_digit_of_isMagnitude hmagnitude
    exact ⟨digit, more, rfl, isBlank_eq_false_of_isDigit hdigit, ne_ascii_of_isDigit hdigit (by decide)⟩
  | _ => exact ⟨_, _, rfl, by decide, by decide⟩

theorem startsFull_of_isValue (h : IsValue bytes) (rest : List UInt8) : Cursor.StartsFull (bytes ++ rest) := by
  obtain ⟨first, more, rfl, hblank, -⟩ := exists_first_of_isValue h
  exact Cursor.startsFull_cons.mpr hblank

/-- The blank space in front of the first part of something is gone when the part is looked at. -/
theorem rest_skipBlanks_of_blanks (inside before : Blank) (hrest : cursor.rest = inside.bytes ++ (before.bytes ++ bytes))
    (hfull : Cursor.StartsFull bytes) : cursor.skipBlanks.rest = bytes :=
  Cursor.rest_skipBlanks_of_blank (inside.append before) (by simp [Blank.append, hrest]) hfull

/-- A number of steps is enough for a value, and for elements and members, of at most half as many bytes. -/
structure FindsValues (n : Nat) : Prop where
  value {cursor : Cursor} {before : Blank} {written rest : List UInt8} (hwritten : IsValue written)
    (hrest : cursor.rest = before.bytes ++ (written ++ rest)) (hends : EndsNumber rest)
    (hfuel : 2 * cursor.rest.length < n) : Arrives (Skip.value n cursor) rest
  elements {cursor : Cursor} {item : Item} {items : List Item} {rest : List UInt8}
    (hitems : ∀ one ∈ item :: items, IsValue one.value)
    (hrest : cursor.rest = separated ((item :: items).map Item.bytes) ++ ascii ']' :: rest)
    (hfuel : 2 * cursor.rest.length + 1 < n) : Arrives (Skip.elements n cursor) rest
  members {cursor : Cursor} {member : Member} {members : List Member} {rest : List UInt8}
    (hmembers : ∀ one ∈ member :: members, IsText one.name ∧ IsValue one.value)
    (hrest : cursor.rest = separated ((member :: members).map Member.bytes) ++ ascii '\x7d' :: rest)
    (hfuel : 2 * cursor.rest.length + 1 < n) : Arrives (Skip.members n cursor) rest

theorem value_of_bracket (h : cursor.skipBlanks.peek? = some '[') : Skip.value (n + 1) cursor =
    let inside := cursor.skipBlanks.step.skipBlanks
    match inside.peek? with
    | some ']' => .ok inside.step
    | some _ => Skip.elements n inside
    | none => inside.ahead .endInList := by
  rw [Skip.value, h]
  rfl

theorem value_of_brace (h : cursor.skipBlanks.peek? = some '\x7b') : Skip.value (n + 1) cursor =
    let inside := cursor.skipBlanks.step.skipBlanks
    match inside.peek? with
    | some '\x7d' => .ok inside.step
    | _ => Skip.members n inside := by
  rw [Skip.value, h]
  rfl

theorem arrives_list (hfinds : FindsValues n) {inside : Blank} {items : List Item}
    (hitems : ∀ item ∈ items, IsValue item.value) (hrest : cursor.skipBlanks.rest = listOf inside items ++ rest)
    (hfuel : 2 * cursor.skipBlanks.rest.length < n + 1) : Arrives (Skip.value (n + 1) cursor) rest := by
  have hstep := Cursor.rest_step_of_cons hrest
  rw [value_of_bracket (Cursor.peek?_of_rest hrest (by decide))]
  dsimp only
  cases items with
  | nil =>
    have hclose : cursor.skipBlanks.step.skipBlanks.rest = ascii ']' :: rest :=
      Cursor.rest_skipBlanks_of_blank inside (by rw [hstep]; simp [separated])
        (Cursor.startsFull_cons.mpr (by decide))
    rw [Cursor.peek?_of_rest hclose (by decide)]
    exact arrives_ok.mpr (Cursor.rest_step_of_cons hclose)
  | cons item items =>
    obtain ⟨hitem, hothers⟩ := List.forall_mem_cons.mp hitems
    obtain ⟨first, more, hfirst, -, hne⟩ := exists_first_of_isValue hitem
    -- the blank space in front of the first item was passed together with that after the bracket
    have hplace : cursor.skipBlanks.step.skipBlanks.rest =
        separated (({item with before := .empty} :: items).map Item.bytes) ++ ascii ']' :: rest := by
      refine rest_skipBlanks_of_blanks inside item.before ?_ ?_
      · rw [hstep, List.map_cons, List.map_cons, separated_cons, separated_cons]
        simp [Item.bytes, Blank.empty]
      · rw [List.map_cons, separated_cons]
        simpa [Item.bytes, Blank.empty] using startsFull_of_isValue hitem _
    have hhead : cursor.skipBlanks.step.skipBlanks.rest.head? = some first := by
      rw [hplace, List.map_cons, separated_cons]
      simp [Item.bytes, Blank.empty, hfirst]
    split
    next hclose =>
      refine absurd hclose (Cursor.peek?_ne_of_head fun b hb => ?_)
      rw [hhead] at hb
      exact Option.some.inj hb ▸ hne
    next =>
      have hitems : ∀ one ∈ {item with before := .empty} :: items, IsValue one.value :=
        List.forall_mem_cons.mpr ⟨hitem, hothers⟩
      refine hfinds.elements hitems hplace ?_
      have hshort := Cursor.length_step_skipBlanks_lt hrest
      omega
    next hnone =>
      rw [Cursor.peek?_eq_none_iff.mp hnone] at hhead
      cases hhead

theorem arrives_object (hfinds : FindsValues n) {inside : Blank} {members : List Member}
    (hmembers : ∀ one ∈ members, IsText one.name ∧ IsValue one.value)
    (hrest : cursor.skipBlanks.rest = objectOf inside members ++ rest)
    (hfuel : 2 * cursor.skipBlanks.rest.length < n + 1) : Arrives (Skip.value (n + 1) cursor) rest := by
  have hstep := Cursor.rest_step_of_cons hrest
  rw [value_of_brace (Cursor.peek?_of_rest hrest (by decide))]
  dsimp only
  cases members with
  | nil =>
    have hclose : cursor.skipBlanks.step.skipBlanks.rest = ascii '\x7d' :: rest :=
      Cursor.rest_skipBlanks_of_blank inside (by rw [hstep]; simp [separated])
        (Cursor.startsFull_cons.mpr (by decide))
    rw [Cursor.peek?_of_rest hclose (by decide)]
    exact arrives_ok.mpr (Cursor.rest_step_of_cons hclose)
  | cons member members =>
    have hplace : cursor.skipBlanks.step.skipBlanks.rest =
        separated (({member with before := .empty} :: members).map Member.bytes) ++ ascii '\x7d' :: rest := by
      refine rest_skipBlanks_of_blanks inside member.before ?_ ?_
      · rw [hstep, List.map_cons, List.map_cons, separated_cons, separated_cons]
        simp [Member.bytes, Blank.empty]
      · rw [List.map_cons, separated_cons]
        exact Cursor.startsFull_cons.mpr (by decide)
    split
    next hclose =>
      refine absurd hclose (Cursor.peek?_ne_of_head fun b hb => ?_)
      rw [hplace, List.map_cons, separated_cons] at hb
      obtain rfl := Option.some.inj hb
      decide
    next =>
      have hmembers : ∀ one ∈ {member with before := .empty} :: members, IsText one.name ∧ IsValue one.value :=
        List.forall_mem_cons.mpr (List.forall_mem_cons.mp hmembers)
      refine hfinds.members hmembers hplace ?_
      have hshort := Cursor.length_step_skipBlanks_lt hrest
      omega

theorem arrives_value_succ (hfinds : FindsValues n) {before : Blank} {written : List UInt8} (hwritten : IsValue written)
    (hrest : cursor.rest = before.bytes ++ (written ++ rest)) (hends : EndsNumber rest)
    (hfuel : 2 * cursor.rest.length < n + 1) : Arrives (Skip.value (n + 1) cursor) rest := by
  have hstart := Cursor.rest_skipBlanks_of_blank before hrest (startsFull_of_isValue hwritten rest)
  have hshort : 2 * cursor.skipBlanks.rest.length < n + 1 := by
    rw [hrest, List.length_append] at hfuel
    rw [hstart]
    omega
  cases hwritten with
  | null =>
    rw [Skip.value, Cursor.peek?_of_rest hstart (by decide)]
    exact (Cursor.arrives_word (by decide)).mpr (Cursor.rest_step_of_cons hstart)
  | true =>
    rw [Skip.value, Cursor.peek?_of_rest hstart (by decide)]
    exact (Cursor.arrives_word (by decide)).mpr (Cursor.rest_step_of_cons hstart)
  | false =>
    rw [Skip.value, Cursor.peek?_of_rest hstart (by decide)]
    exact (Cursor.arrives_word (by decide)).mpr (Cursor.rest_step_of_cons hstart)
  | negative hmagnitude =>
    rw [Skip.value, Cursor.peek?_of_rest hstart (by decide)]
    exact arrives_number hmagnitude (Cursor.rest_step_of_cons hstart) hends
  | @text inside hinside =>
    rw [Skip.value, Cursor.peek?_of_rest hstart (by decide)]
    refine (arrives_text _).mpr ⟨inside, hinside, ?_⟩
    rw [Cursor.rest_step_of_cons hstart]
    simp
  | positive hmagnitude =>
    obtain ⟨digit, more, rfl, hdigit⟩ := exists_digit_of_isMagnitude hmagnitude
    have hother (c : Char) (hc : Cursor.isDigit (ascii c) = false) : cursor.skipBlanks.peek? ≠ some c :=
      Cursor.peek?_ne_of_rest hstart (ne_ascii_of_isDigit hdigit hc)
    rw [Skip.value]
    split
    next hnone => exact absurd (Cursor.peek?_eq_none_iff.mp hnone) (by rw [hstart]; exact List.cons_ne_nil _ _)
    all_goals try
      rename_i hpeek
      exact absurd hpeek (hother _ (by decide))
    next =>
      rw [if_pos (Cursor.atDigit_iff.mpr ⟨digit, _, hstart, hdigit⟩)]
      exact arrives_number hmagnitude hstart hends
  | list hitems => exact arrives_list hfinds hitems hstart hshort
  | object hnames hvalues =>
    exact arrives_object hfinds (fun one hone => ⟨hnames one hone, hvalues one hone⟩) hstart hshort

/-- Parts after the first one and the mark that ends them all go on with no number and begin with no blank space. -/
theorem endsNumber_and_startsFull (parts : List (List UInt8)) {mark : Char} (hends : EndsNumber (ascii mark :: rest))
    (hfull : Cursor.isBlank (ascii mark) = false) :
    EndsNumber (parts.flatMap (ascii ',' :: ·) ++ ascii mark :: rest) ∧
      Cursor.StartsFull (parts.flatMap (ascii ',' :: ·) ++ ascii mark :: rest) := by
  cases parts with
  | nil => exact ⟨hends, Cursor.startsFull_cons.mpr hfull⟩
  | cons part parts => exact ⟨endsNumber_cons.mpr (by decide), Cursor.startsFull_cons.mpr (by decide)⟩

/-- An item is skipped in front of others. -/
theorem exists_place_after_item (hfinds : FindsValues n) {item : Item} (hitem : IsValue item.value)
    (parts : List (List UInt8)) {mark : Char} (hends : EndsNumber (ascii mark :: rest))
    (hfull : Cursor.isBlank (ascii mark) = false)
    (hrest : cursor.rest = item.bytes ++ (parts.flatMap (ascii ',' :: ·) ++ ascii mark :: rest))
    (hfuel : 2 * cursor.rest.length < n) :
    ∃ place, Skip.value n cursor = .ok place ∧
      place.skipBlanks.rest = parts.flatMap (ascii ',' :: ·) ++ ascii mark :: rest ∧
      place.skipBlanks.rest.length ≤ cursor.rest.length := by
  obtain ⟨hends, hfull⟩ := endsNumber_and_startsFull parts hends hfull
  have hstart : cursor.rest = item.before.bytes ++
      (item.value ++ (item.after.bytes ++ (parts.flatMap (ascii ',' :: ·) ++ ascii mark :: rest))) := by
    rw [hrest]
    simp [Item.bytes]
  obtain ⟨place, hplace, hafter⟩ := hfinds.value hitem hstart (endsNumber_blank_append item.after hends) hfuel
  have hnext := Cursor.rest_skipBlanks_of_blank item.after hafter hfull
  refine ⟨place, hplace, hnext, ?_⟩
  rw [hrest, hnext]
  exact (List.suffix_append item.bytes _).length_le

theorem arrives_elements_succ (hfinds : FindsValues n) {item : Item} {items : List Item}
    (hitems : ∀ one ∈ item :: items, IsValue one.value)
    (hrest : cursor.rest = separated ((item :: items).map Item.bytes) ++ ascii ']' :: rest)
    (hfuel : 2 * cursor.rest.length + 1 < n + 1) : Arrives (Skip.elements (n + 1) cursor) rest := by
  obtain ⟨hitem, hothers⟩ := List.forall_mem_cons.mp hitems
  rw [List.map_cons, separated_cons, List.append_assoc] at hrest
  obtain ⟨place, hplace, hafter, hshort⟩ := exists_place_after_item hfinds hitem (items.map Item.bytes)
    (endsNumber_cons.mpr (by decide)) (by decide) hrest (by omega)
  rw [Skip.elements, hplace]
  dsimp only
  cases items with
  | nil =>
    rw [Cursor.peek?_of_rest hafter (by decide)]
    exact arrives_ok.mpr (Cursor.rest_step_of_cons hafter)
  | cons next items =>
    rw [Cursor.peek?_of_rest hafter (by decide)]
    have hstep := Cursor.length_step_lt hafter
    refine hfinds.elements hothers ?_ (by omega)
    rw [Cursor.rest_step_of_cons hafter, List.map_cons, separated_cons]
    rfl

theorem arrives_members_succ (hfinds : FindsValues n) {member : Member} {members : List Member}
    (hmembers : ∀ one ∈ member :: members, IsText one.name ∧ IsValue one.value)
    (hrest : cursor.rest = separated ((member :: members).map Member.bytes) ++ ascii '\x7d' :: rest)
    (hfuel : 2 * cursor.rest.length + 1 < n + 1) : Arrives (Skip.members (n + 1) cursor) rest := by
  obtain ⟨⟨hname, hvalue⟩, hothers⟩ := List.forall_mem_cons.mp hmembers
  rw [List.map_cons, separated_cons, List.append_assoc] at hrest
  have hquote : cursor.skipBlanks.rest = ascii '"' :: (member.name ++ ascii '"' :: (member.colon.bytes ++
      ascii ':' :: (member.item.bytes ++
        ((members.map Member.bytes).flatMap (ascii ',' :: ·) ++ ascii '\x7d' :: rest)))) :=
    Cursor.rest_skipBlanks_of_blank member.before (by rw [hrest]; simp [Member.bytes])
      (Cursor.startsFull_cons.mpr (by decide))
  obtain ⟨afterName, hafterName, hnamed⟩ := (arrives_text _).mpr ⟨_, hname, Cursor.rest_step_of_cons hquote⟩
  obtain ⟨afterColon, hafterColon, hitem⟩ := (arrives_colon _).mpr ⟨_, hnamed⟩
  have hlong : afterColon.rest.length < cursor.rest.length := by
    rw [hitem, hrest]
    simp only [Member.bytes, List.length_append, List.length_cons]
    omega
  obtain ⟨place, hplace, hafter, hshort⟩ := exists_place_after_item hfinds hvalue (members.map Member.bytes)
    (endsNumber_cons.mpr (by decide)) (by decide) hitem (by omega)
  rw [Skip.members, Cursor.peek?_of_rest hquote (by decide)]
  dsimp only
  rw [hafterName]
  dsimp only
  rw [hafterColon]
  dsimp only
  rw [hplace]
  dsimp only
  cases members with
  | nil =>
    rw [Cursor.peek?_of_rest hafter (by decide)]
    exact arrives_ok.mpr (Cursor.rest_step_of_cons hafter)
  | cons next members =>
    rw [Cursor.peek?_of_rest hafter (by decide)]
    have hstep := Cursor.length_step_lt hafter
    refine hfinds.members hothers ?_ (by omega)
    rw [Cursor.rest_step_of_cons hafter, List.map_cons, separated_cons]
    rfl

theorem findsValues (n : Nat) : FindsValues n := by
  induction n with
  | zero => exact ⟨fun _ _ _ hfuel => by omega, fun _ _ hfuel => by omega, fun _ _ hfuel => by omega⟩
  | succ n ih => exact ⟨arrives_value_succ ih, arrives_elements_succ ih, arrives_members_succ ih⟩

theorem arrives_any {before : Blank} {written : List UInt8} (hwritten : IsValue written)
    (hrest : cursor.rest = before.bytes ++ (written ++ rest)) (hends : EndsNumber rest) :
    Arrives (Skip.any cursor) rest :=
  (findsValues _).value hwritten hrest hends (by omega)

end OverlayHost.Json
