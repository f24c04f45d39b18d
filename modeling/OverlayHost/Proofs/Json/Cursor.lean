import OverlayHost.Proofs.Json.Grammar
import OverlayHost.Proofs.Text.Decoding
import Mathlib.Data.List.Basic

/-!
# Where readers get to

What a reader makes of a text depends on the bytes that are still to be read, and the line and the column are only kept for
its errors. So readers are described by the bytes that they leave: `Arrives` is about one that only goes on, `Returns` about
one that also answers something.
-/

set_option autoImplicit false

namespace OverlayHost.Json

variable {α β : Type} {a a' : α} {rest rest' bytes : List UInt8} {cursor : Cursor} {c : Char} {fault : Fault}

/-- The reader succeeds and leaves these bytes. -/
def Arrives (result : Except Error Cursor) (rest : List UInt8) : Prop :=
  ∃ cursor, result = .ok cursor ∧ cursor.rest = rest

/-- The reader answers this and leaves these bytes. -/
def Returns (result : Except Error (α × Cursor)) (a : α) (rest : List UInt8) : Prop :=
  ∃ cursor, result = .ok (a, cursor) ∧ cursor.rest = rest

theorem arrives_ok : Arrives (.ok cursor) rest ↔ cursor.rest = rest := by
  constructor
  · rintro ⟨_, hsame, hrest⟩
    cases hsame
    exact hrest
  · exact fun hrest => ⟨cursor, rfl, hrest⟩

theorem bind_eq_ok_iff {x : Except Error α} {f : α → Except Error β} {b : β} :
    x >>= f = .ok b ↔ ∃ a, x = .ok a ∧ f a = .ok b := by
  cases x with
  | error error => exact iff_of_false nofun nofun
  | ok a => exact ⟨fun h => ⟨a, rfl, h⟩, fun ⟨_, hsame, h⟩ => Except.ok.inj hsame ▸ h⟩

theorem Arrives.unique {result : Except Error Cursor} (h : Arrives result rest) (h' : Arrives result rest') :
    rest = rest' := by
  obtain ⟨cursor, hresult, rfl⟩ := h
  obtain ⟨cursor', hresult', rfl⟩ := h'
  rw [Except.ok.inj (hresult.symm.trans hresult')]

theorem returns_ok : Returns (.ok (a, cursor)) a' rest ↔ a = a' ∧ cursor.rest = rest := by
  constructor
  · rintro ⟨_, hsame, hrest⟩
    cases hsame
    exact ⟨rfl, hrest⟩
  · rintro ⟨rfl, hrest⟩
    exact ⟨cursor, rfl, hrest⟩

theorem returns_bind {x : Except Error β} {f : β → Except Error (α × Cursor)} :
    Returns (x >>= f) a rest ↔ ∃ b, x = .ok b ∧ Returns (f b) a rest := by
  constructor
  · rintro ⟨cursor, h, hrest⟩
    obtain ⟨b, hb, h⟩ := bind_eq_ok_iff.mp h
    exact ⟨b, hb, cursor, h, hrest⟩
  · rintro ⟨b, hb, cursor, h, hrest⟩
    exact ⟨cursor, bind_eq_ok_iff.mpr ⟨b, hb, h⟩, hrest⟩

theorem Returns.unique {result : Except Error (α × Cursor)} (h : Returns result a rest) (h' : Returns result a' rest') :
    a = a' ∧ rest = rest' := by
  obtain ⟨cursor, hresult, rfl⟩ := h
  obtain ⟨cursor', hresult', rfl⟩ := h'
  obtain ⟨rfl, rfl⟩ := Prod.mk.inj (Except.ok.inj (hresult.symm.trans hresult'))
  exact ⟨rfl, rfl⟩

namespace Cursor

theorem not_arrives_here : ¬Arrives (cursor.here fault) rest := nofun

theorem not_arrives_ahead : ¬Arrives (cursor.ahead fault) rest := nofun

theorem not_returns_here : ¬Returns (cursor.here fault) a rest := nofun

theorem not_returns_ahead : ¬Returns (cursor.ahead fault) a rest := nofun

/-! ## Steps -/

theorem rest_step (cursor : Cursor) : cursor.step.rest = cursor.rest.tail := by
  unfold step
  split
  next hrest => simp [hrest]
  next b rest hrest => split <;> simp [hrest]

theorem rest_advance (n : Nat) (cursor : Cursor) : (advance n cursor).rest = cursor.rest.drop n := by
  induction n generalizing cursor with
  | zero => rfl
  | succ n ih => rw [advance, ih, rest_step, List.drop_tail]

theorem rest_dropWhile (test : UInt8 → Bool) (cursor : Cursor) :
    (cursor.dropWhile test).rest = cursor.rest.dropWhile test := by
  rw [Cursor.dropWhile, rest_advance]
  nth_rewrite 2 [← List.takeWhile_append_dropWhile (p := test) (l := cursor.rest)]
  rw [List.drop_left]

/-- What is dropped is a run of bytes on which the test holds. -/
theorem exists_run (test : UInt8 → Bool) (cursor : Cursor) :
    ∃ run, (∀ b ∈ run, test b = true) ∧ cursor.rest = run ++ (cursor.dropWhile test).rest := by
  refine ⟨cursor.rest.takeWhile test, fun b hb => List.all_eq_true.mp List.all_takeWhile b hb, ?_⟩
  rw [rest_dropWhile, List.takeWhile_append_dropWhile]

theorem rest_skipBlanks (cursor : Cursor) : cursor.skipBlanks.rest = cursor.rest.dropWhile isBlank :=
  rest_dropWhile isBlank cursor

theorem toNat_ofNat_byte (b : UInt8) : (Char.ofNat b.toNat).toNat = b.toNat :=
  Text.Utf8.toNat_ofNat (.inl (Nat.lt_trans b.toNat_lt (by decide)))

theorem peek?_eq_none_iff : cursor.peek? = none ↔ cursor.rest = [] := by simp [peek?]

/-- The byte that is looked at is the one of the character. -/
theorem rest_of_peek? (h : cursor.peek? = some c) : cursor.rest = ascii c :: cursor.step.rest := by
  unfold peek? at h
  cases hrest : cursor.rest with
  | nil =>
    rw [hrest] at h
    cases h
  | cons b rest =>
    rw [hrest] at h
    obtain rfl : Char.ofNat b.toNat = c := Option.some.inj h
    rw [ascii, toNat_ofNat_byte, UInt8.ofNat_toNat, rest_step, hrest, List.tail_cons]

theorem peek?_of_rest (h : cursor.rest = ascii c :: rest) (hc : c.toNat < 256) : cursor.peek? = some c := by
  have hbyte : (ascii c).toNat = c.toNat := by
    rw [ascii, UInt8.toNat_ofNat']
    exact Nat.mod_eq_of_lt hc
  rw [peek?, h, List.head?_cons, Option.map_some, hbyte, Char.ofNat_toNat]

theorem peek?_ne_of_head (h : ∀ b ∈ cursor.rest.head?, b ≠ ascii c) : cursor.peek? ≠ some c := by
  intro hpeek
  rw [rest_of_peek? hpeek] at h
  exact h _ rfl rfl

theorem peek?_ne_of_rest {b : UInt8} (h : cursor.rest = b :: rest) (hb : b ≠ ascii c) : cursor.peek? ≠ some c :=
  peek?_ne_of_head fun _ hhead => by
    rw [h] at hhead
    exact Option.some.inj hhead ▸ hb

theorem rest_step_of_cons {b : UInt8} (h : cursor.rest = b :: rest) : cursor.step.rest = rest := by
  rw [rest_step, h, List.tail_cons]

theorem length_step_lt {b : UInt8} (h : cursor.rest = b :: rest) : cursor.step.rest.length < cursor.rest.length := by
  rw [rest_step_of_cons h, h]
  exact Nat.lt_succ_self _

theorem atDigit_iff : cursor.atDigit = true ↔ ∃ digit rest, cursor.rest = digit :: rest ∧ isDigit digit = true := by
  unfold atDigit
  cases cursor.rest with
  | nil => simp
  | cons b rest => simp

/-! ## Words -/

theorem arrives_word {expected : List Char} (hexpected : expected.all (·.toNat < 256) = true) :
    Arrives (cursor.word expected) rest ↔ cursor.rest = expected.map ascii ++ rest := by
  induction expected generalizing cursor with
  | nil => exact arrives_ok
  | cons c expected ih =>
    rw [List.all_cons, Bool.and_eq_true, decide_eq_true_eq] at hexpected
    rw [List.map_cons, List.cons_append, Cursor.word]
    cases hpeek : cursor.peek? with
    | none =>
      refine iff_of_false not_arrives_here ?_
      rw [peek?_eq_none_iff.mp hpeek]
      exact nofun
    | some found =>
      dsimp only
      split
      next hsame =>
        rw [ih hexpected.2, rest_of_peek? hpeek, hsame, List.cons.injEq]
        exact (and_iff_right rfl).symm
      next hother =>
        refine iff_of_false not_arrives_here fun hrest => hother ?_
        rw [peek?_of_rest hrest hexpected.1] at hpeek
        exact (Option.some.inj hpeek).symm

/-! ## Blank space -/

open Grammar (Blank)

/-- No blank space is next. -/
def StartsFull (bytes : List UInt8) : Prop := ∀ b ∈ bytes.head?, isBlank b = false

theorem startsFull_cons {b : UInt8} : StartsFull (b :: rest) ↔ isBlank b = false := by simp [StartsFull]

theorem dropWhile_isBlank_of_startsFull (h : StartsFull bytes) : bytes.dropWhile isBlank = bytes := by
  cases bytes with
  | nil => rfl
  | cons b bytes => rw [List.dropWhile_cons_of_neg (by simp [startsFull_cons.mp h])]

theorem exists_blank (cursor : Cursor) : ∃ before : Blank, cursor.rest = before.bytes ++ cursor.skipBlanks.rest := by
  obtain ⟨run, hrun, hrest⟩ := exists_run isBlank cursor
  exact ⟨⟨run, hrun⟩, hrest⟩

theorem rest_skipBlanks_of_blank (before : Blank) (h : cursor.rest = before.bytes ++ bytes) (hfull : StartsFull bytes) :
    cursor.skipBlanks.rest = bytes := by
  rw [rest_skipBlanks, h, List.dropWhile_append_of_pos before.isBlank, dropWhile_isBlank_of_startsFull hfull]

theorem length_skipBlanks_le (cursor : Cursor) : cursor.skipBlanks.rest.length ≤ cursor.rest.length := by
  rw [rest_skipBlanks]
  exact (List.dropWhile_sublist isBlank).length_le

theorem length_step_skipBlanks_lt {b : UInt8} (h : cursor.rest = b :: rest) :
    cursor.step.skipBlanks.rest.length < cursor.rest.length := by
  have hshort := length_skipBlanks_le cursor.step
  rw [rest_step_of_cons h] at hshort
  rw [h, List.length_cons]
  omega

end Cursor

end OverlayHost.Json
