import OverlayHost.Json.Decode
import OverlayHost.Proofs.Json.Text

/-!
# What decoders read

A decoder is described by what is written for each of its values (`Reads`): it reads the value from just that, with blank
space before it, and looks at nothing after it. The description of a decoder is put together from those of the decoders it
calls. So a record (`reads_record`) may hold any field that a decoder reads, another record too.
-/

set_option autoImplicit false

namespace OverlayHost.Json

open Grammar

variable {α : Type} {writes : α → List UInt8 → Prop} {decoder : Decoder α} {a a' : α} {found result : Option α} {name : String}
  {fresh : Bool} {members : List Member} {rest written bytes : List UInt8} {cursor place : Cursor} {c : Char} {n : Nat}

/-- A decoder reads a value from what is written for it, and from nothing else. -/
structure Reads (decoder : Decoder α) (writes : α → List UInt8 → Prop) : Prop where
  isValue {a : α} {written : List UInt8} (h : writes a written) : IsValue written
  returns {cursor : Cursor} {a : α} {rest : List UInt8} : Returns (decoder cursor) a rest ↔
    ∃ (before : Blank) (written : List UInt8), writes a written ∧ cursor.rest = before.bytes ++ (written ++ rest)

/-! ## Truth values and null -/

theorem first_eq_ok_iff (cursor : Cursor) :
    Decoder.first cursor = .ok (c, place) ↔ cursor.skipBlanks = place ∧ place.peek? = some c := by
  unfold Decoder.first
  dsimp only
  cases hpeek : cursor.skipBlanks.peek? with
  | none =>
    refine iff_of_false nofun ?_
    rintro ⟨rfl, hsome⟩
    rw [hpeek] at hsome
    cases hsome
  | some found =>
    constructor
    · intro h
      obtain ⟨rfl, rfl⟩ := Prod.mk.inj (Except.ok.inj h)
      exact ⟨rfl, hpeek⟩
    · rintro ⟨rfl, hsome⟩
      rw [hpeek] at hsome
      rw [Option.some.inj hsome]

theorem mismatch_ne_ok (expected : String) (cursor : Cursor) (a : α) : Decoder.mismatch expected cursor ≠ .ok a := by
  have hbind {β : Type} (x : Except Error β) {f : β → Except Error α} (hf : ∀ b, f b ≠ .ok a) : x >>= f ≠ .ok a := by
    rw [ne_eq, bind_eq_ok_iff]
    exact fun ⟨b, _, h⟩ => hf b h
  unfold Decoder.mismatch
  dsimp only
  split
  case h_6 => exact nofun
  case h_7 => exact nofun
  case h_8 =>
    split
    next => exact hbind _ fun _ => nofun
    next => exact nofun
  all_goals exact hbind _ fun _ => nofun

theorem not_returns_mismatch {expected : String} : ¬Returns (Decoder.mismatch expected cursor) a rest :=
  fun ⟨_, h, _⟩ => mismatch_ne_ok _ _ _ h

/-- A value that is written as a word is read up to the end of the word. -/
theorem returns_word {expected : List Char} (hexpected : expected.all (·.toNat < 256) = true) :
    Returns (do return (a, ← cursor.word expected)) a' rest ↔ a = a' ∧ cursor.rest = expected.map ascii ++ rest := by
  rw [returns_bind, ← Cursor.arrives_word hexpected]
  constructor
  · rintro ⟨after, hword, h⟩
    obtain ⟨rfl, hrest⟩ := returns_ok.mp h
    exact ⟨rfl, after, hword, hrest⟩
  · rintro ⟨rfl, after, hword, hrest⟩
    exact ⟨after, hword, returns_ok.mpr ⟨rfl, hrest⟩⟩

/-- A truth value is written as its word. -/
def IsBoolean (value : Bool) (written : List UInt8) : Prop := written = word (toString value)

theorem reads_boolean : Reads Decoder.boolean IsBoolean where
  isValue {value written} h := by
    cases value with
    | false => exact h ▸ .false
    | true => exact h ▸ .true
  returns {cursor value rest} := by
    unfold Decoder.boolean
    rw [returns_bind]
    constructor
    · rintro ⟨⟨c, place⟩, hfirst, h⟩
      obtain ⟨rfl, hpeek⟩ := (first_eq_ok_iff _).mp hfirst
      obtain ⟨before, hbefore⟩ := Cursor.exists_blank cursor
      dsimp only at h
      split at h
      next =>
        obtain ⟨rfl, hrest⟩ := (returns_word (by decide)).mp h
        exact ⟨before, _, rfl, by rw [hbefore, Cursor.rest_of_peek? hpeek, hrest]; rfl⟩
      next =>
        obtain ⟨rfl, hrest⟩ := (returns_word (by decide)).mp h
        exact ⟨before, _, rfl, by rw [hbefore, Cursor.rest_of_peek? hpeek, hrest]; rfl⟩
      next => exact absurd h not_returns_mismatch
    · rintro ⟨before, written, rfl, hrest⟩
      cases value with
      | false =>
        have hstart := Cursor.rest_skipBlanks_of_blank before hrest (startsFull_of_isValue .false rest)
        exact ⟨_, (first_eq_ok_iff _).mpr ⟨rfl, Cursor.peek?_of_rest hstart (by decide)⟩,
          (returns_word (by decide)).mpr ⟨rfl, Cursor.rest_step_of_cons hstart⟩⟩
      | true =>
        have hstart := Cursor.rest_skipBlanks_of_blank before hrest (startsFull_of_isValue .true rest)
        exact ⟨_, (first_eq_ok_iff _).mpr ⟨rfl, Cursor.peek?_of_rest hstart (by decide)⟩,
          (returns_word (by decide)).mpr ⟨rfl, Cursor.rest_step_of_cons hstart⟩⟩

/-- Nothing is written as null, and something as itself. -/
def IsNullable (writes : α → List UInt8 → Prop) : Option α → List UInt8 → Prop
  | none, written => written = word "null"
  | some a, written => writes a written

/-- A value may be null if no other value begins as null does. -/
theorem reads_nullable (hreads : Reads decoder writes)
    (hother : ∀ {a written}, writes a written → written.head? ≠ some (ascii 'n')) :
    Reads (Decoder.nullable decoder) (IsNullable writes) where
  isValue {value written} h := by
    cases value with
    | none => exact h ▸ .null
    | some a => exact hreads.isValue h
  returns {cursor value rest} := by
    unfold Decoder.nullable
    dsimp only
    constructor
    · intro h
      obtain ⟨before, hbefore⟩ := Cursor.exists_blank cursor
      split at h
      next hpeek =>
        obtain ⟨rfl, hrest⟩ := (returns_word (by decide)).mp h
        exact ⟨before, word "null", rfl, by rw [hbefore, Cursor.rest_of_peek? hpeek, hrest]; rfl⟩
      next =>
        obtain ⟨⟨a, after⟩, hafter, h⟩ := returns_bind.mp h
        obtain ⟨rfl, hend⟩ := returns_ok.mp h
        obtain ⟨more, written, hwritten, hrest⟩ := hreads.returns.mp ⟨after, hafter, hend⟩
        exact ⟨before.append more, written, hwritten, by rw [hbefore, hrest]; simp [Blank.append]⟩
    · rintro ⟨before, written, hwritten, hrest⟩
      cases value with
      | none =>
        obtain rfl : written = word "null" := hwritten
        have hstart := Cursor.rest_skipBlanks_of_blank before hrest (startsFull_of_isValue .null rest)
        rw [Cursor.peek?_of_rest hstart (by decide)]
        exact (returns_word (by decide)).mpr ⟨rfl, Cursor.rest_step_of_cons hstart⟩
      | some a =>
        have hwritten : writes a written := hwritten
        obtain ⟨first, more, rfl, -, -⟩ := exists_first_of_isValue (hreads.isValue hwritten)
        have hstart := Cursor.rest_skipBlanks_of_blank before hrest (startsFull_of_isValue (hreads.isValue hwritten) rest)
        obtain ⟨after, hafter, hend⟩ := hreads.returns.mpr ⟨.empty, _, hwritten, hstart⟩
        split
        next hpeek =>
          refine absurd hpeek (Cursor.peek?_ne_of_rest hstart fun hnull => hother hwritten ?_)
          rw [List.head?_cons, hnull]
        next => exact returns_bind.mpr ⟨_, hafter, returns_ok.mpr ⟨rfl, hend⟩⟩

/-! ## Members -/

/-- What is in front of a part: a comma, if there are parts before it. -/
def lead : Bool → List UInt8
  | true => []
  | false => [ascii ',']

/-- The parts that are left, all of them if none was read before. -/
def following : Bool → List (List UInt8) → List UInt8
  | true, parts => separated parts
  | false, parts => parts.flatMap (ascii ',' :: ·)

theorem following_nil : following fresh [] = [] := by cases fresh <;> rfl

theorem following_cons (part : List UInt8) (parts : List (List UInt8)) :
    following fresh (part :: parts) = lead fresh ++ (part ++ following false parts) := by
  cases fresh with
  | true => exact separated_cons part parts
  | false => rfl

theorem returns_nextMember_false (cursor : Cursor) : Returns (Decoder.nextMember fresh cursor) false rest ↔
    ∃ (before : Blank) (more : List UInt8), rest = ascii '\x7d' :: more ∧ cursor.rest = before.bytes ++ rest := by
  unfold Decoder.nextMember
  dsimp only
  constructor
  · intro h
    obtain ⟨before, hbefore⟩ := Cursor.exists_blank cursor
    split at h
    next => exact absurd h Cursor.not_returns_ahead
    next hpeek =>
      obtain ⟨-, hrest⟩ := returns_ok.mp h
      exact ⟨before, _, hrest.symm.trans (Cursor.rest_of_peek? hpeek), by rw [hbefore, hrest]⟩
    next c _ hpeek =>
      cases fresh with
      | true =>
        rw [if_pos rfl] at h
        split at h
        next => exact absurd (returns_ok.mp h).1 nofun
        next => exact absurd h Cursor.not_returns_ahead
      | false =>
        rw [if_neg nofun] at h
        split at h
        next =>
          split at h
          next => exact absurd (returns_ok.mp h).1 nofun
          all_goals exact absurd h Cursor.not_returns_ahead
        next => exact absurd h Cursor.not_returns_ahead
  · rintro ⟨before, more, rfl, hrest⟩
    have hclose := Cursor.rest_skipBlanks_of_blank before hrest (Cursor.startsFull_cons.mpr (by decide))
    rw [Cursor.peek?_of_rest hclose (by decide)]
    exact returns_ok.mpr ⟨rfl, hclose⟩

theorem returns_nextMember_true (cursor : Cursor) : Returns (Decoder.nextMember fresh cursor) true rest ↔
    ∃ outer before : Blank, cursor.rest = outer.bytes ++ (lead fresh ++ (before.bytes ++ ascii '"' :: rest)) := by
  unfold Decoder.nextMember
  dsimp only
  constructor
  · intro h
    obtain ⟨outer, houter⟩ := Cursor.exists_blank cursor
    split at h
    next => exact absurd h Cursor.not_returns_ahead
    next => exact absurd (returns_ok.mp h).1 nofun
    next c _ hpeek =>
      have hfirst := Cursor.rest_of_peek? hpeek
      cases fresh with
      | true =>
        rw [if_pos rfl] at h
        split at h
        next hquote =>
          obtain ⟨-, rfl⟩ := returns_ok.mp h
          exact ⟨outer, .empty, by rw [houter, hfirst, hquote]; rfl⟩
        next => exact absurd h Cursor.not_returns_ahead
      | false =>
        rw [if_neg nofun] at h
        split at h
        next hcomma =>
          obtain ⟨before, hbefore⟩ := Cursor.exists_blank cursor.skipBlanks.step
          split at h
          next hquote =>
            obtain ⟨-, rfl⟩ := returns_ok.mp h
            exact ⟨outer, before, by rw [houter, hfirst, hcomma, hbefore, Cursor.rest_of_peek? hquote]; rfl⟩
          all_goals exact absurd h Cursor.not_returns_ahead
        next => exact absurd h Cursor.not_returns_ahead
  · rintro ⟨outer, before, hrest⟩
    cases fresh with
    | true =>
      have hquote : cursor.skipBlanks.rest = ascii '"' :: rest :=
        rest_skipBlanks_of_blanks outer before hrest (Cursor.startsFull_cons.mpr (by decide))
      rw [Cursor.peek?_of_rest hquote (by decide)]
      exact returns_ok.mpr ⟨rfl, Cursor.rest_step_of_cons hquote⟩
    | false =>
      have hcomma : cursor.skipBlanks.rest = ascii ',' :: (before.bytes ++ ascii '"' :: rest) :=
        Cursor.rest_skipBlanks_of_blank outer hrest (Cursor.startsFull_cons.mpr (by decide))
      have hquote : cursor.skipBlanks.step.skipBlanks.rest = ascii '"' :: rest :=
        Cursor.rest_skipBlanks_of_blank before (Cursor.rest_step_of_cons hcomma) (Cursor.startsFull_cons.mpr (by decide))
      rw [Cursor.peek?_of_rest hcomma (by decide), Cursor.peek?_of_rest hquote (by decide)]
      exact returns_ok.mpr ⟨rfl, Cursor.rest_step_of_cons hquote⟩

/-- What the members of an object say about a field, of which this was found in the members before them. -/
inductive Gathers (name : String) (writes : α → List UInt8 → Prop) : Option α → List Member → Option α → Prop where
  | nil {found : Option α} : Gathers name writes found [] found
  | other {found result : Option α} {member : Member} {members : List Member} {text : String} (hname : member.IsNamed text)
      (hother : text ≠ name) (hvalue : IsValue member.value) (hmore : Gathers name writes found members result) :
      Gathers name writes found (member :: members) result
  | named {a : α} {result : Option α} {member : Member} {members : List Member} (hname : member.IsNamed name)
      (hvalue : writes a member.value) (hmore : Gathers name writes (some a) members result) :
      Gathers name writes none (member :: members) result

/-- Up to the colon of a member its name is read. -/
theorem exists_name {afterQuote afterName afterColon : Cursor} {text : String}
    (hnext : Decoder.nextMember fresh cursor = .ok (true, afterQuote)) (hread : Text.read afterQuote = .ok (text, afterName))
    (hcolon : Skip.colon afterName = .ok afterColon) :
    ∃ (outer before colon : Blank) (inside : List UInt8), Spells inside text.toList ∧ cursor.rest = outer.bytes ++
      (lead fresh ++ (before.bytes ++ ascii '"' :: (inside ++ ascii '"' :: (colon.bytes ++ ascii ':' :: afterColon.rest)))) := by
  obtain ⟨outer, before, hrest⟩ := (returns_nextMember_true _).mp ⟨afterQuote, hnext, rfl⟩
  obtain ⟨inside, hinside, hmore⟩ := (returns_text _).mp ⟨afterName, hread, rfl⟩
  obtain ⟨colon, hafter⟩ := (arrives_colon _).mp ⟨afterColon, hcolon, rfl⟩
  exact ⟨outer, before, colon, inside, hinside, by rw [hrest, hmore, hafter]⟩

theorem gathers_of_returns {r : Decoder.Record α} (hreads : Reads r.decoder writes)
    (h : Returns (Decoder.members r n fresh found cursor) result rest) :
    ∃ (before : Blank) (members : List Member) (more : List UInt8), rest = ascii '\x7d' :: more ∧
      Gathers r.name writes found members result ∧
      cursor.rest = before.bytes ++ (following fresh (members.map Member.bytes) ++ rest) := by
  -- each step leaves the members after the first one, of which more may have been found
  induction n generalizing fresh found cursor with
  | zero => exact absurd h Cursor.not_returns_here
  | succ n ih =>
    obtain ⟨⟨further, afterQuote⟩, hnext, hmember⟩ := returns_bind.mp h
    clear h
    cases further with
    | false =>
      obtain ⟨rfl, hend⟩ := returns_ok.mp hmember
      obtain ⟨before, more, hclose, hrest⟩ := (returns_nextMember_false _).mp ⟨afterQuote, hnext, hend⟩
      exact ⟨before, [], more, hclose, .nil, by rw [hrest, List.map_nil, following_nil]; rfl⟩
    | true =>
      obtain ⟨⟨text, afterName⟩, hread, hnamed⟩ := returns_bind.mp hmember
      clear hmember
      dsimp only at hnamed
      split at hnamed
      next hname =>
        split at hnamed
        next => exact absurd hnamed Cursor.not_returns_here
        next hfound =>
          obtain rfl : found = none := by simpa using hfound
          obtain ⟨afterColon, hcolon, hitem⟩ := returns_bind.mp hnamed
          obtain ⟨⟨value, afterValue⟩, hvalue, hmore⟩ := returns_bind.mp hitem
          obtain ⟨outer, before, colon, inside, hinside, hrest⟩ := exists_name hnext hread hcolon
          obtain ⟨start, written, hwritten, hstart⟩ := hreads.returns.mp ⟨afterValue, hvalue, rfl⟩
          obtain ⟨after, members, more, hclose, hmembers, hafter⟩ := ih hmore
          refine ⟨outer, ⟨before, inside, colon, ⟨start, written, after⟩⟩ :: members, more, hclose,
            .named (hname ▸ hinside) hwritten hmembers, ?_⟩
          rw [hrest, hstart, hafter, List.map_cons, following_cons]
          simp [Member.bytes, Item.bytes]
      next hname =>
        obtain ⟨afterColon, hcolon, hitem⟩ := returns_bind.mp hnamed
        obtain ⟨afterValue, hvalue, hmore⟩ := returns_bind.mp hitem
        obtain ⟨outer, before, colon, inside, hinside, hrest⟩ := exists_name hnext hread hcolon
        obtain ⟨start, written, hwritten, hstart⟩ := isValue_of_arrives ⟨afterValue, hvalue, rfl⟩
        obtain ⟨after, members, more, hclose, hmembers, hafter⟩ := ih hmore
        refine ⟨outer, ⟨before, inside, colon, ⟨start, written, after⟩⟩ :: members, more, hclose,
          .other hinside hname hwritten hmembers, ?_⟩
        rw [hrest, hstart, hafter, List.map_cons, following_cons]
        simp [Member.bytes, Item.bytes]

/-- The first of some members is the next one, and what comes after the quote that opens its name is left. -/
theorem returns_nextMember_cons {before : Blank} {member : Member}
    (hrest : cursor.rest = before.bytes ++ (following fresh ((member :: members).map Member.bytes) ++ rest)) :
    Returns (Decoder.nextMember fresh cursor) true (member.name ++ ascii '"' :: (member.colon.bytes ++ ascii ':' ::
      (member.item.before.bytes ++ (member.value ++
        (member.item.after.bytes ++ (following false (members.map Member.bytes) ++ rest)))))) := by
  refine (returns_nextMember_true _).mpr ⟨before, member.before, ?_⟩
  rw [hrest, List.map_cons, following_cons]
  simp [Member.bytes, Member.value, Item.bytes]

/-- The name of a member is read, and the colon after it; less is left after its value. -/
theorem exists_afterColon {before : Blank} {member : Member} {text : String} (hname : member.IsNamed text)
    (hrest : cursor.rest = before.bytes ++ (following fresh ((member :: members).map Member.bytes) ++ rest)) :
    ∃ afterQuote afterName afterColon : Cursor, Decoder.nextMember fresh cursor = .ok (true, afterQuote) ∧
      Text.read afterQuote = .ok (text, afterName) ∧ Skip.colon afterName = .ok afterColon ∧
      afterColon.rest = member.item.before.bytes ++
        (member.value ++ (member.item.after.bytes ++ (following false (members.map Member.bytes) ++ rest))) ∧
      (member.item.after.bytes ++ (following false (members.map Member.bytes) ++ rest)).length < cursor.rest.length := by
  obtain ⟨afterQuote, hnext, hquote⟩ := returns_nextMember_cons hrest
  obtain ⟨afterName, hread, hnamed⟩ := (returns_text _).mpr ⟨_, hname, hquote⟩
  obtain ⟨afterColon, hcolon, hitem⟩ := (arrives_colon _).mpr ⟨_, hnamed⟩
  refine ⟨afterQuote, afterName, afterColon, hnext, hread, hcolon, hitem, ?_⟩
  rw [hrest, List.map_cons, following_cons]
  simp only [Member.bytes, Item.bytes, List.length_append, List.length_cons]
  omega

theorem returns_of_gathers {r : Decoder.Record α} (hreads : Reads r.decoder writes)
    (hmembers : Gathers r.name writes found members result) {before : Blank}
    (hrest : cursor.rest = before.bytes ++ (following fresh (members.map Member.bytes) ++ ascii '\x7d' :: rest))
    (hfuel : cursor.rest.length < n) :
    Returns (Decoder.members r n fresh found cursor) result (ascii '\x7d' :: rest) := by
  -- each member takes bytes, so the steps last to the end of the members
  induction hmembers generalizing n fresh before cursor with
  | nil =>
    obtain ⟨n, rfl⟩ := Nat.exists_eq_add_one_of_ne_zero (Nat.ne_zero_of_lt hfuel)
    rw [List.map_nil, following_nil] at hrest
    obtain ⟨place, hnext, hend⟩ := (returns_nextMember_false _).mpr ⟨before, rest, rfl, hrest⟩
    exact returns_bind.mpr ⟨_, hnext, returns_ok.mpr ⟨rfl, hend⟩⟩
  | @other found result member members text hname hother hvalue _ ih =>
    obtain ⟨n, rfl⟩ := Nat.exists_eq_add_one_of_ne_zero (Nat.ne_zero_of_lt hfuel)
    obtain ⟨afterQuote, afterName, afterColon, hnext, hread, hcolon, hitem, hshort⟩ := exists_afterColon hname hrest
    have hends : EndsNumber (following false (members.map Member.bytes) ++ ascii '\x7d' :: rest) :=
      (endsNumber_and_startsFull _ (endsNumber_cons.mpr (by decide)) (by decide)).1
    obtain ⟨afterValue, hskip, hafter⟩ := arrives_any hvalue hitem (endsNumber_blank_append _ hends)
    refine returns_bind.mpr ⟨_, hnext, returns_bind.mpr ⟨_, hread, ?_⟩⟩
    dsimp only
    rw [if_neg hother]
    refine returns_bind.mpr ⟨_, hcolon, returns_bind.mpr ⟨_, hskip, ih hafter ?_⟩⟩
    rw [hafter]
    exact Nat.lt_of_lt_of_le hshort (Nat.le_of_lt_succ hfuel)
  | @named a result member members hname hvalue _ ih =>
    obtain ⟨n, rfl⟩ := Nat.exists_eq_add_one_of_ne_zero (Nat.ne_zero_of_lt hfuel)
    obtain ⟨afterQuote, afterName, afterColon, hnext, hread, hcolon, hitem, hshort⟩ := exists_afterColon hname hrest
    obtain ⟨afterValue, hread', hafter⟩ := hreads.returns.mpr ⟨_, _, hvalue, hitem⟩
    refine returns_bind.mpr ⟨_, hnext, returns_bind.mpr ⟨_, hread, ?_⟩⟩
    dsimp only
    rw [if_pos rfl, if_neg nofun]
    refine returns_bind.mpr ⟨_, hcolon, returns_bind.mpr ⟨_, hread', ih hafter ?_⟩⟩
    rw [hafter]
    exact Nat.lt_of_lt_of_le hshort (Nat.le_of_lt_succ hfuel)

/-! ## What is found in an object -/

/-- No member has the name. -/
def Lacks (members : List Member) (name : String) : Prop := ∀ member ∈ members, ¬member.IsNamed name

/-- Just one member has the name, and it has such a value. -/
def HasOne (members : List Member) (name : String) (p : List UInt8 → Prop) : Prop :=
  ∃ (earlier : List Member) (member : Member) (later : List Member), members = earlier ++ member :: later ∧
    member.IsNamed name ∧ p member.value ∧ Lacks (earlier ++ later) name

/-- What the members of an object say about a field. -/
def IsFound (name : String) (writes : α → List UInt8 → Prop) (members : List Member) : Option α → Prop
  | none => Lacks members name
  | some a => HasOne members name (writes a)

theorem Gathers.forall_members (hvalue : ∀ {a written}, writes a written → IsValue written)
    (h : Gathers name writes found members result) : ∀ member ∈ members, member.IsReadable ∧ IsValue member.value := by
  induction h with
  | nil => exact List.forall_mem_nil _
  | other hname _ hother _ ih => exact List.forall_mem_cons.mpr ⟨⟨⟨_, hname⟩, hother⟩, ih⟩
  | named hname hwritten _ ih => exact List.forall_mem_cons.mpr ⟨⟨⟨_, hname⟩, hvalue hwritten⟩, ih⟩

theorem not_isNamed {member : Member} {text : String} (h : member.IsNamed text) (hother : text ≠ name) :
    ¬member.IsNamed name :=
  fun hname => hother (String.toList_inj.mp (h.unique hname))

theorem Gathers.of_some (h : Gathers name writes (some a) members result) : Lacks members name ∧ result = some a := by
  generalize hfound : some a = found at h
  induction h with
  | nil => exact ⟨List.forall_mem_nil _, rfl⟩
  | other hname hother _ _ ih =>
    obtain ⟨hlacks, hresult⟩ := ih hfound
    exact ⟨List.forall_mem_cons.mpr ⟨not_isNamed hname hother, hlacks⟩, hresult⟩
  | named => cases hfound

theorem Gathers.isFound (h : Gathers name writes none members result) : IsFound name writes members result := by
  generalize hfound : none = found at h
  induction h with
  | nil =>
    subst hfound
    exact List.forall_mem_nil _
  | @other found result member members text hname hother _ _ ih =>
    have hfirst := not_isNamed hname hother
    cases result with
    | none => exact List.forall_mem_cons.mpr ⟨hfirst, ih hfound⟩
    | some a =>
      obtain ⟨earlier, one, later, rfl, hone, hwritten, hlacks⟩ := ih hfound
      exact ⟨member :: earlier, one, later, rfl, hone, hwritten, List.forall_mem_cons.mpr ⟨hfirst, hlacks⟩⟩
  | @named a result member members hname hwritten hmore _ =>
    obtain ⟨hlacks, rfl⟩ := hmore.of_some
    exact ⟨[], member, members, rfl, hname, hwritten, hlacks⟩

theorem gathers_of_lacks (hmembers : ∀ member ∈ members, member.IsReadable ∧ IsValue member.value)
    (hlacks : Lacks members name) : Gathers name writes found members found := by
  induction members with
  | nil => exact .nil
  | cons member members ih =>
    obtain ⟨⟨⟨text, hname⟩, hvalue⟩, hmembers⟩ := List.forall_mem_cons.mp hmembers
    obtain ⟨hfirst, hlacks⟩ := List.forall_mem_cons.mp hlacks
    exact .other hname (fun hsame => hfirst (hsame ▸ hname)) hvalue (ih hmembers hlacks)

theorem gathers_iff (hvalue : ∀ {a written}, writes a written → IsValue written) :
    Gathers name writes none members result ↔
      (∀ member ∈ members, member.IsReadable ∧ IsValue member.value) ∧ IsFound name writes members result := by
  refine ⟨fun h => ⟨h.forall_members hvalue, h.isFound⟩, ?_⟩
  rintro ⟨hmembers, hfound⟩
  cases result with
  | none => exact gathers_of_lacks hmembers hfound
  | some a =>
    obtain ⟨earlier, member, later, rfl, hname, hwritten, hlacks⟩ := hfound
    obtain ⟨hearlier, hlater⟩ := List.forall_mem_append.mp hlacks
    induction earlier with
    | nil => exact .named hname hwritten (gathers_of_lacks (List.forall_mem_cons.mp hmembers).2 hlacks)
    | cons first earlier ih =>
      obtain ⟨⟨⟨text, hfirst⟩, hvalue⟩, hmembers⟩ := List.forall_mem_cons.mp hmembers
      obtain ⟨hother, hearlier⟩ := List.forall_mem_cons.mp hearlier
      exact .other hfirst (fun hsame => hother (hsame ▸ hfirst)) hvalue
        (ih hmembers (List.forall_mem_append.mpr ⟨hearlier, hlater⟩) hearlier)

/-! ## Records -/

/-- What is written for a record: an object that says so about the field, or a list of the field. -/
inductive IsRecord (r : Decoder.Record α) (writes : α → List UInt8 → Prop) : α → List UInt8 → Prop where
  | object {inside : Blank} {members : List Member} {found : Option α} {a : α}
      (hmembers : ∀ member ∈ members, member.IsReadable ∧ IsValue member.value)
      (hfound : IsFound r.name writes members found) (h : found.or r.inObject = some a) :
      IsRecord r writes a (objectOf inside members)
  | list {inside : Blank} {item : Item} {a : α} (h : writes a item.value) : IsRecord r writes a (listOf inside [item])
  | empty {inside : Blank} {a : α} (h : r.inList = some a) : IsRecord r writes a (listOf inside [])

theorem isValue_of_isRecord {r : Decoder.Record α} (hvalue : ∀ {a written}, writes a written → IsValue written)
    (h : IsRecord r writes a written) : IsValue written := by
  cases h with
  | object hmembers =>
    refine .object (fun member hmember => ?_) fun member hmember => (hmembers member hmember).2
    obtain ⟨⟨text, hname⟩, -⟩ := hmembers member hmember
    exact isText_of_spells hname
  | list hwritten => exact .list (List.forall_mem_singleton.mpr (hvalue hwritten))
  | empty => exact .list (List.forall_mem_nil _)

theorem rest_afterBrace (h : cursor.rest = ascii '\x7d' :: rest) : (Decoder.afterBrace cursor).rest = rest := by
  have hplace : cursor.skipBlanks.rest = ascii '\x7d' :: rest :=
    Cursor.rest_skipBlanks_of_blank .empty h (Cursor.startsFull_cons.mpr (by decide))
  unfold Decoder.afterBrace
  dsimp only
  rw [if_pos (Cursor.peek?_of_rest hplace (by decide)), Cursor.rest_step_of_cons hplace]

theorem nextElement_eq_ok_false_iff (cursor : Cursor) : Decoder.nextElement true cursor = .ok (false, place) ↔
    cursor.skipBlanks = place ∧ place.peek? = some ']' := by
  unfold Decoder.nextElement
  dsimp only
  constructor
  · intro h
    split at h
    next => cases h
    next hpeek =>
      obtain ⟨-, rfl⟩ := Prod.mk.inj (Except.ok.inj h)
      exact ⟨rfl, hpeek⟩
    next => cases h
  · rintro ⟨rfl, hpeek⟩
    rw [hpeek]
    rfl

theorem nextElement_eq_ok_true_iff (cursor : Cursor) : Decoder.nextElement true cursor = .ok (true, place) ↔
    cursor.skipBlanks = place ∧ ∃ c, place.peek? = some c ∧ c ≠ ']' := by
  unfold Decoder.nextElement
  dsimp only
  constructor
  · intro h
    split at h
    next => cases h
    next => cases h
    next c hother hpeek =>
      obtain ⟨-, rfl⟩ := Prod.mk.inj (Except.ok.inj h)
      exact ⟨rfl, c, hpeek, hother⟩
  · rintro ⟨rfl, c, hpeek, hother⟩
    rw [hpeek]
    split
    next => contradiction
    next hclose => exact absurd (Option.some.inj hclose) hother
    next => rfl

theorem arrives_endList (cursor : Cursor) : Arrives (Decoder.endList cursor) rest ↔
    ∃ before : Blank, cursor.rest = before.bytes ++ ascii ']' :: rest := by
  unfold Decoder.endList
  dsimp only
  constructor
  · intro h
    obtain ⟨before, hbefore⟩ := Cursor.exists_blank cursor
    split at h
    next hpeek => exact ⟨before, by rw [hbefore, Cursor.rest_of_peek? hpeek, arrives_ok.mp h]⟩
    next =>
      split at h
      all_goals exact absurd h Cursor.not_arrives_ahead
    next => exact absurd h Cursor.not_arrives_ahead
    next => exact absurd h Cursor.not_arrives_ahead
  · rintro ⟨before, hrest⟩
    have hclose := Cursor.rest_skipBlanks_of_blank before hrest (Cursor.startsFull_cons.mpr (by decide))
    rw [Cursor.peek?_of_rest hclose (by decide)]
    exact arrives_ok.mpr (Cursor.rest_step_of_cons hclose)

theorem record_of_brace {r : Decoder.Record α} (h : cursor.skipBlanks.peek? = some '\x7b') :
    Decoder.record r cursor = (do
      let inside := cursor.skipBlanks.step
      let (found, cursor) ← Decoder.members r (inside.rest.length + 1) true none inside
      let after := Decoder.afterBrace cursor
      match found.or r.inObject with
      | some value => return (value, after)
      | none => after.here (.missingField r.name)) := by
  rw [Decoder.record, (first_eq_ok_iff _).mpr ⟨rfl, h⟩]
  rfl

theorem record_of_bracket {r : Decoder.Record α} (h : cursor.skipBlanks.peek? = some '[') :
    Decoder.record r cursor = (do
      match ← Decoder.nextElement true cursor.skipBlanks.step with
      | (false, cursor) =>
        match r.inList with
        | some value => return (value, ← Decoder.endList cursor)
        | none => cursor.step.here (.wrongLength 0 s!"struct {r.record} with 1 element")
      | (true, cursor) =>
        let (value, cursor) ← r.decoder cursor
        return (value, ← Decoder.endList cursor)) := by
  rw [Decoder.record, (first_eq_ok_iff _).mpr ⟨rfl, h⟩]
  rfl

theorem not_returns_record {r : Decoder.Record α} (hbrace : cursor.skipBlanks.peek? ≠ some '\x7b')
    (hbracket : cursor.skipBlanks.peek? ≠ some '[') : ¬Returns (Decoder.record r cursor) a rest := by
  intro h
  obtain ⟨⟨c, place⟩, hfirst, h⟩ := returns_bind.mp h
  obtain ⟨rfl, hpeek⟩ := (first_eq_ok_iff _).mp hfirst
  dsimp only at h
  split at h
  next => exact hbrace hpeek
  next => exact hbracket hpeek
  next => exact not_returns_mismatch h

/-- Inside the brace that opens an object its members are read, and then the brace that closes it. -/
theorem returns_object {r : Decoder.Record α} (hreads : Reads r.decoder writes)
    (hopen : cursor.skipBlanks.rest = ascii '\x7b' :: bytes) : Returns (Decoder.record r cursor) a rest ↔
    ∃ (inside : Blank) (members : List Member) (found : Option α),
      (∀ member ∈ members, member.IsReadable ∧ IsValue member.value) ∧ IsFound r.name writes members found ∧
      found.or r.inObject = some a ∧ cursor.skipBlanks.rest = objectOf inside members ++ rest := by
  have hinside := Cursor.rest_step_of_cons hopen
  rw [record_of_brace (Cursor.peek?_of_rest hopen (by decide))]
  dsimp only
  rw [returns_bind]
  constructor
  · rintro ⟨⟨found, place⟩, hplace, h⟩
    obtain ⟨inside, members, more, hclose, hmembers, hrest⟩ := gathers_of_returns hreads ⟨place, hplace, rfl⟩
    obtain ⟨hmembers, hfound⟩ := (gathers_iff hreads.isValue).mp hmembers
    dsimp only at h
    split at h
    next value hvalue =>
      obtain ⟨rfl, hend⟩ := returns_ok.mp h
      rw [rest_afterBrace hclose] at hend
      refine ⟨inside, members, found, hmembers, hfound, hvalue, ?_⟩
      rw [hopen, ← hinside, hrest, hclose, hend]
      simp [objectOf, following]
    next => exact absurd h Cursor.not_returns_here
  · rintro ⟨inside, members, found, hmembers, hfound, hvalue, hrest⟩
    have hstart : cursor.skipBlanks.step.rest =
        inside.bytes ++ (following true (members.map Member.bytes) ++ ascii '\x7d' :: rest) := by
      rw [Cursor.rest_step_of_cons hrest]
      simp [following]
    obtain ⟨place, hplace, hend⟩ := returns_of_gathers hreads ((gathers_iff hreads.isValue).mpr ⟨hmembers, hfound⟩)
      hstart (Nat.lt_succ_self _)
    refine ⟨_, hplace, ?_⟩
    dsimp only
    rw [hvalue]
    exact returns_ok.mpr ⟨rfl, rest_afterBrace hend⟩

/-- Inside the bracket that opens a list the field is read, if it is there, and then the bracket that closes the list. -/
theorem returns_list {r : Decoder.Record α} (hreads : Reads r.decoder writes)
    (hopen : cursor.skipBlanks.rest = ascii '[' :: bytes) : Returns (Decoder.record r cursor) a rest ↔
    (∃ inside : Blank, r.inList = some a ∧ cursor.skipBlanks.rest = listOf inside [] ++ rest) ∨
      ∃ (inside : Blank) (item : Item), writes a item.value ∧ cursor.skipBlanks.rest = listOf inside [item] ++ rest := by
  have hinside := Cursor.rest_step_of_cons hopen
  rw [record_of_bracket (Cursor.peek?_of_rest hopen (by decide)), returns_bind]
  constructor
  · rintro ⟨⟨further, place⟩, hnext, h⟩
    obtain ⟨inside, hblank⟩ := Cursor.exists_blank cursor.skipBlanks.step
    cases further with
    | false =>
      obtain ⟨rfl, hpeek⟩ := (nextElement_eq_ok_false_iff _).mp hnext
      dsimp only at h
      split at h
      next value hvalue =>
        obtain ⟨after, hafter, hend⟩ := returns_bind.mp h
        obtain ⟨rfl, hrest⟩ := returns_ok.mp hend
        obtain ⟨before, hclose⟩ := (arrives_endList _).mp ⟨after, hafter, hrest⟩
        refine .inl ⟨inside.append before, hvalue, ?_⟩
        rw [hopen, ← hinside, hblank, hclose]
        simp [listOf, separated, Blank.append]
      next => exact absurd h Cursor.not_returns_here
    | true =>
      obtain ⟨rfl, -⟩ := (nextElement_eq_ok_true_iff _).mp hnext
      obtain ⟨⟨value, afterValue⟩, hvalue, hmore⟩ := returns_bind.mp h
      obtain ⟨after, hafter, hend⟩ := returns_bind.mp hmore
      obtain ⟨rfl, hrest⟩ := returns_ok.mp hend
      obtain ⟨start, written, hwritten, hitem⟩ := hreads.returns.mp ⟨afterValue, hvalue, rfl⟩
      obtain ⟨before, hclose⟩ := (arrives_endList _).mp ⟨after, hafter, hrest⟩
      refine .inr ⟨inside, ⟨start, written, before⟩, hwritten, ?_⟩
      rw [hopen, ← hinside, hblank, hitem, hclose]
      simp [listOf, Item.bytes, separated_cons]
  · rintro (⟨inside, hvalue, hrest⟩ | ⟨inside, item, hwritten, hrest⟩)
    · have hstart : cursor.skipBlanks.step.rest = inside.bytes ++ ascii ']' :: rest := by
        rw [Cursor.rest_step_of_cons hrest]
        simp [separated]
      have hclose := Cursor.rest_skipBlanks_of_blank inside hstart (Cursor.startsFull_cons.mpr (by decide))
      refine ⟨_, (nextElement_eq_ok_false_iff _).mpr ⟨rfl, Cursor.peek?_of_rest hclose (by decide)⟩, ?_⟩
      obtain ⟨after, hafter, hend⟩ := (arrives_endList _).mpr ⟨.empty, hclose⟩
      dsimp only
      rw [hvalue]
      exact returns_bind.mpr ⟨after, hafter, returns_ok.mpr ⟨rfl, hend⟩⟩
    · have hvalue := hreads.isValue hwritten
      have hstart : cursor.skipBlanks.step.rest =
          inside.bytes ++ (item.before.bytes ++ (item.value ++ (item.after.bytes ++ ascii ']' :: rest))) := by
        rw [Cursor.rest_step_of_cons hrest]
        simp [separated_cons, Item.bytes]
      have hitem := rest_skipBlanks_of_blanks inside item.before hstart (startsFull_of_isValue hvalue _)
      obtain ⟨afterValue, hafterValue, hafter⟩ := hreads.returns.mpr ⟨.empty, _, hwritten, hitem⟩
      obtain ⟨after, hend, hrest⟩ := (arrives_endList _).mpr ⟨_, hafter⟩
      obtain ⟨first, more, hfirst, -, hother⟩ := exists_first_of_isValue hvalue
      rw [hfirst, List.cons_append] at hitem
      cases hpeek : cursor.skipBlanks.step.skipBlanks.peek? with
      | none => exact absurd (Cursor.peek?_eq_none_iff.mp hpeek) (by rw [hitem]; exact List.cons_ne_nil _ _)
      | some c =>
        refine ⟨_, (nextElement_eq_ok_true_iff _).mpr ⟨rfl, c, hpeek, ?_⟩, returns_bind.mpr ⟨_, hafterValue,
          returns_bind.mpr ⟨after, hend, returns_ok.mpr ⟨rfl, hrest⟩⟩⟩⟩
        rintro rfl
        exact Cursor.peek?_ne_of_rest hitem hother hpeek

theorem reads_record {r : Decoder.Record α} (hreads : Reads r.decoder writes) :
    Reads (Decoder.record r) (IsRecord r writes) where
  isValue := isValue_of_isRecord hreads.isValue
  returns {cursor a rest} := by
    obtain ⟨before, hbefore⟩ := Cursor.exists_blank cursor
    constructor
    · intro h
      by_cases hbrace : cursor.skipBlanks.peek? = some '\x7b'
      · obtain ⟨inside, members, found, hmembers, hfound, hvalue, hrest⟩ :=
          (returns_object hreads (Cursor.rest_of_peek? hbrace)).mp h
        exact ⟨before, _, .object hmembers hfound hvalue, by rw [hbefore, hrest]⟩
      by_cases hbracket : cursor.skipBlanks.peek? = some '['
      · rcases (returns_list hreads (Cursor.rest_of_peek? hbracket)).mp h with
          ⟨inside, hvalue, hrest⟩ | ⟨inside, item, hitem, hrest⟩
        · exact ⟨before, _, .empty hvalue, by rw [hbefore, hrest]⟩
        · exact ⟨before, _, .list hitem, by rw [hbefore, hrest]⟩
      exact absurd h (not_returns_record hbrace hbracket)
    · rintro ⟨before, written, hwritten, hrest⟩
      have hstart := Cursor.rest_skipBlanks_of_blank before hrest
        (startsFull_of_isValue (isValue_of_isRecord hreads.isValue hwritten) rest)
      cases hwritten with
      | object hmembers hfound hvalue =>
        exact (returns_object hreads hstart).mpr ⟨_, _, _, hmembers, hfound, hvalue, hstart⟩
      | list hitem => exact (returns_list hreads hstart).mpr (.inr ⟨_, _, hitem, hstart⟩)
      | empty hvalue => exact (returns_list hreads hstart).mpr (.inl ⟨_, hvalue, hstart⟩)

/-- A whole text is read if it is the value with blank space around it. -/
theorem run_eq_ok_iff (hreads : Reads decoder writes) :
    Decoder.run decoder bytes = .ok a ↔ ∃ item : Item, writes a item.value ∧ bytes = item.bytes := by
  rw [Decoder.run, bind_eq_ok_iff]
  constructor
  · rintro ⟨⟨value, place⟩, hplace, h⟩
    obtain ⟨before, written, hwritten, hrest⟩ := hreads.returns.mp ⟨place, hplace, rfl⟩
    obtain ⟨after, hafter⟩ := Cursor.exists_blank place
    dsimp only at h
    split at h
    next hempty =>
      obtain rfl := Except.ok.inj h
      rw [List.isEmpty_iff.mp hempty, List.append_nil] at hafter
      exact ⟨⟨before, written, after⟩, hwritten, hrest.trans (by rw [hafter]; rfl)⟩
    next => cases h
  · rintro ⟨⟨before, written, after⟩, hwritten, rfl⟩
    have hstart : ({ rest := before.bytes ++ (written ++ after.bytes) } : Cursor).rest =
        before.bytes ++ (written ++ after.bytes) := rfl
    obtain ⟨place, hplace, hafter⟩ := hreads.returns.mpr ⟨before, written, hwritten, hstart⟩
    have hempty : place.skipBlanks.rest = [] :=
      Cursor.rest_skipBlanks_of_blank after (by rw [hafter, List.append_nil]) nofun
    refine ⟨(a, place), hplace, ?_⟩
    dsimp only
    rw [hempty]
    rfl

end OverlayHost.Json
