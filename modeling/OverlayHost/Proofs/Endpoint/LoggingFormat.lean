import OverlayHost.Endpoint.Logging
import OverlayHost.Proofs.Json.Document
import OverlayHost.Proofs.Json.Unambiguity

/-!
# The format of what a PUT asks for

The documented format of a body is an object with one member `enabled` that is a truth value. What is taken is a record of
this field (`isTaken_iff`), which differs from the documented format in three kinds of bodies: a list of the field alone is
taken too; the texts that are skipped need not be UTF-8; and the name of each member has to be one that can be read, also
of those that are ignored. On all other bodies the endpoint does as documented (`isOrdinary_iff`).

A body is looked at as the bytes that it is, and as an object in any way of taking them apart. There is one way only, so it
makes no difference which is chosen (`isReadable_of_isObject`).
-/

set_option autoImplicit false

namespace OverlayHost.Endpoint.Logging

open Json Json.Grammar

variable {body : List UInt8} {members members' : List Member} {setting : Option Bool} {enabled : Bool}

/-! ## Bodies -/

/-- A body is an object with these members, whichever bytes are in its texts. -/
structure IsObject (body : List UInt8) (members : List Member) : Prop where
  isMember : ∀ member ∈ members, IsText member.name ∧ IsValue member.value
  written : ∃ before inside after : Blank, body = before.bytes ++ (objectOf inside members ++ after.bytes)

/-- What the members of an object ask for; none if they leave it open. -/
def AsksFor (members : List Member) : Option Bool → Prop
  | none => Lacks members "enabled" ∨ HasOne members "enabled" (· = word "null")
  | some value => HasOne members "enabled" (IsBoolean value)

/-- The bytes encode characters. -/
def IsUtf8 (bytes : List UInt8) : Prop := ∃ cs, bytes = Text.Utf8.encode cs

/-- A body is a JSON document that asks for this in the documented format. -/
structure IsDocumented (setting : Option Bool) (body : List UInt8) : Prop where
  isUtf8 : IsUtf8 body
  object : ∃ members, IsObject body members ∧ AsksFor members setting

/-- A body is a list of the setting alone. -/
def IsShort (setting : Option Bool) (body : List UInt8) : Prop :=
  ∃ (before inside after : Blank) (item : Item), IsNullable IsBoolean setting item.value ∧
    body = before.bytes ++ (listOf inside [item] ++ after.bytes)

/-- A body is taken: it is an object with names that can be read, whichever bytes its other texts have, or a list. -/
def IsTaken (setting : Option Bool) (body : List UInt8) : Prop :=
  (∃ members, IsObject body members ∧ (∀ member ∈ members, member.IsReadable) ∧ AsksFor members setting) ∨
    IsShort setting body

theorem asksFor_iff : AsksFor members setting ↔ ∃ found : Option (Option Bool),
    IsFound "enabled" (IsNullable IsBoolean) members found ∧ found.or (some none) = some setting := by
  constructor
  · intro h
    cases setting with
    | none =>
      rcases h with hlacks | hone
      · exact ⟨none, hlacks, rfl⟩
      · exact ⟨some none, hone, rfl⟩
    | some value => exact ⟨some (some value), h, rfl⟩
  · rintro ⟨found, hfound, hor⟩
    cases found with
    | none =>
      obtain rfl : none = setting := Option.some.inj hor
      exact .inl hfound
    | some found =>
      obtain rfl : found = setting := Option.some.inj hor
      cases found with
      | none => exact .inr hfound
      | some value => exact hfound

theorem isTaken_iff : Decoder.run decoder body = .ok setting ↔ IsTaken setting body := by
  have hboolean : Reads (Decoder.nullable Decoder.boolean) (IsNullable IsBoolean) :=
    reads_nullable reads_boolean fun {value written} h => by
      obtain rfl : written = word (toString value) := h
      cases value <;> decide
  rw [decoder, run_eq_ok_iff (reads_record hboolean)]
  constructor
  · rintro ⟨⟨before, written, after⟩, hwritten, rfl⟩
    cases hwritten with
    | @object inside members found _ hmembers hfound hor =>
      refine .inl ⟨members, ⟨fun member hmember => ?_, before, inside, after, rfl⟩,
        fun member hmember => (hmembers member hmember).1, asksFor_iff.mpr ⟨found, hfound, hor⟩⟩
      obtain ⟨⟨name, hname⟩, hvalue⟩ := hmembers member hmember
      exact ⟨isText_of_spells hname, hvalue⟩
    | @list inside item _ hitem => exact .inr ⟨before, inside, after, item, hitem, rfl⟩
    | empty h => cases h
  · rintro (⟨members, ⟨hmembers, before, inside, after, rfl⟩, hreadable, hasks⟩ | ⟨before, inside, after, item, hitem, rfl⟩)
    · obtain ⟨found, hfound, hor⟩ := asksFor_iff.mp hasks
      exact ⟨⟨before, objectOf inside members, after⟩,
        .object (fun member hmember => ⟨hreadable member hmember, (hmembers member hmember).2⟩) hfound hor, rfl⟩
    · exact ⟨⟨before, listOf inside [item], after⟩, .list hitem, rfl⟩

/-- A text that is skipped need not be UTF-8. -/
example : (Decoder.run decoder (word "\x7b\"enabled\":true,\"x\":\"" ++ 0xFF :: word "\"\x7d")).toOption = some (some true) := by
  decide

/-- A name that is half of a pair of surrogates cannot be read, though its member would be ignored. -/
example : (Decoder.run decoder (word "\x7b\"enabled\":true,\"\\ud800\":0\x7d")).toOption = none := by decide

theorem not_isObject_of_isShort (h : IsShort setting body) : ¬IsObject body members := by
  rintro ⟨-, before', inside', after', hobject⟩
  obtain ⟨before, inside, after, item, -, rfl⟩ := h
  have hsame := blank_append_inj (Cursor.startsFull_cons.mpr (by decide)) (Cursor.startsFull_cons.mpr (by decide)) hobject
  exact absurd (List.cons.inj hsame).1 (by decide)

/-- If the names can be read, they can be read in every way of taking the body apart. -/
theorem isReadable_of_isObject (h : IsObject body members) (h' : IsObject body members')
    (hreadable : ∀ member ∈ members, member.IsReadable) : ∀ member ∈ members', member.IsReadable := by
  obtain ⟨hmembers, before, inside, after, rfl⟩ := h
  obtain ⟨hmembers', before', inside', after', hsame⟩ := h'
  have hobject := blank_append_inj (Cursor.startsFull_cons.mpr (by decide)) (Cursor.startsFull_cons.mpr (by decide)) hsame
  obtain ⟨hcontent, -⟩ := content_unique hmembers hmembers' hobject
  intro member' hmember'
  have hmem := List.mem_map_of_mem (f := Member.content) hmember'
  rw [← hcontent] at hmem
  obtain ⟨member, hmember, hsame⟩ := List.mem_map.mp hmem
  obtain ⟨name, hname⟩ := hreadable member hmember
  refine ⟨name, ?_⟩
  rwa [Member.IsNamed, ← (Prod.mk.inj hsame).1]

/-- A body that is read as documented: it is no list of the setting, and if it is an object that has one setting, then it is
UTF-8 just if the names of its members can be read. -/
structure IsOrdinary (body : List UInt8) : Prop where
  notShort (setting : Option Bool) : ¬IsShort setting body
  isUtf8_iff {setting : Option Bool} {members : List Member} (hobject : IsObject body members)
    (hasks : AsksFor members setting) : IsUtf8 body ↔ ∀ member ∈ members, member.IsReadable

theorem isOrdinary_iff : IsOrdinary body ↔ ∀ setting, IsTaken setting body ↔ IsDocumented setting body := by
  constructor
  · intro hordinary setting
    constructor
    · rintro (⟨members, hobject, hreadable, hasks⟩ | hshort)
      · exact ⟨(hordinary.isUtf8_iff hobject hasks).mpr hreadable, members, hobject, hasks⟩
      · exact absurd hshort (hordinary.notShort setting)
    · rintro ⟨hutf8, members, hobject, hasks⟩
      exact .inl ⟨members, hobject, (hordinary.isUtf8_iff hobject hasks).mp hutf8, hasks⟩
  · intro hsame
    constructor
    · intro setting hshort
      obtain ⟨-, members, hobject, -⟩ := (hsame setting).mp (.inr hshort)
      exact not_isObject_of_isShort hshort hobject
    · intro setting members hobject hasks
      constructor
      · intro hutf8
        rcases (hsame setting).mpr ⟨hutf8, members, hobject, hasks⟩ with ⟨members', hobject', hreadable, -⟩ | hshort
        · exact isReadable_of_isObject hobject' hobject hreadable
        · exact absurd hobject (not_isObject_of_isShort hshort)
      · intro hreadable
        exact ((hsame setting).mp (.inl ⟨members, hobject, hreadable, hasks⟩)).isUtf8

/-! ## Responses -/

/-- The response to a body that leaves the flag open. -/
def missing : Http.Response := refused "missing required key 'enabled'"

/-- The response to a body that is not read. -/
def undecoded (error : Json.Error) : Http.Response := refused s!"decoding request body: {error.message}"

theorem status_shown (value : Bool) : (shown value).status = 200 := rfl

theorem status_missing : missing.status = 400 := rfl

theorem status_undecoded (error : Json.Error) : (undecoded error).status = 400 := rfl

theorem refused_injective : Function.Injective refused := by
  intro message message' hsame
  have hbody := Document.render_injective (congrArg Http.Response.body hsame)
  simpa using hbody

theorem missing_ne_undecoded (error : Json.Error) : missing ≠ undecoded error := by
  intro hsame
  have hfirst := congrArg (fun message : String => message.toList.head?) (refused_injective hsame)
  simp [String.toList_append, toString] at hfirst

/-- A request that sets the flag. -/
structure Put where
  request : Http.Request
  method : request.method = "PUT"
  path : request.uri.path = Logging.path

variable {put : Put}

theorem respond_put (put : Put) (enabled : Bool) : respond put.request enabled = set put.request.body enabled := by
  rw [respond, if_neg (not_not.mpr put.path), put.method, if_neg (by decide), if_pos rfl]

theorem respond_of_taken_some {value : Bool} (h : IsTaken (some value) put.request.body) :
    respond put.request enabled = (shown value, value) := by
  rw [respond_put, set, isTaken_iff.mpr h]

theorem respond_of_taken_none (h : IsTaken none put.request.body) : respond put.request enabled = (missing, enabled) := by
  rw [respond_put, set, isTaken_iff.mpr h]
  rfl

theorem respond_of_not_taken (h : ∀ setting, ¬IsTaken setting put.request.body) :
    ∃ error, respond put.request enabled = (undecoded error, enabled) := by
  rw [respond_put, set]
  cases hrun : Decoder.run decoder put.request.body with
  | error error => exact ⟨error, rfl⟩
  | ok setting => exact absurd (isTaken_iff.mp hrun) (h setting)

/-- A request is answered just as a format of its body has it: the flag is set to what the format says, the missing key is
reported where the format leaves the flag open, and what is not in the format is an error. -/
structure AcceptsExactly (format : Option Bool → List UInt8 → Prop) (put : Put) (enabled : Bool) : Prop where
  set (value : Bool) : (respond put.request enabled).1.status = 200 ∧ (respond put.request enabled).2 = value ↔
    format (some value) put.request.body
  missing : (respond put.request enabled).1 = missing ↔ format none put.request.body
  undecoded : (∀ setting, ¬format setting put.request.body) → ∃ error, (respond put.request enabled).1 = undecoded error
  unchanged : (respond put.request enabled).1.status = 400 → (respond put.request enabled).2 = enabled

theorem acceptsExactly_isTaken (put : Put) (enabled : Bool) : AcceptsExactly IsTaken put enabled := by
  by_cases htaken : ∃ setting, IsTaken setting put.request.body
  · obtain ⟨setting, htaken⟩ := htaken
    have hunique (other : Option Bool) : IsTaken other put.request.body ↔ setting = other := by
      rw [← isTaken_iff, isTaken_iff.mpr htaken, Except.ok.injEq]
    cases setting with
    | none =>
      have hrespond : respond put.request enabled = (missing, enabled) := respond_of_taken_none htaken
      refine ⟨fun value => ?_, ?_, fun h => absurd htaken (h none), fun _ => ?_⟩
      · rw [hrespond, hunique]
        exact iff_of_false (fun h => absurd (status_missing.symm.trans h.1) (by decide)) nofun
      · rw [hrespond]
        exact iff_of_true rfl htaken
      · rw [hrespond]
    | some value =>
      have hrespond : respond put.request enabled = (shown value, value) := respond_of_taken_some htaken
      refine ⟨fun other => ?_, ?_, fun h => absurd htaken (h _), fun h => ?_⟩
      · rw [hrespond, hunique, Option.some.injEq]
        exact and_iff_right rfl
      · rw [hrespond, hunique]
        exact iff_of_false (fun h => absurd ((status_shown value).symm.trans (congrArg Http.Response.status h)) (by decide)) nofun
      · rw [hrespond] at h
        exact absurd ((status_shown value).symm.trans h) (by decide)
  · have hnone := not_exists.mp htaken
    obtain ⟨error, hrespond⟩ : ∃ error, respond put.request enabled = (undecoded error, enabled) :=
      respond_of_not_taken hnone
    refine ⟨fun value => ?_, ?_, fun _ => ⟨error, by rw [hrespond]⟩, fun _ => by rw [hrespond]⟩
    · rw [hrespond]
      exact iff_of_false (fun h => absurd ((status_undecoded error).symm.trans h.1) (by decide)) (hnone _)
    · rw [hrespond]
      exact iff_of_false (fun h => missing_ne_undecoded error h.symm) (hnone _)

/-- Only one format is accepted on a body. -/
theorem acceptsExactly_iff {format : Option Bool → List UInt8 → Prop} : AcceptsExactly format put enabled ↔
    ∀ setting, IsTaken setting put.request.body ↔ format setting put.request.body := by
  have htaken := acceptsExactly_isTaken put enabled
  constructor
  · intro h setting
    cases setting with
    | none => exact htaken.missing.symm.trans h.missing
    | some value => exact (htaken.set value).symm.trans (h.set value)
  · intro hsame
    exact {
      set := fun value => (htaken.set value).trans (hsame _)
      missing := htaken.missing.trans (hsame _)
      undecoded := fun h => htaken.undecoded fun setting hsetting => h setting ((hsame setting).mp hsetting)
      unchanged := htaken.unchanged }

/-- Every body is answered as the format that is taken has it, and as documented just if the body is ordinary. -/
theorem acceptsExactly_taken_and_documented_iff (put : Put) (enabled : Bool) :
    AcceptsExactly IsTaken put enabled ∧ (AcceptsExactly IsDocumented put enabled ↔ IsOrdinary put.request.body) :=
  ⟨acceptsExactly_isTaken put enabled, acceptsExactly_iff.trans isOrdinary_iff.symm⟩

/-! ## A list of the flag -/

/-- A request whose body is a list of the flag. -/
def listPut : Put where
  request := { method := "PUT", uri := ⟨none, none, "/iptables-logging", none⟩, body := word "[true]" }
  method := rfl
  path := rfl

theorem isShort_listPut : IsShort (some true) listPut.request.body :=
  ⟨.empty, .empty, .empty, ⟨.empty, word "true", .empty⟩, rfl, rfl⟩

/-- The flag is set though its body is no object. -/
theorem list_sets_flag : respond listPut.request false = (shown true, true) ∧
    (∀ members, ¬IsObject listPut.request.body members) ∧ ¬AcceptsExactly IsDocumented listPut false := by
  refine ⟨respond_of_taken_some (.inr isShort_listPut), fun members => not_isObject_of_isShort isShort_listPut, fun h => ?_⟩
  exact (isOrdinary_iff.mpr (acceptsExactly_iff.mp h)).notShort _ isShort_listPut

end OverlayHost.Endpoint.Logging
