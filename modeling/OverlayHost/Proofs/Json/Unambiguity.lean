import OverlayHost.Proofs.Json.Record

/-!
# An object is read in one way

Two ways of taking the same bytes apart into the members of an object agree on the names and the values. Each part ends
where the reader that skips it stops, and a reader stops at one place only.
-/

set_option autoImplicit false

namespace OverlayHost.Json

open Grammar

variable {bytes bytes' rest rest' : List UInt8} {members members' : List Member}

theorem blank_append_inj {before before' : Blank} (hfull : Cursor.StartsFull bytes) (hfull' : Cursor.StartsFull bytes')
    (h : before.bytes ++ bytes = before'.bytes ++ bytes') : bytes = bytes' := by
  have hplace : ({ rest := before.bytes ++ bytes } : Cursor).skipBlanks.rest = bytes :=
    Cursor.rest_skipBlanks_of_blank before rfl hfull
  exact hplace.symm.trans (Cursor.rest_skipBlanks_of_blank before' h hfull')

theorem isText_append_inj (htext : IsText bytes) (htext' : IsText bytes')
    (h : bytes ++ ascii '"' :: rest = bytes' ++ ascii '"' :: rest') : bytes = bytes' ∧ rest = rest' := by
  have harrives : Arrives (Skip.text { rest := bytes ++ ascii '"' :: rest }) rest :=
    (arrives_text _).mpr ⟨bytes, htext, rfl⟩
  obtain rfl := harrives.unique ((arrives_text _).mpr ⟨bytes', htext', h⟩)
  exact ⟨List.append_cancel_right h, rfl⟩

theorem isValue_append_inj (hvalue : IsValue bytes) (hvalue' : IsValue bytes') (hends : EndsNumber rest)
    (hends' : EndsNumber rest') (h : bytes ++ rest = bytes' ++ rest') : bytes = bytes' ∧ rest = rest' := by
  have hstart : ({ rest := bytes ++ rest } : Cursor).rest = Blank.empty.bytes ++ (bytes ++ rest) := rfl
  have hstart' : ({ rest := bytes ++ rest } : Cursor).rest = Blank.empty.bytes ++ (bytes' ++ rest') := h
  obtain rfl := (arrives_any hvalue hstart hends).unique (arrives_any hvalue' hstart' hends')
  exact ⟨List.append_cancel_right h, rfl⟩

/-- What is between the quotes of the name of a member, and its value. -/
def Grammar.Member.content (member : Member) : List UInt8 × List UInt8 := (member.name, member.value)

theorem endsNumber_following (members : List Member) (after : Blank) :
    EndsNumber (after.bytes ++ (following false (members.map Member.bytes) ++ ascii '\x7d' :: rest)) :=
  endsNumber_blank_append after (endsNumber_and_startsFull _ (endsNumber_cons.mpr (by decide)) (by decide)).1

theorem content_of_following {fresh : Bool} {before before' : Blank}
    (hmembers : ∀ member ∈ members, IsText member.name ∧ IsValue member.value)
    (hmembers' : ∀ member ∈ members', IsText member.name ∧ IsValue member.value)
    (h : before.bytes ++ (following fresh (members.map Member.bytes) ++ ascii '\x7d' :: rest) =
      before'.bytes ++ (following fresh (members'.map Member.bytes) ++ ascii '\x7d' :: rest')) :
    members.map Member.content = members'.map Member.content ∧ rest = rest' := by
  induction members generalizing fresh before before' members' with
  | nil =>
    have hclose : Returns (Decoder.nextMember fresh { rest := before.bytes ++ ascii '\x7d' :: rest }) false
        (ascii '\x7d' :: rest) := (returns_nextMember_false _).mpr ⟨before, rest, rfl, rfl⟩
    rw [List.map_nil, following_nil, List.nil_append] at h
    cases members' with
    | nil =>
      rw [List.map_nil, following_nil, List.nil_append] at h
      obtain ⟨-, hsame⟩ := hclose.unique ((returns_nextMember_false _).mpr ⟨before', rest', rfl, h⟩)
      exact ⟨rfl, (List.cons.inj hsame).2⟩
    | cons member members' => exact absurd (hclose.unique (returns_nextMember_cons h)).1 nofun
  | cons member members ih =>
    have hnext : Returns (Decoder.nextMember fresh { rest := before.bytes ++ (following fresh
        ((member :: members).map Member.bytes) ++ ascii '\x7d' :: rest) }) true _ := returns_nextMember_cons rfl
    cases members' with
    | nil =>
      rw [List.map_nil, following_nil, List.nil_append] at h
      exact absurd (hnext.unique ((returns_nextMember_false _).mpr ⟨before', rest', rfl, h⟩)).1 nofun
    | cons member' members' =>
      -- the quote, the colon and the end of the value are each where a reader of both ways stops
      obtain ⟨⟨hname, hvalue⟩, hmembers⟩ := List.forall_mem_cons.mp hmembers
      obtain ⟨⟨hname', hvalue'⟩, hmembers'⟩ := List.forall_mem_cons.mp hmembers'
      obtain ⟨hsameName, hcolon⟩ := isText_append_inj hname hname' (hnext.unique (returns_nextMember_cons h)).2
      have hitem := (List.cons.inj (blank_append_inj (Cursor.startsFull_cons.mpr (by decide))
        (Cursor.startsFull_cons.mpr (by decide)) hcolon)).2
      obtain ⟨hsameValue, hmore⟩ := isValue_append_inj hvalue hvalue' (endsNumber_following _ _) (endsNumber_following _ _)
        (blank_append_inj (startsFull_of_isValue hvalue _) (startsFull_of_isValue hvalue' _) hitem)
      obtain ⟨hcontents, hrest⟩ := ih hmembers hmembers' hmore
      refine ⟨?_, hrest⟩
      rw [List.map_cons, List.map_cons, hcontents, Member.content, hsameName, hsameValue]
      rfl

/-- An object has its members in one way, whatever follows. -/
theorem content_unique {inside inside' : Blank}
    (hmembers : ∀ member ∈ members, IsText member.name ∧ IsValue member.value)
    (hmembers' : ∀ member ∈ members', IsText member.name ∧ IsValue member.value)
    (h : objectOf inside members ++ rest = objectOf inside' members' ++ rest') :
    members.map Member.content = members'.map Member.content ∧ rest = rest' := by
  have hinside : inside.bytes ++ (following true (members.map Member.bytes) ++ ascii '\x7d' :: rest) =
      inside'.bytes ++ (following true (members'.map Member.bytes) ++ ascii '\x7d' :: rest') := by
    simpa [objectOf, following] using (List.cons.inj h).2
  exact content_of_following hmembers hmembers' hinside

end OverlayHost.Json
