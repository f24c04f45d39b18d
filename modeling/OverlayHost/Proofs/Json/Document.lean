import OverlayHost.Json.Document
import OverlayHost.Proofs.Text.Digits

/-!
# A document can be read off its text

No two documents are written as the same text (`render_injective`), whatever is in the texts that they hold. Where a
document ends shows without a look at what comes after it, but for a number, which goes on as long as there are digits: so
`IsRead` asks for an end of digits.
-/

set_option autoImplicit false

namespace OverlayHost.Json.Document

variable {α : Type} {cs ds rest rest' : List Char}

/-! ## Texts in quotes -/

/-- The character that what follows a backslash stands for, and the rest. -/
def readMarked? : List Char → Option (Char × List Char)
  | 'b' :: rest => some ('\x08', rest)
  | 'f' :: rest => some ('\x0c', rest)
  | 'n' :: rest => some ('\n', rest)
  | 'r' :: rest => some ('\r', rest)
  | 't' :: rest => some ('\t', rest)
  | 'u' :: '0' :: '0' :: high :: low :: rest =>
    some (Char.ofNat ((Text.digitIn? 16 high).getD 0 * 16 + (Text.digitIn? 16 low).getD 0), rest)
  | c :: rest => some (c, rest)
  | [] => none

/-- The character that begins an escaped text, and the rest. -/
def readEscaped? : List Char → Option (Char × List Char)
  | c :: rest => if c = '\\' then readMarked? rest else some (c, rest)
  | [] => none

theorem digitIn?_hexDigit : ∀ n < 16, Text.digitIn? 16 (hexDigit n) = some n := by decide

theorem readEscaped?_escape (c : Char) (rest : List Char) : readEscaped? (escape c ++ rest) = some (c, rest) := by
  unfold escape
  split
  all_goals try rfl
  split
  next hcontrol =>
    have hhigh := digitIn?_hexDigit (c.toNat / 16) (by omega)
    have hlow := digitIn?_hexDigit (c.toNat % 16) (by omega)
    have hvalue : c.toNat / 16 * 16 + c.toNat % 16 = c.toNat := by omega
    simp [readEscaped?, readMarked?, hhigh, hlow, hvalue]
  next hbackslash _ _ _ _ _ hplain => exact if_neg hbackslash

theorem head?_escape (c : Char) : ∃ first more, escape c = first :: more ∧ first ≠ '"' := by
  unfold escape
  split
  all_goals try exact ⟨_, _, rfl, by decide⟩
  split
  next => exact ⟨_, _, rfl, by decide⟩
  next hquote _ _ _ _ _ _ _ => exact ⟨c, [], rfl, hquote⟩

/-- A text in quotes ends at the first quote that is not escaped. -/
theorem escaped_append_inj (h : cs.flatMap escape ++ '"' :: rest = ds.flatMap escape ++ '"' :: rest') :
    cs = ds ∧ rest = rest' := by
  induction cs generalizing ds with
  | nil =>
    cases ds with
    | nil => exact ⟨rfl, (List.cons.inj h).2⟩
    | cons d ds =>
      obtain ⟨first, more, hfirst, hne⟩ := head?_escape d
      rw [List.flatMap_cons, hfirst] at h
      exact absurd (List.cons.inj h).1.symm hne
  | cons c cs ih =>
    cases ds with
    | nil =>
      obtain ⟨first, more, hfirst, hne⟩ := head?_escape c
      rw [List.flatMap_cons, hfirst] at h
      exact absurd (List.cons.inj h).1 hne
    | cons d ds =>
      rw [List.flatMap_cons, List.flatMap_cons, List.append_assoc, List.append_assoc] at h
      have hread := congrArg readEscaped? h
      rw [readEscaped?_escape, readEscaped?_escape] at hread
      obtain ⟨rfl, hrest⟩ := Prod.mk.inj (Option.some.inj hread)
      obtain ⟨rfl, hend⟩ := ih hrest
      exact ⟨rfl, hend⟩

theorem quote_append_inj {s t : String} (h : (quote s).toList ++ rest = (quote t).toList ++ rest') :
    s = t ∧ rest = rest' := by
  simp only [quote, String.toList_ofList, List.cons_append, List.append_assoc, List.nil_append, List.cons.injEq,
    true_and] at h
  obtain ⟨htext, hrest⟩ := escaped_append_inj h
  exact ⟨String.toList_inj.mp htext, hrest⟩

/-! ## Lists -/

/-- What cannot go on with a number. -/
def EndsDigits (rest : List Char) : Prop := ∀ c ∈ rest.head?, c.isDigit = false

/-- Items, each after a comma, and the mark that ends them. -/
def closed (write : α → List Char) (mark : Char) (items : List α) : List Char :=
  items.flatMap (fun item => ',' :: write item) ++ [mark]

theorem closed_cons (write : α → List Char) (mark : Char) (item : α) (items : List α) :
    closed write mark (item :: items) = ',' :: (write item ++ closed write mark items) := by
  simp [closed]

theorem endsDigits_closed {write : α → List Char} {mark : Char} (hmark : mark.isDigit = false) (items : List α)
    (rest : List Char) : EndsDigits (closed write mark items ++ rest) := by
  cases items with
  | nil => simpa [EndsDigits, closed] using hmark
  | cons item items => simp [EndsDigits, closed]

/-- Whether an item can be told from any other, as long as no digit comes after it. -/
def IsRead (write : α → List Char) (item : α) : Prop :=
  ∀ other rest rest', EndsDigits rest → EndsDigits rest' → write item ++ rest = write other ++ rest' →
    item = other ∧ rest = rest'

theorem closed_append_inj {write : α → List Char} {mark : Char} {items others : List α} (hmark : mark.isDigit = false)
    (hcomma : mark ≠ ',') (hread : ∀ item ∈ items, IsRead write item)
    (h : closed write mark items ++ rest = closed write mark others ++ rest') : items = others ∧ rest = rest' := by
  induction items generalizing others with
  | nil =>
    cases others with
    | nil => exact ⟨rfl, List.append_cancel_left h⟩
    | cons other others => exact absurd (List.cons.inj h).1 hcomma
  | cons item items ih =>
    cases others with
    | nil => exact absurd (List.cons.inj h).1.symm hcomma
    | cons other others =>
      rw [closed_cons, closed_cons, List.cons_append, List.cons_append, List.append_assoc, List.append_assoc] at h
      obtain ⟨rfl, hitems⟩ := hread item List.mem_cons_self other _ _ (endsDigits_closed hmark items rest)
        (endsDigits_closed hmark others rest') (List.cons.inj h).2
      obtain ⟨rfl, hrest⟩ := ih (fun item hitem => hread item (List.mem_cons_of_mem _ hitem)) hitems
      exact ⟨rfl, hrest⟩

theorem intercalate_append (write : α → List Char) (mark : Char) (item : α) (items : List α) :
    [','].intercalate ((item :: items).map write) ++ [mark] = write item ++ closed write mark items := by
  induction items generalizing item with
  | nil => simp [closed]
  | cons next items ih =>
    rw [List.map_cons, List.map_cons, List.intercalate_cons_cons, ← List.map_cons, List.append_assoc, ih, closed_cons]
    simp

/-- Items between commas can be told from others, if none begins with the mark that ends them. -/
theorem intercalate_append_inj {write : α → List Char} {mark : Char} {items others : List α}
    (hmark : mark.isDigit = false) (hcomma : mark ≠ ',') (hread : ∀ item ∈ items, IsRead write item)
    (hfirst : ∀ item, (write item).head? ≠ none ∧ (write item).head? ≠ some mark)
    (h : [','].intercalate (items.map write) ++ [mark] ++ rest =
      [','].intercalate (others.map write) ++ [mark] ++ rest') : items = others ∧ rest = rest' := by
  have hstart (item : α) (more : List Char) : (write item ++ more).head? ≠ some mark := by
    rw [List.head?_append, Option.or_of_isSome (Option.isSome_iff_ne_none.mpr (hfirst item).1)]
    exact (hfirst item).2
  cases items with
  | nil =>
    cases others with
    | nil => exact ⟨rfl, List.append_cancel_left h⟩
    | cons other others =>
      rw [intercalate_append, List.append_assoc (write other)] at h
      exact absurd (congrArg List.head? h.symm) (hstart other _)
  | cons item items =>
    cases others with
    | nil =>
      rw [intercalate_append, List.append_assoc (write item)] at h
      exact absurd (congrArg List.head? h) (hstart item _)
    | cons other others =>
      rw [intercalate_append, intercalate_append, List.append_assoc, List.append_assoc] at h
      obtain ⟨rfl, hitems⟩ := hread item List.mem_cons_self other _ _ (endsDigits_closed hmark items rest)
        (endsDigits_closed hmark others rest') h
      obtain ⟨rfl, hrest⟩ :=
        closed_append_inj hmark hcomma (fun item hitem => hread item (List.mem_cons_of_mem _ hitem)) hitems
      exact ⟨rfl, hrest⟩

/-! ## Documents -/

/-- One member of an object as text. -/
def writeMember (member : String × Document) : List Char := (quote member.1).toList ++ ':' :: member.2.render.toList

theorem render_boolean (value : Bool) : render (boolean value) = if value then "true" else "false" := rfl

theorem render_number (n : Nat) : render (number n) = toString n := rfl

theorem render_text (value : String) : render (text value) = quote value := rfl

theorem render_list (items : List Document) :
    render (list items) = "[" ++ ",".intercalate (renderItems items) ++ "]" := rfl

theorem render_object (members : List (String × Document)) :
    render (object members) = "\x7b" ++ ",".intercalate (renderMembers members) ++ "\x7d" := rfl

theorem renderItems_cons (item : Document) (rest : List Document) :
    renderItems (item :: rest) = render item :: renderItems rest := rfl

theorem renderMembers_cons (member : String × Document) (rest : List (String × Document)) :
    renderMembers (member :: rest) = (quote member.1 ++ ":" ++ render member.2) :: renderMembers rest := rfl

theorem renderItems_eq (items : List Document) : renderItems items = items.map render := by
  induction items with
  | nil => rfl
  | cons item items ih => rw [renderItems_cons, ih, List.map_cons]

theorem toList_renderMembers (members : List (String × Document)) :
    (renderMembers members).map String.toList = members.map writeMember := by
  induction members with
  | nil => rfl
  | cons member members ih => simp [renderMembers_cons, ih, writeMember]

theorem toList_render_list (items : List Document) :
    (render (list items)).toList = '[' :: ([','].intercalate (items.map fun item => item.render.toList) ++ [']']) := by
  simp [render_list, renderItems_eq, String.toList_intercalate, Function.comp_def]

theorem toList_render_object (members : List (String × Document)) :
    (render (object members)).toList = '\x7b' :: ([','].intercalate (members.map writeMember) ++ ['\x7d']) := by
  simp [render_object, String.toList_intercalate, toList_renderMembers]

theorem toList_render_number (n : Nat) : (render (number n)).toList = Nat.toDigits 10 n := by
  rw [render_number, Nat.toString_eq_repr, Nat.toList_repr]

/-- The first character of any document like one that begins with a character. -/
def kindOf (first : Char) : Char := if first.isDigit then '0' else if first = 'f' then 't' else first

/-- The first character of the documents of a kind. -/
def mark : Document → Char
  | boolean _ => 't'
  | number _ => '0'
  | text _ => '"'
  | list _ => '['
  | object _ => '\x7b'

theorem head_render (document : Document) :
    ∃ first, document.render.toList.head? = some first ∧ kindOf first = document.mark := by
  cases document with
  | boolean value => cases value <;> exact ⟨_, rfl, rfl⟩
  | number n =>
    rw [toList_render_number]
    cases hdigits : Nat.toDigits 10 n with
    | nil => exact absurd hdigits Nat.toDigits_ne_nil
    | cons digit more =>
      have hdigit : digit.isDigit = true :=
        Nat.isDigit_of_mem_toDigits (by decide) (by decide) (hdigits ▸ List.mem_cons_self)
      exact ⟨digit, rfl, if_pos hdigit⟩
  | text value => exact ⟨'"', by simp [render_text, quote], rfl⟩
  | list items => exact ⟨'[', by rw [toList_render_list]; rfl, rfl⟩
  | object members => exact ⟨'\x7b', by rw [toList_render_object]; rfl, rfl⟩

theorem mark_eq {document other : Document}
    (h : document.render.toList ++ rest = other.render.toList ++ rest') : document.mark = other.mark := by
  obtain ⟨first, hfirst, hmark⟩ := head_render document
  obtain ⟨first', hfirst', hmark'⟩ := head_render other
  have hhead := congrArg List.head? h
  rw [List.head?_append, List.head?_append, hfirst, hfirst'] at hhead
  obtain rfl := Option.some.inj hhead
  rw [← hmark, ← hmark']

theorem head?_render_ne (document : Document) :
    document.render.toList.head? ≠ none ∧ document.render.toList.head? ≠ some ']' := by
  obtain ⟨first, hfirst, hmark⟩ := head_render document
  rw [hfirst]
  refine ⟨Option.some_ne_none first, fun hbracket => ?_⟩
  rw [Option.some.inj hbracket] at hmark
  cases document <;> simp [kindOf, mark] at hmark

theorem head?_writeMember_ne (member : String × Document) :
    (writeMember member).head? ≠ none ∧ (writeMember member).head? ≠ some '\x7d' := by
  simp [writeMember, quote]

theorem number_append_inj {n m : Nat} (hrest : EndsDigits rest) (hrest' : EndsDigits rest')
    (h : Nat.toDigits 10 n ++ rest = Nat.toDigits 10 m ++ rest') : n = m ∧ rest = rest' := by
  have htake (n : Nat) {rest : List Char} (hrest : EndsDigits rest) :
      (Nat.toDigits 10 n ++ rest).takeWhile Char.isDigit = Nat.toDigits 10 n := by
    rw [List.takeWhile_append_of_pos fun digit => Nat.isDigit_of_mem_toDigits (by decide) (by decide)]
    cases rest with
    | nil => simp
    | cons c rest => simp [hrest c rfl]
  have hdigits := congrArg (List.takeWhile Char.isDigit) h
  rw [htake n hrest, htake m hrest'] at hdigits
  have hvalue := congrArg Text.decimalValue hdigits
  rw [Text.decimalValue_toDigits, Text.decimalValue_toDigits] at hvalue
  subst hvalue
  exact ⟨rfl, List.append_cancel_left h⟩

/-- Whether a document can be told from any other, as long as no digit comes after it. -/
abbrev IsReadable (document : Document) : Prop := IsRead (fun document => document.render.toList) document

theorem isRead_writeMember {member : String × Document} (hvalue : IsReadable member.2) : IsRead writeMember member := by
  intro other rest rest' hrest hrest' h
  simp only [writeMember, List.append_assoc, List.cons_append] at h
  obtain ⟨hname, hmore⟩ := quote_append_inj h
  obtain ⟨hsame, hend⟩ := hvalue other.2 rest rest' hrest hrest' (List.cons.inj hmore).2
  exact ⟨Prod.ext hname hsame, hend⟩

theorem isReadable_boolean (value : Bool) : IsReadable (boolean value) := by
  intro other rest rest' hrest hrest' h
  have hmark := mark_eq h
  cases other with
  | boolean value' =>
    obtain rfl : value = value' := by cases value <;> cases value' <;> simp [render_boolean] at h ⊢
    exact ⟨rfl, List.append_cancel_left h⟩
  | _ => simp [mark] at hmark

theorem isReadable_number (n : Nat) : IsReadable (number n) := by
  intro other rest rest' hrest hrest' h
  have hmark := mark_eq h
  cases other with
  | number m =>
    simp only [toList_render_number] at h
    obtain ⟨rfl, hend⟩ := number_append_inj hrest hrest' h
    exact ⟨rfl, hend⟩
  | _ => simp [mark] at hmark

theorem isReadable_text (value : String) : IsReadable (text value) := by
  intro other rest rest' hrest hrest' h
  have hmark := mark_eq h
  cases other with
  | text value' =>
    obtain ⟨rfl, hend⟩ := quote_append_inj h
    exact ⟨rfl, hend⟩
  | _ => simp [mark] at hmark

theorem isReadable_list {items : List Document} (hitems : ∀ item ∈ items, IsReadable item) :
    IsReadable (list items) := by
  intro other rest rest' hrest hrest' h
  have hmark := mark_eq h
  cases other with
  | list items' =>
    simp only [toList_render_list, List.cons_append, List.cons.injEq, true_and] at h
    obtain ⟨rfl, hend⟩ := intercalate_append_inj (by decide) (by decide) hitems head?_render_ne h
    exact ⟨rfl, hend⟩
  | _ => simp [mark] at hmark

theorem isReadable_object {members : List (String × Document)} (hvalues : ∀ member ∈ members, IsReadable member.2) :
    IsReadable (object members) := by
  intro other rest rest' hrest hrest' h
  have hmark := mark_eq h
  cases other with
  | object members' =>
    simp only [toList_render_object, List.cons_append, List.cons.injEq, true_and] at h
    obtain ⟨rfl, hend⟩ := intercalate_append_inj (by decide) (by decide)
      (fun member hmember => isRead_writeMember (hvalues member hmember)) head?_writeMember_ne h
    exact ⟨rfl, hend⟩
  | _ => simp [mark] at hmark

theorem isReadable : (document : Document) → IsReadable document
  | boolean value => isReadable_boolean value
  | number n => isReadable_number n
  | text value => isReadable_text value
  | list items => isReadable_list fun item _ => isReadable item
  | object members => isReadable_object fun member _hmember => isReadable member.2
termination_by document => sizeOf document
decreasing_by
  · decreasing_tactic
  · -- the value is a part of its member
    have hless := List.sizeOf_lt_of_mem _hmember
    cases member
    simp at hless ⊢
    omega

theorem render_injective : Function.Injective render := by
  intro document other h
  exact (isReadable document other [] [] nofun nofun (congrArg (fun text => text.toList ++ []) h)).1

end OverlayHost.Json.Document
