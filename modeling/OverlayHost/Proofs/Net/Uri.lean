import OverlayHost.Net.Uri
import Mathlib.Data.List.Basic
import Mathlib.Data.List.TakeWhile

/-!
# The parts of a URI

Which text a URI with a scheme is read from, and which text it is written as. The scheme and the authority end where their
characters do. What follows is cut at the first `#`, and what is left of it goes into the query from the first `?` on.
-/

set_option autoImplicit false

namespace OverlayHost.Net.Uri

/-! ## Cutting lists -/

section Cut

variable {α : Type} {p : α → Bool} {c : α}

theorem takeWhile_append_cons (h : p c = false) (cs rest : List α) :
    (cs ++ c :: rest).takeWhile p = cs.takeWhile p := by
  induction cs with
  | nil => simp [h]
  | cons first cs ih => cases hfirst : p first <;> simp [hfirst, ih]

theorem dropWhile_append_cons (h : p c = false) (cs rest : List α) :
    (cs ++ c :: rest).dropWhile p = cs.dropWhile p ++ c :: rest := by
  induction cs with
  | nil => simp [h]
  | cons first cs ih => cases hfirst : p first <;> simp [hfirst, ih]

end Cut

/-! ## The parts of a text -/

/-- A scheme as it is kept: the known ones in lower case. -/
def keptScheme (scheme : List Char) : List Char := if isKnownScheme scheme then scheme.map Char.toLower else scheme

/-- The authority at the start of a text. -/
def authorityOf (cs : List Char) : List Char := cs.takeWhile fun c => !endsAuthority c

def afterAuthority (cs : List Char) : List Char := cs.dropWhile fun c => !endsAuthority c

/-- The text without its fragment. -/
def beforeHash (cs : List Char) : List Char := cs.takeWhile (· ≠ '#')

/-- The path that a text after the authority writes. -/
def pathOf (cs : List Char) : List Char := (beforeHash cs).takeWhile (· ≠ '?')

/-- The query that a text after the authority writes. -/
def queryOf (cs : List Char) : Option (List Char) := ((beforeHash cs).dropWhile (· ≠ '?')).tail?

/-- The URI of a scheme and of the text after the two slashes. -/
def assemble (scheme after : List Char) : Uri where
  scheme := some (String.ofList (keptScheme scheme))
  authority := some (String.ofList (authorityOf after))
  path := String.ofList (pathOf (afterAuthority after))
  query := (queryOf (afterAuthority after)).map String.ofList

variable {cs rest : List Char} {s : String} {uri : Uri}

theorem authorityOf_append (cs : List Char) : authorityOf cs ++ afterAuthority cs = cs :=
  List.takeWhile_append_dropWhile

theorem mem_of_mem_afterAuthority {c : Char} (h : c ∈ afterAuthority cs) : c ∈ cs := (List.dropWhile_sublist _).mem h

theorem beforeHash_append (h : '#' ∉ cs) (rest : List Char) : beforeHash (cs ++ rest) = cs ++ beforeHash rest := by
  apply List.takeWhile_append_of_pos
  intro c hc
  simp [ne_of_mem_of_not_mem hc h]

theorem pathOf_append (hquery : '?' ∉ cs) (hfragment : '#' ∉ cs) (rest : List Char) :
    pathOf (cs ++ rest) = cs ++ pathOf rest := by
  rw [pathOf, beforeHash_append hfragment]
  apply List.takeWhile_append_of_pos
  intro c hc
  simp [ne_of_mem_of_not_mem hc hquery]

theorem queryOf_append (hquery : '?' ∉ cs) (hfragment : '#' ∉ cs) (rest : List Char) :
    queryOf (cs ++ rest) = queryOf rest := by
  rw [queryOf, beforeHash_append hfragment, List.dropWhile_append_of_pos, queryOf]
  intro c hc
  simp [ne_of_mem_of_not_mem hc hquery]

theorem beforeHash_eq_self_iff : beforeHash cs = cs ↔ '#' ∉ cs := by
  rw [beforeHash, List.takeWhile_eq_self_iff]
  constructor
  · intro h hmem
    simpa using h '#' hmem
  · intro h c hc
    simp [ne_of_mem_of_not_mem hc h]

theorem queryOf_eq_none_iff (h : '#' ∉ cs) : queryOf cs = none ↔ '?' ∉ cs := by
  have hnil (list : List Char) : list.tail? = none ↔ list = [] := by cases list <;> simp
  rw [queryOf, beforeHash_eq_self_iff.mpr h, hnil, List.dropWhile_eq_nil_iff]
  constructor
  · intro h hmem
    simpa using h '?' hmem
  · intro h c hc
    simp [ne_of_mem_of_not_mem hc h]

theorem pathOf_append_queryOf (cs : List Char) :
    pathOf cs ++ (match queryOf cs with
      | some query => '?' :: query
      | none => []) = beforeHash cs := by
  have hsplit := List.takeWhile_append_dropWhile (p := (· ≠ '?')) (l := beforeHash cs)
  have hhead := List.head?_dropWhile_not (· ≠ '?') (beforeHash cs)
  unfold pathOf queryOf
  cases hdrop : (beforeHash cs).dropWhile (· ≠ '?') with
  | nil =>
    rw [hdrop] at hsplit
    exact hsplit
  | cons c query =>
    rw [hdrop] at hsplit hhead
    have hc : c = '?' := by simpa using hhead
    rw [hc] at hsplit
    exact hsplit

theorem beforeHash_of_authority (cs : List Char) :
    beforeHash cs = authorityOf cs ++ beforeHash (afterAuthority cs) := by
  have hauthority : ∀ c ∈ authorityOf cs, decide (c ≠ '#') = true := by
    intro c hc
    have hstays := List.mem_takeWhile_imp hc
    simp_all [endsAuthority]
  conv_lhs => rw [← authorityOf_append cs]
  exact List.takeWhile_append_of_pos hauthority

/-- A URI is written as the text it is read from, but for the spelling of a known scheme and the fragment. -/
theorem render_assemble (scheme after : List Char) :
    (assemble scheme after).render = String.ofList (keptScheme scheme ++ ':' :: '/' :: '/' :: beforeHash after) := by
  rw [beforeHash_of_authority, ← pathOf_append_queryOf, ← String.toList_inj]
  unfold render assemble
  cases queryOf (afterAuthority after) <;> simp

/-! ## Reading -/

theorem splitAuthority_eq_ok {authority : List Char} (h : splitAuthority cs = .ok (authority, rest)) :
    authority = authorityOf cs ∧ rest = afterAuthority cs := by
  unfold splitAuthority at h
  simp only [bind, Except.bind, pure, Except.pure] at h
  split at h
  next => simp at h
  next =>
    split at h
    next =>
      cases h
      exact ⟨rfl, rfl⟩
    next => simp [throw, throwThe, MonadExceptOf.throw] at h

/-- What is split off is a known or another scheme with its separator, or nothing. -/
theorem splitScheme_cases {scheme : Option String} (h : splitScheme cs = .ok (scheme, rest)) :
    (scheme = none ∧ rest = cs) ∨
      (scheme = some (String.ofList (keptScheme (cs.takeWhile isSchemeChar))) ∧
        cs = cs.takeWhile isSchemeChar ++ ':' :: '/' :: '/' :: rest) := by
  have hcs : cs.takeWhile isSchemeChar ++ cs.drop (cs.takeWhile isSchemeChar).length = cs :=
    List.prefix_iff_eq_append.mp (List.takeWhile_prefix _)
  unfold splitScheme at h
  dsimp only at h
  generalize cs.drop (cs.takeWhile isSchemeChar).length = after at h hcs
  split at h
  next after =>
    split at h
    next hknown =>
      cases h
      exact .inr ⟨by simp [keptScheme, hknown], hcs.symm⟩
    next hunknown =>
      split at h
      next =>
        cases h
        exact .inl ⟨rfl, rfl⟩
      next =>
        split at h
        next => cases h
        next =>
          cases h
          exact .inr ⟨by simp [keptScheme, hunknown], hcs.symm⟩
  next =>
    cases h
    exact .inl ⟨rfl, rfl⟩

theorem pathOf_eq (cs : List Char) : pathOf cs = cs.takeWhile fun c => c ≠ '?' && c ≠ '#' := by
  simp [pathOf, beforeHash, List.takeWhile_takeWhile]

theorem queryOf_eq (cs : List Char) :
    queryOf cs = match cs.dropWhile fun c => c ≠ '?' && c ≠ '#' with
      | '?' :: after => some (beforeHash after)
      | _ => none := by
  have hsplit := List.takeWhile_append_dropWhile (p := fun c => c ≠ '?' && c ≠ '#') (l := cs)
  have hhead := List.head?_dropWhile_not (fun c => c ≠ '?' && c ≠ '#') cs
  have hpath : ∀ c ∈ cs.takeWhile fun c => c ≠ '?' && c ≠ '#', decide (c ≠ '?') = true ∧ decide (c ≠ '#') = true := by
    intro c hc
    simpa using List.mem_takeWhile_imp hc
  unfold queryOf beforeHash
  conv_lhs => rw [← hsplit]
  rw [List.takeWhile_append_of_pos fun c hc => (hpath c hc).2, List.dropWhile_append_of_pos fun c hc => (hpath c hc).1]
  -- the path is kept whole, so that what follows it decides
  cases hdrop : cs.dropWhile fun c => c ≠ '?' && c ≠ '#' with
  | nil => rfl
  | cons c after =>
    rw [hdrop] at hhead
    by_cases hc : c = '?'
    · simp [hc]
    · simp_all

theorem splitPath_eq_ok {path : String} {query : Option String} (h : splitPath ('/' :: cs) = .ok (path, query)) :
    path = String.ofList (pathOf ('/' :: cs)) ∧ query = (queryOf ('/' :: cs)).map String.ofList := by
  have hpath : (pathOf ('/' :: cs)).isEmpty = false := by simp [pathOf_eq]
  unfold splitPath at h
  rw [queryOf_eq]
  simp only [← pathOf_eq, hpath, bind, Except.bind, pure, Except.pure, throw, throwThe, MonadExceptOf.throw] at h
  split at h
  next => simp at h
  next =>
    split at h
    next after hdrop =>
      split at h
      next => simp_all [beforeHash]
      next => simp at h
    next => simp_all

/-- A text is read as a path without an authority, or as an authority with what comes before and after it. -/
theorem ofString_cases (h : ofString s = .ok uri) :
    (uri.authority = none ∧ (s.toList = ['*'] ∨ s.toList.head? = some '/')) ∨
    (s.toList ≠ [] ∧ s.toList.head? ≠ some '/' ∧
      ∃ scheme after, splitScheme s.toList = .ok (scheme, after) ∧ (scheme = none → afterAuthority after = []) ∧
        ∀ kept, scheme = some kept → ∃ path query, splitPath (afterAuthority after) = .ok (path, query) ∧
          uri = { scheme, authority := some (String.ofList (authorityOf after)), path, query }) := by
  unfold ofString at h
  simp only [bind, Except.bind, pure, Except.pure, throw, throwThe, MonadExceptOf.throw] at h
  split at h
  next => simp at h
  split at h
  next => simp at h
  next hcs =>
    cases h
    exact .inl ⟨rfl, .inl hcs⟩
  next hcs =>
    split at h
    next => simp at h
    next =>
      cases h
      exact .inl ⟨rfl, .inr (by simp [hcs])⟩
  next hempty _ hslash =>
    have hhead : s.toList.head? ≠ some '/' := by
      intro hhead
      obtain ⟨rest, hrest⟩ := List.head?_eq_some_iff.mp hhead
      exact hslash rest hrest
    refine .inr ⟨hempty, hhead, ?_⟩
    cases hscheme : splitScheme s.toList with
    | error cause => simp [hscheme] at h
    | ok split =>
      obtain ⟨scheme, after⟩ := split
      simp only [hscheme] at h
      split at h
      next => simp at h
      cases hauthority : splitAuthority after with
      | error cause => simp [hauthority] at h
      | ok split =>
        obtain ⟨authority, rest⟩ := split
        obtain ⟨rfl, rfl⟩ := splitAuthority_eq_ok hauthority
        simp only [hauthority] at h
        refine ⟨scheme, after, rfl, ?_, ?_⟩
        · rintro rfl
          simp only [Option.isNone_none, if_true] at h
          split at h
          next hrest => exact List.isEmpty_iff.mp hrest
          split at h <;> simp at h
        · rintro kept rfl
          simp only [Option.isNone_some, Bool.false_eq_true, if_false] at h
          split at h
          next => simp at h
          cases hpath : splitPath (afterAuthority after) with
          | error cause => simp [hpath] at h
          | ok split => exact ⟨split.1, split.2, rfl, by simpa [hpath] using h.symm⟩

theorem head?_of_authority (h : ofString s = .ok uri) (hauthority : uri.authority.isSome) :
    s.toList ≠ [] ∧ s.toList.head? ≠ some '/' := by
  rcases ofString_cases h with ⟨hnone, -⟩ | ⟨hempty, hhead, -⟩
  · simp [hnone] at hauthority
  · exact ⟨hempty, hhead⟩

/-- A text with a slash that does not come first is read as a URI only if it has a scheme. -/
theorem ofString_eq_ok (h : ofString s = .ok uri) (hslash : '/' ∈ s.toList) (hhead : s.toList.head? ≠ some '/') :
    let scheme := s.toList.takeWhile isSchemeChar
    ∃ after, s.toList = scheme ++ ':' :: '/' :: '/' :: after ∧
      ((afterAuthority after).head? = some '/' → uri = assemble scheme after) := by
  rcases ofString_cases h with ⟨-, hstar | hpath⟩ | ⟨-, -, scheme, after, hscheme, hnone, hsome⟩
  · simp [hstar] at hslash
  · exact absurd hpath hhead
  rcases splitScheme_cases hscheme with ⟨rfl, hcs⟩ | ⟨rfl, hs⟩
  · -- the whole text would have to be an authority, in which no slash can stand
    have hstays := List.dropWhile_eq_nil_iff.mp (hnone rfl) '/' (hcs ▸ hslash)
    simp [endsAuthority] at hstays
  · obtain ⟨path, query, hpath, rfl⟩ := hsome _ rfl
    refine ⟨after, hs, ?_⟩
    intro hrest
    obtain ⟨rest, hrest⟩ := List.head?_eq_some_iff.mp hrest
    rw [hrest] at hpath
    obtain ⟨rfl, rfl⟩ := splitPath_eq_ok hpath
    rw [assemble, hrest]

end OverlayHost.Net.Uri
