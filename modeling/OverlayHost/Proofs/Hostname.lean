import OverlayHost.Hostname
import OverlayHost.Proofs.Text.Blank
import OverlayHost.Proofs.Text.Utf8

/-!
# Canonical hostnames

Which names are under a suffix, and which spellings a canonical name has. `isUnder_iff` says that the comparison of bytes
finds the names that consist of some text, a dot and the suffix. `canonical_of_spells` and `canonicalSuffix_of_spells` say
that neither blanks around a name, nor the case of ASCII letters, nor a dot at its end make another name of it.
-/

set_option autoImplicit false

namespace OverlayHost.Hostname

open Text

variable {suffix name hostname written : String} {cs ds : List Char}

/-! ## Names under a suffix -/

/-- The name consists of some text, a dot and the suffix. -/
def Under (suffix name : String) : Prop := ∃ front : String, name = front ++ "." ++ suffix

theorem under_iff_isSuffix : Under suffix name ↔ '.' :: suffix.toList <:+ name.toList := by
  constructor
  · rintro ⟨front, rfl⟩
    exact ⟨front.toList, by simp⟩
  · rintro ⟨front, hname⟩
    refine ⟨String.ofList front, ?_⟩
    rw [← String.toList_inj, ← hname]
    simp

theorem encode_dot (cs : List Char) : Utf8.encode ('.' :: cs) = '.'.toUInt8 :: Utf8.encode cs := rfl

/-- A list that is longer than its tail has a last element in front of it. -/
theorem cons_isSuffix_iff {α : Type} {x : α} {tail whole : List α} (h : tail.length < whole.length) :
    x :: tail <:+ whole ↔ tail <:+ whole ∧ whole[whole.length - tail.length - 1] = x := by
  constructor
  · rintro ⟨front, rfl⟩
    refine ⟨⟨front ++ [x], List.append_assoc front [x] tail⟩, List.getElem_of_append rfl ?_⟩
    rw [List.length_append, List.length_cons]
    omega
  · rintro ⟨⟨front, rfl⟩, hx⟩
    rcases front.eq_nil_or_concat with rfl | ⟨front, last, rfl⟩
    · exact absurd h (lt_irrefl _)
    · have hsplit : front.concat last ++ tail = front ++ last :: tail := by
        rw [List.concat_eq_append, List.append_assoc]
        rfl
      have hlast : (front.concat last ++ tail)[(front.concat last ++ tail).length - tail.length - 1] = last := by
        refine List.getElem_of_append hsplit ?_
        rw [List.length_append, List.length_concat]
        omega
      obtain rfl : last = x := hlast.symm.trans hx
      exact ⟨front, hsplit.symm⟩

theorem isUnder_iff : isUnder suffix name = true ↔ Under suffix name := by
  rw [under_iff_isSuffix, ← Utf8.encode_isSuffix_iff (List.cons_ne_nil _ _), encode_dot]
  by_cases h : (Utf8.encode suffix.toList).length < (Utf8.encode name.toList).length
  · rw [cons_isSuffix_iff h, isUnder, dif_pos h, Bool.and_eq_true, List.isSuffixOf_iff_suffix, decide_eq_true_eq]
  · rw [isUnder, dif_neg h]
    refine iff_of_false Bool.false_ne_true fun hunder => h ?_
    have hlength := hunder.length_le
    rwa [List.length_cons] at hlength

/-! ## Canonical names -/

theorem toList_canonical (name : String) :
    (canonical name).toList = withDot ((trim name).toList.map Char.toLower) := String.toList_ofList

theorem withDot_of_dot (h : cs.getLast? = some '.') : withDot cs = cs := if_pos h

theorem getLast?_withDot (cs : List Char) : (withDot cs).getLast? = some '.' := by
  unfold withDot
  split
  next h => exact h
  next => exact List.getLast?_concat

theorem trimmed_map_toLower (h : Trimmed cs) : Trimmed (cs.map Char.toLower) := by
  refine ⟨?_, ?_⟩
  · intro c hc
    rw [List.head?_map] at hc
    obtain ⟨d, hd, rfl⟩ := Option.map_eq_some_iff.mp hc
    rw [isBlank_toLower, h.head d hd]
  · intro c hc
    rw [List.getLast?_map] at hc
    obtain ⟨d, hd, rfl⟩ := Option.map_eq_some_iff.mp hc
    rw [isBlank_toLower, h.last d hd]

theorem trimmed_append (hcs : Trimmed cs) (hds : Trimmed ds) : Trimmed (cs ++ ds) := by
  refine ⟨?_, ?_⟩
  · intro c hc
    rw [List.head?_append, Option.mem_def, Option.or_eq_some_iff] at hc
    rcases hc with hc | ⟨-, hc⟩
    · exact hcs.head c hc
    · exact hds.head c hc
  · intro c hc
    rw [List.getLast?_append, Option.mem_def, Option.or_eq_some_iff] at hc
    rcases hc with hc | ⟨-, hc⟩
    · exact hds.last c hc
    · exact hcs.last c hc

theorem trimmed_dots (h : ∀ c ∈ cs, c = '.') : Trimmed cs := by
  refine ⟨?_, ?_⟩
  · intro c hc
    rw [h c (List.mem_of_mem_head? hc)]
    rfl
  · intro c hc
    rw [h c (List.mem_of_mem_getLast? hc)]
    rfl

theorem canonical_of_isAllBlank (h : isAllBlank name) : canonical name = "." := by
  have hnone : Trimmed "".toList := trimmed_dots nofun
  have htrim := @trim_padded name "" "" h rfl hnone
  rw [String.append_empty, String.append_empty] at htrim
  rw [canonical, htrim]
  rfl

/-- The canonical name of a canonical name is this name. -/
theorem canonical_canonical (name : String) : canonical (canonical name) = canonical name := by
  have hlower : (withDot ((trim name).toList.map Char.toLower)).map Char.toLower =
      withDot ((trim name).toList.map Char.toLower) := by
    have hmap : ((trim name).toList.map Char.toLower).map Char.toLower = (trim name).toList.map Char.toLower := by
      simp [Function.comp_def]
    unfold withDot
    split
    · exact hmap
    · rw [List.map_append, hmap]
      rfl
  have htrimmed : Trimmed (canonical name).toList := by
    rw [toList_canonical, withDot]
    have htext := trimmed_map_toLower (trimmed_trim name)
    split
    · exact htext
    · exact trimmed_append htext (trimmed_dots (by simp))
  rw [← String.toList_inj, toList_canonical (canonical name), trim_of_trimmed htrimmed, toList_canonical, hlower,
    withDot_of_dot (getLast?_withDot _)]

/-! ## Spellings -/

/-- A hostname in another spelling: with letters in another case, with a dot at its end or without, and with blanks
around it. -/
def Spells (hostname written : String) : Prop :=
  ∃ before recased dot after : String, written = before ++ (recased ++ dot) ++ after ∧ isAllBlank before ∧
    isAllBlank after ∧ List.Forall₂ Recased hostname.toList recased.toList ∧ (dot = "" ∨ dot = ".")

/-- A suffix in another spelling, which may have any number of dots in front of it besides. -/
def SpellsSuffix (suffix written : String) : Prop :=
  ∃ before dots recased dot after : String, written = before ++ (dots ++ (recased ++ dot)) ++ after ∧ isAllBlank before ∧
    isAllBlank after ∧ (∀ c ∈ dots.toList, c = '.') ∧ List.Forall₂ Recased suffix.toList recased.toList ∧
    (dot = "" ∨ dot = ".")

theorem map_toLower_of_recased (h : List.Forall₂ Recased cs ds) : ds.map Char.toLower = cs.map Char.toLower := by
  induction h with
  | nil => rfl
  | cons hcd _ ih => rw [List.map_cons, List.map_cons, hcd.toLower_eq, ih]

theorem trimmed_of_recased (h : List.Forall₂ Recased cs ds) (hcs : Trimmed cs) : Trimmed ds := by
  have hlower := trimmed_map_toLower hcs
  rw [← map_toLower_of_recased h] at hlower
  refine ⟨?_, ?_⟩
  · intro d hd
    rw [← isBlank_toLower]
    exact hlower.head _ (by rw [List.head?_map, hd]; rfl)
  · intro d hd
    rw [← isBlank_toLower]
    exact hlower.last _ (by rw [List.getLast?_map, hd]; rfl)

theorem forall_dot_of_or {dot : String} (h : dot = "" ∨ dot = ".") : ∀ c ∈ dot.toList, c = '.' := by
  rcases h with rfl | rfl <;> simp

theorem map_toLower_dots (h : ∀ c ∈ ds, c = '.') : ds.map Char.toLower = ds := by
  refine (List.map_congr_left fun c hc => ?_).trans (List.map_id ds)
  rw [h c hc]
  rfl

/-- A dot at the end, or none, makes no difference to a text that does not end with one. -/
theorem withDot_append {dot : String} (hdot : dot = "" ∨ dot = ".") (hcs : cs.getLast? ≠ some '.') :
    withDot (cs ++ dot.toList) = withDot cs := by
  rcases hdot with rfl | rfl
  · rw [String.toList_empty, List.append_nil]
  · have hplain : withDot cs = cs ++ ['.'] := if_neg hcs
    rw [hplain]
    exact withDot_of_dot List.getLast?_concat

theorem getLast?_map_toLower (hcs : cs.getLast? ≠ some '.') : (cs.map Char.toLower).getLast? ≠ some '.' := by
  rw [List.getLast?_map]
  intro h
  obtain ⟨c, hc, hlower⟩ := Option.map_eq_some_iff.mp h
  exact hcs (by rw [hc, (toLower_eq_dot_iff c).mp hlower])

theorem canonical_of_spells (htrimmed : Trimmed hostname.toList) (hlast : hostname.toList.getLast? ≠ some '.')
    (h : Spells hostname written) : canonical written = canonical hostname := by
  obtain ⟨before, recased, dot, after, rfl, hbefore, hafter, hrecased, hdot⟩ := h
  have hdots := forall_dot_of_or hdot
  have hinner : Trimmed (recased ++ dot).toList := by
    rw [String.toList_append]
    exact trimmed_append (trimmed_of_recased hrecased htrimmed) (trimmed_dots hdots)
  rw [← String.toList_inj, toList_canonical, toList_canonical, trim_padded hbefore hafter hinner,
    trim_of_trimmed htrimmed, String.toList_append, List.map_append, map_toLower_of_recased hrecased,
    map_toLower_dots hdots, withDot_append hdot (getLast?_map_toLower hlast)]

/-- Dots in front of a text that is dot-terminated are dropped with those it begins with. -/
theorem dropWhile_withDot_append (hds : ∀ c ∈ ds, c = '.') (cs : List Char) :
    (withDot (ds ++ cs)).dropWhile (· = '.') = (withDot cs).dropWhile (· = '.') := by
  have hdrop : ∀ c ∈ ds, decide (c = '.') = true := fun c hc => decide_eq_true (hds c hc)
  cases cs with
  | cons c cs =>
    have hsplit : withDot (ds ++ c :: cs) = ds ++ withDot (c :: cs) := by
      have hlast : (ds ++ c :: cs).getLast? = (c :: cs).getLast? := by
        rw [List.getLast?_append, List.getLast?_cons]
        rfl
      rw [withDot, withDot, hlast]
      split
      · rfl
      · exact List.append_assoc _ _ _
    rw [hsplit, List.dropWhile_append_of_pos hdrop]
  | nil =>
    have hdots : ∀ c ∈ withDot ds, decide (c = '.') = true := by
      unfold withDot
      split
      · exact hdrop
      · exact List.forall_mem_append.mpr ⟨hdrop, by simp⟩
    rw [List.append_nil, List.dropWhile_eq_nil_iff.mpr hdots]
    rfl

theorem toList_canonicalSuffix (suffix : String) :
    (canonicalSuffix suffix).toList = (withDot ((trim suffix).toList.map Char.toLower)).dropWhile (· = '.') := by
  rw [canonicalSuffix, String.toList_ofList, toList_canonical]

theorem canonicalSuffix_of_spells (htrimmed : Trimmed suffix.toList) (hlast : suffix.toList.getLast? ≠ some '.')
    (h : SpellsSuffix suffix written) : canonicalSuffix written = canonicalSuffix suffix := by
  obtain ⟨before, dots, recased, dot, after, rfl, hbefore, hafter, hfront, hrecased, hdot⟩ := h
  have hdots := forall_dot_of_or hdot
  have hinner : Trimmed (dots ++ (recased ++ dot)).toList := by
    rw [String.toList_append, String.toList_append]
    exact trimmed_append (trimmed_dots hfront)
      (trimmed_append (trimmed_of_recased hrecased htrimmed) (trimmed_dots hdots))
  rw [← String.toList_inj, toList_canonicalSuffix, toList_canonicalSuffix, trim_padded hbefore hafter hinner,
    trim_of_trimmed htrimmed, String.toList_append, String.toList_append, List.map_append, List.map_append,
    map_toLower_of_recased hrecased, map_toLower_dots hfront, map_toLower_dots hdots, dropWhile_withDot_append hfront,
    withDot_append hdot (getLast?_map_toLower hlast)]

end OverlayHost.Hostname
