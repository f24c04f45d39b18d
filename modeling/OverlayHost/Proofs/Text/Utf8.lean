import OverlayHost.Text.Utf8

/-!
# Ends of texts and of their bytes

The bytes of a text end with those of another one just if the text ends with that one: `encode_isSuffix_iff`. No character
begins inside the bytes of another, which is why the bytes of the shorter text can only begin where a character begins.
-/

set_option autoImplicit false

namespace OverlayHost.Text.Utf8

variable {cs ds : List Char} {c : Char}

theorem encode_nil : encode [] = [] := rfl

theorem encode_cons (c : Char) (cs : List Char) : encode (c :: cs) = String.utf8EncodeChar c ++ encode cs :=
  List.flatMap_cons

theorem encode_append (cs ds : List Char) : encode (cs ++ ds) = encode cs ++ encode ds := List.flatMap_append

theorem encode_eq_nil_iff : encode cs = [] ↔ cs = [] := by
  cases cs with
  | nil => simp [encode_nil]
  | cons c cs => simp [encode_cons]

theorem encode_injective (h : encode cs = encode ds) : cs = ds := by
  have hbytes : cs.utf8Encode = ds.utf8Encode := congrArg List.toByteArray h
  have htext : String.ofList cs = String.ofList ds := by
    rw [← String.toByteArray_inj, String.toByteArray_ofList, String.toByteArray_ofList, hbytes]
  simpa using congrArg String.toList htext

theorem exists_first_byte (hcs : cs ≠ []) : ∃ byte rest, encode cs = byte :: rest ∧ byte.IsUTF8FirstByte := by
  obtain ⟨c, cs, rfl⟩ := List.exists_cons_of_ne_nil hcs
  have hlength : 0 < (String.utf8EncodeChar c).length := List.length_pos_iff.mpr String.utf8EncodeChar_ne_nil
  have hfirst : (String.utf8EncodeChar c)[0].IsUTF8FirstByte := UInt8.isUTF8FirstByte_getElem_utf8EncodeChar.mpr rfl
  rw [encode_cons]
  cases hchar : String.utf8EncodeChar c with
  | nil => simp [hchar] at hlength
  | cons byte rest =>
    simp only [hchar, List.getElem_cons_zero] at hfirst
    exact ⟨byte, rest ++ encode cs, rfl, hfirst⟩

/-- A later byte of a character is no first byte of one. -/
theorem not_first_of_later {before rest : List UInt8} {byte : UInt8} (hbefore : before ≠ [])
    (hchar : String.utf8EncodeChar c = before ++ byte :: rest) : ¬ byte.IsUTF8FirstByte := by
  have hlength : before.length < (String.utf8EncodeChar c).length := by
    rw [hchar, List.length_append, List.length_cons]
    omega
  have hbyte : (String.utf8EncodeChar c)[before.length] = byte := by simp [hchar]
  rw [← hbyte, UInt8.isUTF8FirstByte_getElem_utf8EncodeChar]
  simpa using hbefore

theorem isSuffix_of_encode {before : List UInt8} (hds : ds ≠ []) (h : before ++ encode ds = encode cs) : ds <:+ cs := by
  induction cs generalizing before with
  | nil =>
    have hnone : encode ds = [] := (List.append_eq_nil_iff.mp (h.trans encode_nil)).2
    exact absurd (encode_eq_nil_iff.mp hnone) hds
  | cons c cs ih =>
    by_cases hbefore : before = []
    · rw [hbefore, List.nil_append] at h
      obtain rfl := encode_injective h
      exact List.suffix_rfl
    rw [encode_cons] at h
    rcases List.append_eq_append_iff.mp h with ⟨inside, hchar, hencode⟩ | ⟨more, -, hrest⟩
    · cases inside with
      | nil =>
        rw [encode_injective hencode]
        exact List.suffix_cons c cs
      | cons byte inside =>
        obtain ⟨first, rest, hfirst, hstarts⟩ := exists_first_byte hds
        obtain rfl : first = byte := (List.cons.inj (hfirst.symm.trans hencode)).1
        exact absurd hstarts (not_first_of_later hbefore hchar)
    · exact (ih hrest.symm).trans (List.suffix_cons c cs)

/-- Bytes end where texts end. -/
theorem encode_isSuffix_iff (hds : ds ≠ []) : encode ds <:+ encode cs ↔ ds <:+ cs := by
  constructor
  · rintro ⟨before, h⟩
    exact isSuffix_of_encode hds h
  · rintro ⟨before, rfl⟩
    exact ⟨encode before, (encode_append before ds).symm⟩

end OverlayHost.Text.Utf8
