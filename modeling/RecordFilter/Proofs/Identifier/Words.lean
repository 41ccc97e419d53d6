import Mathlib.Algebra.GroupWithZero.Nat
import RecordFilter.Identifier.ObjectId
import RecordFilter.Identifier.Ulid
import RecordFilter.Identifier.Uuid
import RecordFilter.Proofs.Text.Utf8
import RecordFilter.Proofs.Yields

/-!
# Identifiers that are read back

An identifier is written digit by digit in an alphabet, and reading its text gives the digits again.
-/

namespace RecordFilter.Identifier

open RecordFilter.Text

namespace Word

variable {base length : Nat}

theorem ofList?_digits (w : Word base length) : ofList? w.digits = some w := dif_pos w.length_eq

theorem length_text (alphabet : List Char) (w : Word base length) :
    (text alphabet w).length = length := by
  rw [text, List.length_map, w.length_eq]

theorem mem_of_mem_text {alphabet : List Char} (h : base ≤ alphabet.length)
    {w : Word base length} {c : Char} (hc : c ∈ text alphabet w) : c ∈ alphabet := by
  obtain ⟨d, -, rfl⟩ := List.mem_map.mp hc
  have hd : d.val < alphabet.length := Nat.lt_of_lt_of_le d.isLt h
  rw [List.getD_eq_getElem?_getD, List.getElem?_eq_getElem hd, Option.getD_some]
  exact List.getElem_mem hd

theorem ascii_of_mem_text {alphabet : List Char} (h : base ≤ alphabet.length)
    (hascii : alphabet.all (·.toNat < 0x80) = true) {w : Word base length} {c : Char}
    (hc : c ∈ text alphabet w) : c.toNat < 0x80 := by
  simpa using List.all_eq_true.mp hascii c (mem_of_mem_text h hc)

theorem length_utf8_text {alphabet : List Char} (h : base ≤ alphabet.length)
    (hascii : alphabet.all (·.toNat < 0x80) = true) (w : Word base length) :
    (utf8 (text alphabet w)).length = length := by
  rw [utf8_of_ascii fun _ => ascii_of_mem_text h hascii, List.length_map, length_text]

theorem mapM_text {alphabet : List Char} {read : Char → Option (Fin base)}
    (hread : ∀ d : Fin base, read (alphabet.getD d.val ' ') = some d) (w : Word base length) :
    (text alphabet w).mapM read = some w.digits := by
  unfold text
  induction w.digits with
  | nil => rfl
  | cons d rest ih =>
    rw [List.map_cons, List.mapM_cons, hread, ih]
    rfl

end Word

/-! ## Hexadecimal digits -/

def IsHex (c : Char) : Prop :=
  '0' ≤ c ∧ c ≤ '9' ∨ 'a' ≤ c ∧ c ≤ 'f' ∨ 'A' ≤ c ∧ c ≤ 'F'

instance : DecidablePred IsHex := fun _ => inferInstanceAs (Decidable (_ ∨ _ ∨ _))

theorem isHex_iff {c : Char} : IsHex c ↔
    48 ≤ c.toNat ∧ c.toNat ≤ 57 ∨ 97 ≤ c.toNat ∧ c.toNat ≤ 102 ∨
      65 ≤ c.toNat ∧ c.toNat ≤ 70 := by
  simp only [IsHex, Char.le_def, UInt32.le_iff_toNat_le]
  exact Iff.rfl

theorem IsHex.ascii {c : Char} (h : IsHex c) : c.toNat < 0x80 := by
  rw [isHex_iff] at h
  omega

theorem hexDigit?_eq_none_iff {c : Char} : hexDigit? c = none ↔ ¬IsHex c := by
  simp only [hexDigit?, isHex_iff]
  split_ifs
  all_goals
    simp
    omega

theorem isHex_of_hexDigit? {c : Char} {d : Fin 16} (h : hexDigit? c = some d) : IsHex c := by
  by_contra hc
  rw [hexDigit?_eq_none_iff.mpr hc] at h
  cases h

theorem exists_hexDigit? {c : Char} (h : IsHex c) : ∃ d, hexDigit? c = some d := by
  rw [← Option.ne_none_iff_exists']
  exact fun hnone => hexDigit?_eq_none_iff.mp hnone h

theorem hexDigit?_hexAlphabet (d : Fin 16) : hexDigit? (hexAlphabet.getD d.val ' ') = some d := by
  revert d
  decide

theorem mem_hexAlphabet {length : Nat} {w : Word 16 length} {c : Char}
    (hc : c ∈ Word.text hexAlphabet w) : c ∈ hexAlphabet :=
  Word.mem_of_mem_text (Nat.le_refl 16) hc

/-! ## Object identifiers -/

namespace ObjectId

theorem readBytes_of_hexDigit? {c : Char} {d : Fin 16} (h : hexDigit? c = some d)
    (bytes : List UInt8) :
    readBytes (String.utf8EncodeChar c ++ bytes) = (readBytes bytes).map (d :: ·) := by
  have hascii : c.toNat < 0x80 := (isHex_of_hexDigit? h).ascii
  have hchar : Char.ofNat (UInt8.ofNat c.toNat).toNat = c := by
    rw [toNat_ofNat (by omega), Char.ofNat_toNat]
  rw [utf8EncodeChar_of_ascii hascii, List.singleton_append, readBytes, hchar, h]

theorem readBytes_utf8 {s : List Char} {digits : List (Fin 16)} (h : hexDigits? s = some digits) :
    readBytes (utf8 s) = .ok digits := by
  induction s generalizing digits with
  | nil =>
    cases h
    rfl
  | cons c s ih =>
    rw [hexDigits?, List.mapM_cons] at h
    obtain ⟨d, hd, hs⟩ := Option.bind_eq_some_iff.mp h
    obtain ⟨rest, hrest, hdigits⟩ := Option.bind_eq_some_iff.mp hs
    cases hdigits
    rw [utf8_cons, readBytes_of_hexDigit? hd, ih hrest]
    rfl

theorem read_text (id : ObjectId) : read (text id) = .ok id := by
  have hlength : (utf8 (text id)).length = 24 :=
    Word.length_utf8_text (Nat.le_refl 16) (by decide) id
  have hbytes : readBytes (utf8 (text id)) = .ok id.digits :=
    readBytes_utf8 (Word.mapM_text hexDigit?_hexAlphabet id)
  rw [read, if_pos hlength, hbytes]
  simp only [bind, Except.bind, Word.ofList?_digits]

theorem text_injective {id id' : ObjectId} (h : text id = text id') : id = id' := by
  have hread := read_text id
  rw [h, read_text id'] at hread
  exact (Except.ok.inj hread).symm

end ObjectId

/-! ## ULIDs -/

namespace Ulid

theorem digit?_alphabet (d : Fin 32) : digit? (alphabet.getD d.val ' ') = some d := by
  revert d
  decide

/-- The first digit fits into 128 bits. -/
def IsFitted (id : Ulid) : Prop := fit id.digits = id.digits

theorem fit_fit (digits : List (Fin 32)) : fit (fit digits) = fit digits := by
  cases digits with
  | nil => rfl
  | cons d rest => simp [fit]

theorem isFitted_read (s : List Char) : Yields (read s) IsFitted := by
  unfold read
  split
  · exact yields_error _
  · split
    · rename_i hread
      obtain ⟨digits, -, hword⟩ := Option.bind_eq_some_iff.mp hread
      unfold Word.ofList? at hword
      split at hword
      · cases hword
        exact yields_ok (fit_fit digits)
      · cases hword
    · exact yields_error _

theorem read_text {id : Ulid} (h : id.IsFitted) : read (text id) = .ok id := by
  have hlength : (utf8 (text id)).length = 26 :=
    Word.length_utf8_text (Nat.le_refl 32) (by decide) id
  have hdigits : (text id).mapM digit? = some id.digits := Word.mapM_text digit?_alphabet id
  have hfit : fit id.digits = id.digits := h
  rw [read, if_neg (by simp [hlength]), hdigits, Option.bind_some, hfit, Word.ofList?_digits]

end Ulid

/-! ## UUIDs -/

namespace Uuid

variable {α : Type}

theorem map_length_cut {lengths : List Nat} {l : List α} (h : lengths.sum ≤ l.length) :
    (cut lengths l).map List.length = lengths := by
  induction lengths generalizing l with
  | nil => rfl
  | cons n rest ih =>
    rw [List.sum_cons] at h
    rw [cut, List.map_cons, ih (by rw [List.length_drop]; omega), List.length_take,
      Nat.min_eq_left (by omega)]

theorem flatten_cut {lengths : List Nat} {l : List α} (h : l.length = lengths.sum) :
    (cut lengths l).flatten = l := by
  induction lengths generalizing l with
  | nil => exact (List.eq_nil_of_length_eq_zero h).symm
  | cons n rest ih =>
    rw [List.sum_cons] at h
    rw [cut, List.flatten_cons, ih (by rw [List.length_drop]; omega), List.take_append_drop]

theorem mem_of_mem_cut {lengths : List Nat} {l piece : List α} {a : α}
    (hpiece : piece ∈ cut lengths l) (ha : a ∈ piece) : a ∈ l := by
  induction lengths generalizing l with
  | nil => cases hpiece
  | cons n rest ih =>
    rcases List.mem_cons.mp hpiece with rfl | hpiece
    · exact List.mem_of_mem_take ha
    · exact List.mem_of_mem_drop (ih hpiece)

theorem readHyphenated_text (id : Uuid) : readHyphenated (text id) = some id := by
  have hnotin : ∀ piece ∈ cut groupLengths (Word.text hexAlphabet id), '-' ∉ piece := by
    intro piece hpiece hmem
    exact absurd (mem_hexAlphabet (mem_of_mem_cut hpiece hmem)) (by decide)
  have hsplit : (text id).splitOn '-' = cut groupLengths (Word.text hexAlphabet id) :=
    List.splitOn_intercalate '-' hnotin (List.cons_ne_nil _ _)
  have hlength : (Word.text hexAlphabet id).length = groupLengths.sum := Word.length_text _ id
  rw [readHyphenated, hsplit, if_pos (map_length_cut (Nat.le_of_eq hlength.symm)),
    flatten_cut hlength, readSimple, hexDigits?, Word.mapM_text hexDigit?_hexAlphabet,
    Option.bind_some, Word.ofList?_digits]

theorem mapM_eq_none {f : Char → Option α} {s : List Char} {c : Char} (hc : c ∈ s)
    (hf : f c = none) : s.mapM f = none := by
  induction s with
  | nil => cases hc
  | cons d s ih =>
    rw [List.mapM_cons]
    rcases List.mem_cons.mp hc with rfl | hc
    · rw [hf]
      rfl
    · rw [ih hc]
      cases f d <;> rfl

theorem readSimple_text (id : Uuid) : readSimple (text id) = none := by
  have hmem : '-' ∈ text id := by
    unfold text
    change '-' ∈ List.intercalate ['-'] (_ :: _ :: _)
    rw [List.intercalate_cons_cons]
    simp
  rw [readSimple, hexDigits?, mapM_eq_none hmem rfl]
  rfl

theorem exists_text_eq_cons (id : Uuid) : ∃ c rest, text id = c :: rest ∧ c ∈ hexAlphabet := by
  have hlength : (Word.text hexAlphabet id).length = 32 := Word.length_text _ id
  obtain ⟨c, digits, hdigits⟩ := List.exists_cons_of_length_eq_add_one hlength
  refine ⟨c, _, by rw [text, hdigits]; rfl, mem_hexAlphabet (w := id) ?_⟩
  rw [hdigits]
  exact List.mem_cons_self

theorem read_text (id : Uuid) : read (text id) = some id := by
  -- Braces and the mark of a URN are tried before; the first digit is neither.
  obtain ⟨c, rest, htext, hc⟩ := exists_text_eq_cons id
  have hbrace : c ≠ '\x7b' := by
    rintro rfl
    revert hc
    decide
  have hurn : sameIgnoringCase ((text id).take urnMark.length) urnMark = false := by
    have hlower : ∀ c ∈ hexAlphabet, (c.toLower != 'u') = true := List.all_eq_true.mp (by decide)
    refine Bool.eq_false_iff.mpr fun h => bne_iff_ne.mp (hlower c hc) ?_
    rw [htext] at h
    exact (List.cons.inj (sameIgnoringCase_iff.mp h)).1
  have hread : (readSimple (text id)).or (readHyphenated (text id)) = some id := by
    rw [readSimple_text, readHyphenated_text]
    rfl
  rw [htext] at hurn hread ⊢
  rw [read]
  · rw [if_neg (by simp [hurn]), hread]
  · rintro s heq
    cases heq
    exact hbrace rfl

end Uuid

end RecordFilter.Identifier
