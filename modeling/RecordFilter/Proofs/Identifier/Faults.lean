import RecordFilter.Proofs.Identifier.Packing
import RecordFilter.Proofs.Text.Cut
import RecordFilter.Proofs.Text.Lower

/-!
# What is said of a text that is no object identifier

An object identifier is read from 24 hexadecimal digits and from nothing else. For any other text
the bytes are counted and the characters reported, and a digit is looked for in each byte, so what
is said is true of the text just where 24 is the number of both or of neither.
-/

namespace RecordFilter.Identifier

open RecordFilter.Text

/-! ## Hexadecimal digits -/

theorem hexAlphabet_hexDigit? {c : Char} {d : Fin 16} (h : hexDigit? c = some d) :
    hexAlphabet.getD d.val ' ' = c.toLower := by
  have hall := @forall_ascii (fun c => ∀ d ∈ hexDigit? c, hexAlphabet.getD d.val ' ' = c.toLower)
    (by decide) c (isHex_of_hexDigit? h).ascii
  exact hall d h

theorem exists_hexDigits? {s : List Char} (h : ∀ c ∈ s, IsHex c) :
    ∃ digits, hexDigits? s = some digits ∧
      digits.map (fun d => hexAlphabet.getD d.val ' ') = asciiLower s := by
  induction s with
  | nil => exact ⟨[], rfl, rfl⟩
  | cons c s ih =>
    obtain ⟨hc, hs⟩ := List.forall_mem_cons.mp h
    obtain ⟨digits, hdigits, htext⟩ := ih hs
    obtain ⟨d, hd⟩ := exists_hexDigit? hc
    refine ⟨d :: digits, ?_, ?_⟩
    · rw [hexDigits?] at hdigits ⊢
      rw [List.mapM_cons, hd, hdigits]
      rfl
    · rw [List.map_cons, htext, hexAlphabet_hexDigit? hd]
      rfl

/-- The first character of the text that is no hexadecimal digit. -/
def firstOther? (s : List Char) : Option Char := s.find? fun c => ¬IsHex c

theorem firstOther?_eq_none_iff {s : List Char} : firstOther? s = none ↔ ∀ c ∈ s, IsHex c := by
  simp [firstOther?]

/-! ## Reading the bytes of a character -/

/-- The character whose code is the first byte of `c`. -/
def firstByteChar (c : Char) : Char := .ofNat ((String.utf8EncodeChar c).headD 0).toNat

theorem firstByteChar_of_ascii {c : Char} (h : c.toNat < 0x80) : firstByteChar c = c := by
  rw [firstByteChar, utf8EncodeChar_of_ascii h, List.headD_cons, toNat_ofNat (by omega),
    Char.ofNat_toNat]

theorem le_firstByteChar {c : Char} (h : 0x80 ≤ c.toNat) : 0x80 ≤ (firstByteChar c).toNat := by
  have hcode : ∀ b, 0x80 ≤ b → b < 256 → 0x80 ≤ (Char.ofNat (UInt8.ofNat b).toNat).toNat := by
    intro b hb hlt
    rw [toNat_ofNat hlt, Char.ofNat, dif_pos (Or.inl (by omega))]
    exact hb
  rw [firstByteChar, String.utf8EncodeChar, show c.val.toNat = c.toNat from rfl]
  generalize c.toNat = v at h
  split
  · omega
  · split
    · exact hcode _ (by omega) (by omega)
    · split
      · exact hcode _ (by omega) (by omega)
      · exact hcode _ (by omega) (by omega)

theorem not_isHex_firstByteChar {c : Char} (h : ¬IsHex c) : ¬IsHex (firstByteChar c) := by
  by_cases hascii : c.toNat < 0x80
  · rwa [firstByteChar_of_ascii hascii]
  · intro hhex
    have hlt := hhex.ascii
    have hle := le_firstByteChar (Nat.le_of_not_lt hascii)
    omega

namespace ObjectId

theorem readBytes_of_not_isHex {c : Char} (h : ¬IsHex c) (bytes : List UInt8) :
    readBytes (String.utf8EncodeChar c ++ bytes) = .error (.nonHex (firstByteChar c)) := by
  obtain ⟨b, rest, hbytes⟩ := List.exists_cons_of_ne_nil (String.utf8EncodeChar_ne_nil (c := c))
  have hfirst : firstByteChar c = Char.ofNat b.toNat := by rw [firstByteChar, hbytes]; rfl
  have hnone := hexDigit?_eq_none_iff.mpr (not_isHex_firstByteChar h)
  rw [hfirst] at hnone ⊢
  rw [hbytes, List.cons_append, readBytes, hnone]

theorem readBytes_of_firstOther? {s : List Char} {c : Char} (h : firstOther? s = some c) :
    readBytes (utf8 s) = .error (.nonHex (firstByteChar c)) := by
  induction s with
  | nil => cases h
  | cons x s ih =>
    rw [utf8_cons]
    by_cases hx : IsHex x
    · obtain ⟨d, hd⟩ := exists_hexDigit? hx
      rw [firstOther?, List.find?_cons_of_neg (by simp [hx])] at h
      rw [readBytes_of_hexDigit? hd, ih h]
      rfl
    · rw [firstOther?, List.find?_cons_of_pos (by simp [hx])] at h
      cases h
      exact readBytes_of_not_isHex hx _

/-! ## The three outcomes of reading -/

/-- The form of an object identifier: exactly 24 hexadecimal digits. -/
def HasForm (s : List Char) : Prop := s.length = 24 ∧ ∀ c ∈ s, IsHex c

variable {s : List Char}

theorem HasForm.byteCount_eq (h : HasForm s) : byteCount s = 24 := by
  rw [byteCount_of_ascii fun c hc => (h.2 c hc).ascii, h.1]

theorem read_of_hasForm (h : HasForm s) : ∃ id, read s = .ok id ∧ text id = asciiLower s := by
  obtain ⟨digits, hdigits, htext⟩ := exists_hexDigits? h.2
  have hlength : digits.length = 24 := by
    have := congrArg List.length htext
    simpa [asciiLower, h.1] using this
  have hcount : (utf8 s).length = 24 := h.byteCount_eq
  refine ⟨⟨digits, hlength⟩, ?_, htext⟩
  rw [read, if_pos hcount, readBytes_utf8 hdigits]
  simp only [bind, Except.bind, Word.ofList?, dif_pos hlength]

theorem read_of_byteCount_ne (h : byteCount s ≠ 24) : read s = .error (.length s.length) := by
  unfold byteCount at h
  rw [read, if_neg h]
  rfl

theorem read_of_firstOther? (h : byteCount s = 24) {c : Char} (hc : firstOther? s = some c) :
    read s = .error (.nonHex (firstByteChar c)) := by
  unfold byteCount at h
  rw [read, if_pos h, readBytes_of_firstOther? hc]
  rfl

theorem hasForm_of_firstOther?_eq_none (h : byteCount s = 24) (hnone : firstOther? s = none) :
    HasForm s := by
  have hhex := firstOther?_eq_none_iff.mp hnone
  refine ⟨?_, hhex⟩
  rw [← h, byteCount_of_ascii fun c hc => (hhex c hc).ascii]

/-! ## What is said and what is true -/

/-- The fault is true of the text. -/
def IsFault (s : List Char) : ObjectIdFault → Prop
  | .length n => s.length ≠ 24 ∧ n = s.length
  | .nonHex c => s.length = 24 ∧ firstOther? s = some c

/-- The fault is the one that the bytes of the text show. -/
def ShowsFault (s : List Char) : ObjectIdFault → Prop
  | .length n => byteCount s ≠ 24 ∧ n = s.length
  | .nonHex c => byteCount s = 24 ∧ (firstOther? s).map firstByteChar = some c

instance : DecidablePred (IsFault s)
  | .length _ => inferInstanceAs (Decidable (_ ∧ _))
  | .nonHex _ => inferInstanceAs (Decidable (_ ∧ _))

theorem exists_isFault (h : ¬HasForm s) : ∃ fault, IsFault s fault := by
  by_cases hlength : s.length = 24
  · obtain ⟨c, hc⟩ : ∃ c, firstOther? s = some c := by
      rw [← Option.ne_none_iff_exists']
      exact fun hnone => h ⟨hlength, firstOther?_eq_none_iff.mp hnone⟩
    exact ⟨.nonHex c, hlength, hc⟩
  · exact ⟨.length s.length, hlength, rfl⟩

theorem read_eq_ok_iff {id : ObjectId} :
    read s = .ok id ↔ HasForm s ∧ text id = asciiLower s := by
  constructor
  · intro h
    have hcount : byteCount s = 24 := by
      by_contra hne
      rw [read_of_byteCount_ne hne] at h
      cases h
    cases hother : firstOther? s with
    | some c =>
      rw [read_of_firstOther? hcount hother] at h
      cases h
    | none =>
      have hform := hasForm_of_firstOther?_eq_none hcount hother
      obtain ⟨id', hread, htext⟩ := read_of_hasForm hform
      rw [h] at hread
      cases hread
      exact ⟨hform, htext⟩
  · rintro ⟨hform, htext⟩
    obtain ⟨id', hread, htext'⟩ := read_of_hasForm hform
    rw [text_injective (htext.trans htext'.symm), hread]

theorem read_eq_error_iff {fault : ObjectIdFault} :
    read s = .error fault ↔ ShowsFault s fault := by
  by_cases hcount : byteCount s = 24
  · cases hother : firstOther? s with
    | some c =>
      rw [read_of_firstOther? hcount hother]
      cases fault <;> simp [ShowsFault, hcount, hother]
    | none =>
      obtain ⟨id, hread, -⟩ := read_of_hasForm (hasForm_of_firstOther?_eq_none hcount hother)
      rw [hread]
      cases fault <;> simp [ShowsFault, hcount, hother]
  · rw [read_of_byteCount_ne hcount]
    cases fault <;> simp [ShowsFault, hcount, eq_comm]

/-- Where the bytes are counted as the characters are, the fault that shows is the true one. -/
theorem showsFault_iff_isFault (h : byteCount s = 24 ↔ s.length = 24) {fault : ObjectIdFault} :
    ShowsFault s fault ↔ IsFault s fault := by
  cases fault with
  | length n => simp [ShowsFault, IsFault, h]
  | nonHex c =>
    simp only [ShowsFault, IsFault, h]
    refine and_congr_right fun hlength => ?_
    -- 24 characters in 24 bytes are ASCII, and their first bytes are the characters themselves.
    have hascii := ascii_of_byteCount_eq ((h.mpr hlength).trans hlength.symm)
    have hfirst : (firstOther? s).map firstByteChar = firstOther? s := by
      cases hother : firstOther? s with
      | none => rfl
      | some d =>
        have hmem : d ∈ s := List.mem_of_find?_eq_some hother
        exact congrArg some (firstByteChar_of_ascii (hascii d hmem))
    rw [hfirst]

theorem counts_agree_of_fault {fault : ObjectIdFault} (hshows : ShowsFault s fault)
    (hfault : IsFault s fault) : byteCount s = 24 ↔ s.length = 24 := by
  cases fault with
  | length n => exact iff_of_false hshows.1 hfault.1
  | nonHex c => exact iff_of_true hshows.1 hfault.1

/-- An object identifier is read from 24 hexadecimal digits, and written in small letters. From any
other text the fault is read that its bytes show, and that is the true one just where the text has
24 bytes if and only if it has 24 characters. Filling the twelve bytes place by place comes to the
same, never looks behind the end of the text, and the bytes are written as the digits are. -/
theorem read_faults (s : List Char) :
    ((∃ id, read s = .ok id) ↔ HasForm s) ∧
      (∀ id, read s = .ok id ↔ HasForm s ∧ text id = asciiLower s) ∧
      (∀ fault, read s = .error fault ↔ ShowsFault s fault) ∧
      ((∀ fault, read s = .error fault ↔ IsFault s fault) ↔
        (byteCount s = 24 ↔ s.length = 24)) ∧
      readPacked s = ((read s).mapError .refused).map bytes ∧
      ∀ id, (bytes id).flatMap hexByte = text id := by
  refine ⟨⟨?_, ?_⟩, fun _ => read_eq_ok_iff, fun _ => read_eq_error_iff, ⟨?_, ?_⟩,
    readPacked_eq s, flatMap_bytes⟩
  · rintro ⟨id, hread⟩
    exact (read_eq_ok_iff.mp hread).1
  · intro hform
    obtain ⟨id, hread, -⟩ := read_of_hasForm hform
    exact ⟨id, hread⟩
  · intro htrue
    by_cases hform : HasForm s
    · exact iff_of_true hform.byteCount_eq hform.1
    · obtain ⟨fault, hfault⟩ := exists_isFault hform
      exact counts_agree_of_fault (read_eq_error_iff.mp ((htrue fault).mpr hfault)) hfault
  · intro hcounts fault
    rw [read_eq_error_iff, showsFault_iff_isFault hcounts]

/-- An accent makes 24 bytes of 23 characters, in which a character is reported that is not there,
and 25 bytes of 24 characters, of which the right number is reported as wrong. -/
theorem accent_misreported :
    read "507f1f77bcf86cd7994390é".toList = .error (.nonHex 'Ã') ∧
      ¬IsFault "507f1f77bcf86cd7994390é".toList (.nonHex 'Ã') ∧
      IsFault "507f1f77bcf86cd7994390é".toList (.length 23) ∧
      read "507f1f77bcf86cd79943901é".toList = .error (.length 24) ∧
      ¬IsFault "507f1f77bcf86cd79943901é".toList (.length 24) ∧
      IsFault "507f1f77bcf86cd79943901é".toList (.nonHex 'é') := by
  decide

end ObjectId

end RecordFilter.Identifier
