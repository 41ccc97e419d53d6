import RecordFilter.Text.Utf8

/-!
# Text that is read back from its bytes

The bytes of a text in UTF-8 are read as that text. A character below 128 is its own byte. The bytes
of one text stand in those of another only where its characters do.
-/

namespace RecordFilter.Text

theorem utf8_cons (c : Char) (s : List Char) : utf8 (c :: s) = String.utf8EncodeChar c ++ utf8 s :=
  rfl

theorem utf8EncodeChar_of_ascii {c : Char} (h : c.toNat < 0x80) :
    String.utf8EncodeChar c = [UInt8.ofNat c.toNat] :=
  if_pos (Nat.le_of_lt_succ h)

theorem utf8_of_ascii {s : List Char} (h : ∀ c ∈ s, c.toNat < 0x80) :
    utf8 s = s.map fun c => UInt8.ofNat c.toNat := by
  induction s with
  | nil => rfl
  | cons c s ih =>
    obtain ⟨hc, hs⟩ := List.forall_mem_cons.mp h
    rw [utf8_cons, utf8EncodeChar_of_ascii hc, ih hs]
    rfl

/-! ## Reading the bytes of one character -/

theorem toNat_ofNat {b : Nat} (hb : b < 256) : (UInt8.ofNat b).toNat = b := by
  rw [UInt8.toNat_ofNat']
  omega

theorem readableFrom_lead {b : Nat} (hb : b < 256) {p : Partial} (h : lead b = .part p)
    (rest : List UInt8) :
    readableFrom none (UInt8.ofNat b :: rest) = readableFrom (some p) rest := by
  rw [readableFrom, beginAt, toNat_ofNat hb, h]

variable {bits low high x : Nat}

theorem readableFrom_next (hx : x < 64) (hlow : low ≤ x + 128) (hhigh : x + 128 ≤ high)
    (missing : Nat) (rest : List UInt8) :
    readableFrom (some ⟨bits, missing + 2, low, high⟩) (UInt8.ofNat (x + 128) :: rest) =
      readableFrom (some ⟨bits * 64 + x, missing + 1, 0x80, 0xBF⟩) rest := by
  have hbits : x + 128 - 0x80 = x := by omega
  rw [readableFrom, toNat_ofNat (by omega), if_pos ⟨hlow, hhigh⟩, hbits]
  exact if_neg (by simp)

theorem readableFrom_last (hx : x < 64) (hlow : low ≤ x + 128) (hhigh : x + 128 ≤ high)
    (rest : List UInt8) :
    readableFrom (some ⟨bits, 1, low, high⟩) (UInt8.ofNat (x + 128) :: rest) =
      Char.ofNat (bits * 64 + x) :: readableFrom none rest := by
  have hbits : x + 128 - 0x80 = x := by omega
  rw [readableFrom, toNat_ofNat (by omega), if_pos ⟨hlow, hhigh⟩, hbits]
  exact if_pos (Nat.le_refl 1)

theorem lead_two {b : Nat} (h : 0xC2 ≤ b) (h' : b < 0xE0) :
    lead b = .part ⟨b - 0xC0, 1, 0x80, 0xBF⟩ := by
  rw [lead, if_neg (by omega), if_neg (by omega), if_pos h']

/-- A first byte of three: its next byte leaves out the codes that two bytes have room for, and the
surrogates. -/
theorem lead_three {b : Nat} (h : 0xE0 ≤ b) (h' : b < 0xF0) :
    lead b = .part ⟨b - 0xE0, 2, if b = 0xE0 then 0xA0 else 0x80,
      if b = 0xED then 0x9F else 0xBF⟩ := by
  rw [lead, if_neg (by omega), if_neg (by omega), if_neg (by omega)]
  by_cases hlow : b = 0xE0
  · subst hlow
    rfl
  · by_cases hhigh : b = 0xED
    · subst hhigh
      rfl
    · simp [hlow, hhigh, h']

/-- A first byte of four: its next byte leaves out the codes that three bytes have room for, and
what is behind the last character. -/
theorem lead_four {b : Nat} (h : 0xF0 ≤ b) (h' : b ≤ 0xF4) :
    lead b = .part ⟨b - 0xF0, 3, if b = 0xF0 then 0x90 else 0x80,
      if b = 0xF4 then 0x8F else 0xBF⟩ := by
  obtain rfl | rfl | rfl | rfl | rfl : b = 0xF0 ∨ b = 0xF1 ∨ b = 0xF2 ∨ b = 0xF3 ∨ b = 0xF4 := by
    omega
  all_goals rfl

theorem readableFrom_utf8EncodeChar (c : Char) (rest : List UInt8) :
    readableFrom none (String.utf8EncodeChar c ++ rest) = c :: readableFrom none rest := by
  have hchar : ∀ n, n = c.toNat → Char.ofNat n = c := by
    rintro n rfl
    exact Char.ofNat_toNat c
  have hvalid : c.toNat < 0xD800 ∨ 0xDFFF < c.toNat ∧ c.toNat < 0x110000 := c.valid
  rw [String.utf8EncodeChar, show c.val.toNat = c.toNat from rfl]
  generalize c.toNat = v at hchar hvalid
  -- One byte, two, three or four, by the size of the code.
  split
  · rename_i h1
    have hlead : lead v = .whole c := by rw [lead, if_pos (by omega), hchar v rfl]
    rw [List.singleton_append, readableFrom, beginAt, toNat_ofNat (by omega), hlead]
  · split
    · have hlead := lead_two (b := v / 64 % 32 + 192) (by omega) (by omega)
      simp only [List.cons_append, List.nil_append]
      rw [readableFrom_lead (by omega) hlead, readableFrom_last (by omega) (by omega) (by omega),
        hchar _ (by omega)]
    · split
      · have hlead := lead_three (b := v / 4096 % 16 + 224) (by omega) (by omega)
        simp only [List.cons_append, List.nil_append]
        rw [readableFrom_lead (by omega) hlead,
          readableFrom_next (by omega) (by split <;> omega) (by split <;> omega),
          readableFrom_last (by omega) (by omega) (by omega), hchar _ (by omega)]
      · have hlead := lead_four (b := v / 262144 % 8 + 240) (by omega) (by omega)
        simp only [List.cons_append, List.nil_append]
        rw [readableFrom_lead (by omega) hlead,
          readableFrom_next (by omega) (by split <;> omega) (by split <;> omega),
          readableFrom_next (by omega) (by omega) (by omega),
          readableFrom_last (by omega) (by omega) (by omega), hchar _ (by omega)]

theorem readable_utf8 (s : List Char) : readable (utf8 s) = s := by
  unfold readable
  induction s with
  | nil => rfl
  | cons c s ih => rw [utf8_cons, readableFrom_utf8EncodeChar, ih]

/-! ## Where characters begin -/

theorem utf8_append (a b : List Char) : utf8 (a ++ b) = utf8 a ++ utf8 b := List.flatMap_append

theorem readable_utf8_append (s : List Char) (rest : List UInt8) :
    readable (utf8 s ++ rest) = s ++ readable rest := by
  unfold readable
  induction s with
  | nil => rfl
  | cons c s ih =>
    rw [utf8_cons, List.append_assoc, readableFrom_utf8EncodeChar, ih, List.cons_append]

theorem utf8_inj {a b : List Char} : utf8 a = utf8 b ↔ a = b := by
  refine ⟨fun h => ?_, congrArg utf8⟩
  rw [← readable_utf8 a, h, readable_utf8]

theorem utf8_prefix_iff {a s : List Char} : utf8 a <+: utf8 s ↔ a <+: s := by
  constructor
  · rintro ⟨rest, hrest⟩
    have hread := congrArg readable hrest
    rw [readable_utf8_append, readable_utf8] at hread
    exact ⟨readable rest, hread⟩
  · rintro ⟨rest, rfl⟩
    exact ⟨utf8 rest, (utf8_append a rest).symm⟩

theorem exists_firstByte {s : List Char} (h : s ≠ []) :
    ∃ b rest, utf8 s = b :: rest ∧ b.IsUTF8FirstByte := by
  obtain ⟨c, s, rfl⟩ := List.exists_cons_of_ne_nil h
  have hfirst : ∀ b ∈ (String.utf8EncodeChar c).head?, b.IsUTF8FirstByte := by
    intro b hb
    rw [List.head?_eq_getElem?, Option.mem_def, List.getElem?_eq_some_iff] at hb
    obtain ⟨_, rfl⟩ := hb
    exact UInt8.isUTF8FirstByte_getElem_utf8EncodeChar.mpr rfl
  obtain ⟨b, rest, hbytes⟩ := List.exists_cons_of_ne_nil (String.utf8EncodeChar_ne_nil (c := c))
  refine ⟨b, rest ++ utf8 s, ?_, hfirst b ?_⟩
  · rw [utf8_cons, hbytes, List.cons_append]
  · rw [hbytes]
    rfl

theorem eq_nil_of_firstByte {c : Char} {front rest : List UInt8} {b : UInt8}
    (h : String.utf8EncodeChar c = front ++ b :: rest) (hb : b.IsUTF8FirstByte) : front = [] := by
  have hlength : front.length < (String.utf8EncodeChar c).length := by simp [h]
  have hget : (String.utf8EncodeChar c)[front.length] = b := by simp [h]
  rw [← hget, UInt8.isUTF8FirstByte_getElem_utf8EncodeChar] at hb
  exact List.eq_nil_of_length_eq_zero hb

theorem exists_utf8_eq_front {s : List Char} {front rest : List UInt8} {b : UInt8}
    (h : utf8 s = front ++ b :: rest) (hb : b.IsUTF8FirstByte) :
    ∃ a t, s = a ++ t ∧ utf8 a = front ∧ utf8 t = b :: rest := by
  induction s generalizing front with
  | nil => exact absurd h (by simp [utf8])
  | cons c s ih =>
    rw [utf8_cons] at h
    obtain ⟨inner, rfl, hinner⟩ | ⟨after, hc, hafter⟩ := List.append_eq_append_iff.mp h
    · obtain ⟨a, t, rfl, rfl, ht⟩ := ih hinner
      exact ⟨c :: a, t, rfl, utf8_cons c a, ht⟩
    · cases after with
      | nil => exact ⟨[c], s, rfl, by simpa [utf8] using hc, hafter.symm⟩
      | cons x after =>
        obtain ⟨rfl, rfl⟩ := List.cons.inj hafter
        obtain rfl := eq_nil_of_firstByte hc hb
        exact ⟨[], c :: s, rfl, rfl, by rw [utf8_cons, hc]; rfl⟩

/-- The bytes of a text stand in the bytes of another only where its characters do. -/
theorem exists_eq_append_of_utf8 {s l : List Char} {front rest : List UInt8} (hl : l ≠ [])
    (h : utf8 s = front ++ (utf8 l ++ rest)) :
    ∃ a t, s = a ++ (l ++ t) ∧ utf8 a = front ∧ utf8 t = rest := by
  obtain ⟨b, bytes, hbytes, hb⟩ := exists_firstByte hl
  have hfirst : utf8 s = front ++ b :: (bytes ++ rest) := by rw [h, hbytes, List.cons_append]
  obtain ⟨a, t, rfl, rfl, ht⟩ := exists_utf8_eq_front hfirst hb
  rw [← List.cons_append, ← hbytes] at ht
  obtain ⟨t, rfl⟩ := utf8_prefix_iff.mp ⟨rest, ht.symm⟩
  rw [utf8_append, List.append_cancel_left_eq] at ht
  exact ⟨a, t, rfl, rfl, ht⟩

theorem utf8_suffix_iff {a s : List Char} : utf8 a <:+ utf8 s ↔ a <:+ s := by
  constructor
  · rintro ⟨front, hfront⟩
    by_cases ha : a = []
    · exact ha ▸ List.nil_suffix
    · rw [← List.append_nil (utf8 a)] at hfront
      obtain ⟨b, t, rfl, -, ht⟩ := exists_eq_append_of_utf8 ha hfront.symm
      obtain rfl : t = [] := utf8_inj.mp ht
      exact ⟨b, by rw [List.append_nil]⟩
  · rintro ⟨front, rfl⟩
    exact ⟨utf8 front, (utf8_append front a).symm⟩

end RecordFilter.Text
