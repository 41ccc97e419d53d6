import RecordFilter.Proofs.Text.Utf8

/-!
# Cutting a text at its bytes

Positions in a text count the bytes in front of them. A text is cut between two of its characters
only, and what is between two positions is found by the characters in front of them.
-/

namespace RecordFilter.Text

/-- How many bytes the text has. -/
def byteCount (s : List Char) : Nat := (utf8 s).length

/-- The text in front of byte `n` and from it on, if that is not inside of a character or past the
end. -/
def cutAt? (n : Nat) : List Char → Option (List Char × List Char)
  | [] => if n = 0 then some ([], []) else none
  | c :: rest =>
    if n = 0 then some ([], c :: rest)
    else if n < byteCount [c] then none
    else (cutAt? (n - byteCount [c]) rest).map fun (front, back) => (c :: front, back)

/-- The text from byte `start` up to byte `stop`. -/
def slice? (start stop : Nat) (s : List Char) : Option (List Char) := do
  let (_, back) ← cutAt? start s
  if stop < start then none
  else
    let (middle, _) ← cutAt? (stop - start) back
    return middle

theorem byteCount_append (a b : List Char) : byteCount (a ++ b) = byteCount a + byteCount b := by
  rw [byteCount, utf8_append, List.length_append]
  rfl

theorem byteCount_of_ascii {s : List Char} (h : ∀ c ∈ s, c.toNat < 0x80) :
    byteCount s = s.length := by
  rw [byteCount, utf8_of_ascii h, List.length_map]

theorem byteCount_pos (c : Char) : 0 < byteCount [c] := by
  rw [byteCount, utf8_cons, List.length_append, String.length_utf8EncodeChar]
  exact Nat.lt_of_lt_of_le c.utf8Size_pos (Nat.le_add_right _ _)

theorem length_le_byteCount (s : List Char) : s.length ≤ byteCount s := by
  induction s with
  | nil => exact Nat.le_refl 0
  | cons c s ih =>
    have hpos := byteCount_pos c
    rw [← List.singleton_append, byteCount_append, List.length_append, List.length_singleton]
    omega

theorem ascii_of_byteCount_eq {s : List Char} (h : byteCount s = s.length) :
    ∀ c ∈ s, c.toNat < 0x80 := by
  induction s with
  | nil => simp
  | cons c s ih =>
    have hpos := byteCount_pos c
    have hle := length_le_byteCount s
    rw [← List.singleton_append, byteCount_append, List.length_append, List.length_singleton] at h
    have hsize : c.utf8Size = 1 := by
      rw [← String.length_utf8EncodeChar]
      have hone : byteCount [c] = 1 := by omega
      simpa [byteCount, utf8] using hone
    have hcode : c.toNat ≤ 0x7F := UInt32.le_iff_toNat_le.mp (Char.utf8Size_eq_one_iff.mp hsize)
    exact List.forall_mem_cons.mpr ⟨by omega, ih (by omega)⟩

theorem cutAt?_append (front back : List Char) :
    cutAt? (byteCount front) (front ++ back) = some (front, back) := by
  induction front with
  | nil => cases back <;> rfl
  | cons c front ih =>
    have hpos := byteCount_pos c
    have hcount : byteCount (c :: front) = byteCount [c] + byteCount front :=
      byteCount_append [c] front
    rw [List.cons_append, cutAt?, if_neg (by omega), if_neg (by omega), hcount,
      Nat.add_sub_cancel_left, ih]
    rfl

theorem slice?_append (front middle back : List Char) :
    slice? (byteCount front) (byteCount (front ++ middle)) (front ++ middle ++ back) =
      some middle := by
  have hle : byteCount front ≤ byteCount (front ++ middle) := by
    rw [byteCount_append]
    exact Nat.le_add_right _ _
  have hlength : byteCount (front ++ middle) - byteCount front = byteCount middle := by
    rw [byteCount_append, Nat.add_sub_cancel_left]
  rw [slice?, List.append_assoc, cutAt?_append]
  simp only [Option.bind_eq_bind, Option.bind_some, if_neg (Nat.not_lt.mpr hle), hlength,
    cutAt?_append]
  rfl

example : cutAt? 1 ['é', 's'] = none ∧ slice? 2 3 ['é', 's'] = some ['s'] := by decide

end RecordFilter.Text
