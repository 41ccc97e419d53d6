import RecordFilter.Proofs.Identifier.Words

/-!
# Object identifiers in twelve bytes

A machine keeps an object identifier in twelve bytes, two digits in each. It fills them from the
bytes of a text place by place and writes them byte by byte. It never looks past the end of the
text, and gives the identifier and the text that the digits give.
-/

namespace RecordFilter.Identifier.ObjectId

open RecordFilter.Text

/-! ## Filling the bytes -/

/-- Why the filling stops: the text is refused, or there is no byte at a place. -/
inductive Stop
  | refused (fault : ObjectIdFault)
  | noByte
  deriving DecidableEq, Repr

/-- The value of a byte that is a hexadecimal digit of ASCII. -/
def nibble (b : UInt8) : Except ObjectIdFault UInt8 :=
  if 0x30 ≤ b ∧ b ≤ 0x39 then .ok (b - 0x30)
  else if 0x61 ≤ b ∧ b ≤ 0x66 then .ok (b - 0x61 + 10)
  else if 0x41 ≤ b ∧ b ≤ 0x46 then .ok (b - 0x41 + 10)
  else .error (.nonHex (Char.ofNat b.toNat))

def nibbleAt (bytes : List UInt8) (i : Nat) : Except Stop UInt8 :=
  match bytes[i]? with
  | some b => (nibble b).mapError .refused
  | none => .error .noByte

def byteAt (bytes : List UInt8) (i : Nat) : Except Stop UInt8 := do
  let high ← nibbleAt bytes (i * 2)
  let low ← nibbleAt bytes (i * 2 + 1)
  return high <<< 4 ||| low

def fill (bytes : List UInt8) (count : Nat) : Except Stop (List UInt8) :=
  (List.range count).mapM (byteAt bytes)

def readPacked (s : List Char) : Except Stop (List UInt8) :=
  if (utf8 s).length ≠ 24 then .error (.refused (.length s.length)) else fill (utf8 s) 12

/-- Two digits to a byte. -/
def pack : List (Fin 16) → List UInt8
  | high :: low :: rest => (UInt8.ofNat high <<< 4 ||| UInt8.ofNat low) :: pack rest
  | _ => []

def bytes (id : ObjectId) : List UInt8 := pack id.digits

/-! ## Two at a time -/

theorem exists_pair {α : Type} {count : Nat} {l : List α} (h : l.length = (count + 1) * 2) :
    ∃ a b rest, l = a :: b :: rest ∧ rest.length = count * 2 := by
  obtain ⟨a, l, rfl⟩ := List.exists_cons_of_length_pos (by omega : 0 < l.length)
  rw [List.length_cons] at h
  obtain ⟨b, rest, rfl⟩ := List.exists_cons_of_length_pos (by omega : 0 < l.length)
  rw [List.length_cons] at h
  exact ⟨a, b, rest, rfl, by omega⟩

/-! ## What is filled -/

theorem forall_byte {P : UInt8 → Prop} (h : ∀ n < 256, P (.ofNat n)) (b : UInt8) : P b := by
  have hcode := h b.toNat b.toNat_lt
  rwa [UInt8.ofNat_toNat] at hcode

theorem nibble_eq (b : UInt8) :
    nibble b = match hexDigit? (Char.ofNat b.toNat) with
      | some d => .ok (.ofNat d.val)
      | none => .error (.nonHex (Char.ofNat b.toNat)) := by
  refine @forall_byte (fun b => nibble b = match hexDigit? (Char.ofNat b.toNat) with
      | some d => .ok (.ofNat d.val)
      | none => .error (.nonHex (Char.ofNat b.toNat))) ?_ b
  decide +kernel

theorem fill_succ (b b' : UInt8) (rest : List UInt8) (count : Nat) :
    fill (b :: b' :: rest) (count + 1) = do
      let high ← (nibble b).mapError .refused
      let low ← (nibble b').mapError .refused
      let filled ← fill rest count
      return (high <<< 4 ||| low) :: filled := by
  have hshift : byteAt (b :: b' :: rest) ∘ Nat.succ = byteAt rest := by
    funext i
    have hhigh : (i + 1) * 2 = i * 2 + 1 + 1 := by omega
    simp only [Function.comp_apply, byteAt, nibbleAt, Nat.succ_eq_add_one, hhigh,
      List.getElem?_cons_succ]
  unfold fill
  rw [List.range_succ_eq_map, List.mapM_cons, List.mapM_map, hshift]
  simp only [byteAt, nibbleAt, Nat.zero_mul, Nat.zero_add, List.getElem?_cons_zero,
    List.getElem?_cons_succ, bind_assoc]
  rfl

theorem fill_eq {count : Nat} {bytes : List UInt8} (h : bytes.length = count * 2) :
    fill bytes count = ((readBytes bytes).mapError .refused).map pack := by
  induction count generalizing bytes with
  | zero =>
    obtain rfl := List.eq_nil_of_length_eq_zero (by omega : bytes.length = 0)
    rfl
  | succ count ih =>
    obtain ⟨b, b', rest, rfl, hrest⟩ := exists_pair h
    rw [fill_succ, ih hrest, nibble_eq, nibble_eq, readBytes, readBytes]
    cases hexDigit? (Char.ofNat b.toNat) with
    | none => rfl
    | some d =>
      cases hexDigit? (Char.ofNat b'.toNat) with
      | none => rfl
      | some d' => cases readBytes rest <;> rfl

theorem length_readBytes {bytes : List UInt8} {digits : List (Fin 16)}
    (h : readBytes bytes = .ok digits) : digits.length = bytes.length := by
  induction bytes generalizing digits with
  | nil =>
    cases h
    rfl
  | cons b bytes ih =>
    simp only [readBytes] at h
    split at h
    · cases h
    · obtain ⟨rest, hrest, rfl⟩ := map_eq_ok_iff.mp h
      simp [ih hrest]

theorem readPacked_eq (s : List Char) :
    readPacked s = ((read s).mapError .refused).map bytes := by
  unfold readPacked read
  by_cases hlength : (utf8 s).length = 24
  · rw [if_neg (not_not.mpr hlength), if_pos hlength, fill_eq hlength]
    cases hread : readBytes (utf8 s) with
    | error fault => rfl
    | ok digits =>
      have hdigits : digits.length = 24 := (length_readBytes hread).trans hlength
      simp only [bind, Except.bind, Word.ofList?, dif_pos hdigits]
      rfl
  · rw [if_pos hlength, if_neg hlength]
    rfl

/-! ## Writing the bytes -/

/-- A byte in hexadecimal digits, with zeros in front up to two. -/
def hexByte (b : UInt8) : List Char := (Nat.toDigits 16 b.toNat).leftpad 2 '0'

theorem hexByte_pack (high low : Fin 16) :
    hexByte (UInt8.ofNat high <<< 4 ||| UInt8.ofNat low) =
      [hexAlphabet.getD high.val ' ', hexAlphabet.getD low.val ' '] := by
  revert high low
  decide +kernel

theorem flatMap_pack {count : Nat} {digits : List (Fin 16)} (h : digits.length = count * 2) :
    (pack digits).flatMap hexByte = digits.map fun d => hexAlphabet.getD d.val ' ' := by
  induction count generalizing digits with
  | zero =>
    obtain rfl := List.eq_nil_of_length_eq_zero (by omega : digits.length = 0)
    rfl
  | succ count ih =>
    obtain ⟨high, low, rest, rfl, hrest⟩ := exists_pair h
    rw [pack, List.flatMap_cons, hexByte_pack, ih hrest]
    rfl

theorem flatMap_bytes (id : ObjectId) : id.bytes.flatMap hexByte = text id := by
  have hlength : id.digits.length = 12 * 2 := id.length_eq
  exact flatMap_pack hlength

end RecordFilter.Identifier.ObjectId
