import RecordFilter.Text.CaseTable

/-!
# Small letters

The text in small letters, by the full case mapping: one capital may give several characters, and a
capital sigma gives a final sigma at the end of a word. Comparisons that ignore case compare texts
after this mapping.
-/

namespace RecordFilter.Text

def isCased (c : Char) : Bool := inRanges casedRanges c.toNat

def isCaseIgnorable (c : Char) : Bool := inRanges ignorableRanges c.toNat

/-- The next character that is not looked through has case. -/
def meetsCased (s : List Char) : Bool :=
  match s.dropWhile isCaseIgnorable with
  | c :: _ => isCased c
  | [] => false

/-- A capital sigma ends a word: a letter comes before it and none after. `before` is reversed. -/
def endsWord (before after : List Char) : Bool := meetsCased before && !meetsCased after

/-- The small letters of one character outside the sigma rule. -/
def lowerChar (c : Char) : List Char :=
  if c.toNat < 0x80 then
    [if 0x41 ≤ c.toNat && c.toNat ≤ 0x5A then Char.ofNat (c.toNat + 32) else c]
  else if c.toNat == 0x130 then
    ['i', Char.ofNat 0x307]
  else
    match lowerRuns.find? (·.covers c.toNat) with
    | some r => [Char.ofNat (c.toNat + r.shift).toNat]
    | none => [c]

/-- Lowers the rest of a text of which `before` has been read, reversed. -/
def lowerFrom (before : List Char) : List Char → List Char
  | [] => []
  | c :: rest =>
    (if c.toNat == 0x3A3 then [if endsWord before rest then 'ς' else 'σ'] else lowerChar c) ++
      lowerFrom (c :: before) rest

/-- The text in small letters. -/
def lower (s : List Char) : List Char := lowerFrom [] s

@[simp] theorem lower_nil : lower [] = [] := rfl

theorem length_le_lowerFrom (before s : List Char) : s.length ≤ (lowerFrom before s).length := by
  induction s generalizing before with
  | nil => simp
  | cons c rest ih =>
    have hc : 1 ≤ (if c.toNat == 0x3A3 then [if endsWord before rest then 'ς' else 'σ']
        else lowerChar c).length := by
      unfold lowerChar
      repeat' split
      all_goals simp
    simp only [lowerFrom, List.length_append, List.length_cons]
    have := ih (c :: before)
    omega

theorem lower_eq_nil_iff (s : List Char) : lower s = [] ↔ s = [] := by
  constructor
  · intro h
    have := length_le_lowerFrom [] s
    rw [show lowerFrom [] s = [] from h] at this
    exact List.eq_nil_of_length_eq_zero (by simpa using this)
  · rintro rfl
    rfl

end RecordFilter.Text
