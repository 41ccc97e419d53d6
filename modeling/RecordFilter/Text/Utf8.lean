/-!
# Bytes and text

The bytes of a text in UTF-8, and the text that any bytes give when each longest broken piece of a
character is read as one replacement character.
-/

namespace RecordFilter.Text

/-- The bytes of the text in UTF-8. -/
def utf8 (s : List Char) : List UInt8 := s.flatMap String.utf8EncodeChar

/-- A character of which some bytes are still to come. -/
structure Partial where
  /-- The bits read so far. -/
  bits : Nat
  /-- How many more bytes follow. -/
  missing : Nat
  /-- The least and the greatest byte that may come next. -/
  low : Nat
  high : Nat

/-- What a byte between two characters starts. -/
inductive Lead
  | whole (c : Char)
  | part (p : Partial)
  | broken

def lead (b : Nat) : Lead :=
  if b < 0x80 then .whole (Char.ofNat b)
  else if b < 0xC2 then .broken
  else if b < 0xE0 then .part ⟨b - 0xC0, 1, 0x80, 0xBF⟩
  else if b == 0xE0 then .part ⟨0, 2, 0xA0, 0xBF⟩
  else if b == 0xED then .part ⟨0xD, 2, 0x80, 0x9F⟩
  else if b < 0xF0 then .part ⟨b - 0xE0, 2, 0x80, 0xBF⟩
  else if b == 0xF0 then .part ⟨0, 3, 0x90, 0xBF⟩
  else if b < 0xF4 then .part ⟨b - 0xF0, 3, 0x80, 0xBF⟩
  else if b == 0xF4 then .part ⟨4, 3, 0x80, 0x8F⟩
  else .broken

def replacement : Char := Char.ofNat 0xFFFD

/-- Starts a character at `b` and goes on with `rest`. -/
def beginAt (b : Nat) (rest : Option Partial → List Char) : List Char :=
  match lead b with
  | .whole c => c :: rest none
  | .part p => rest (some p)
  | .broken => replacement :: rest none

/-- Reads on, possibly in the middle of a character. -/
def readableFrom : Option Partial → List UInt8 → List Char
  | none, [] => []
  | some _, [] => [replacement]
  | none, b :: rest => beginAt b.toNat fun state => readableFrom state rest
  | some p, b :: rest =>
    if p.low ≤ b.toNat ∧ b.toNat ≤ p.high then
      let bits := p.bits * 64 + (b.toNat - 0x80)
      if p.missing ≤ 1 then Char.ofNat bits :: readableFrom none rest
      else readableFrom (some ⟨bits, p.missing - 1, 0x80, 0xBF⟩) rest
    else
      replacement :: beginAt b.toNat fun state => readableFrom state rest

/-- The text of the bytes, broken pieces replaced. -/
def readable (bytes : List UInt8) : List Char := readableFrom none bytes

example : readable [0x61, 0xE2, 0x82, 0xAC, 0xE2, 0x82, 0x62] =
    ['a', '€', replacement, 'b'] := by decide

end RecordFilter.Text
