import RecordFilter.Proofs.Calendar.AmountGrammar
import RecordFilter.Proofs.Text.Cut

/-!
# Components found at byte positions

The scan for components as a machine does it. It goes over the characters with their positions, and
cuts a number out of the text between the position behind the last unit and that of the next one. It
never cuts a character in two and never leaves the text, and finds the components of the reader.
-/

namespace RecordFilter.Calendar

open RecordFilter.Text RecordFilter.Number

/-- Why a machine stops: the text is refused, an integer leaves its type, or a character is cut in
two. -/
inductive Stop
  | refused (fault : AmountFault)
  | overflow
  | split
  deriving DecidableEq, Repr

namespace Machine

/-! ## Steps that may stop -/

/-- The integer, which has to be one of so many bits. -/
def checked (bits : Nat) (n : Int) : Except Stop Int :=
  if (IntegerRange.signed bits).Holds n then .ok n else .error .overflow

/-- The text from byte `start` up to byte `stop`. -/
def slice (s : List Char) (start stop : Nat) : Except Stop (List Char) :=
  match slice? start stop s with
  | some part => .ok part
  | none => .error .split

/-- The position one byte on, which has to be a position of the text. -/
def next (s : List Char) (position : Nat) : Except Stop Nat :=
  if position < byteCount s then .ok (position + 1) else .error .overflow

theorem checked_eq {bits : Nat} {n : Int} (h : (IntegerRange.signed bits).Holds n) :
    checked bits n = .ok n := if_pos h

theorem slice_eq (front middle back : List Char) :
    slice (front ++ middle ++ back) (byteCount front) (byteCount (front ++ middle)) =
      .ok middle := by
  rw [slice, slice?_append]

theorem next_eq (front : List Char) {c : Char} (back : List Char) (hc : c.toNat < 0x80) :
    next (front ++ c :: back) (byteCount front) = .ok (byteCount (front ++ [c])) := by
  have hone : byteCount [c] = 1 := byteCount_of_ascii (List.forall_mem_singleton.mpr hc)
  have hback : byteCount (c :: back) = 1 + byteCount back :=
    (byteCount_append [c] back).trans (congrArg (· + _) hone)
  rw [next, if_pos, byteCount_append, hone]
  rw [byteCount_append, hback]
  omega

theorem toNat_lt_of_isAlpha {c : Char} (h : c.isAlpha = true) : c.toNat < 0x80 := by
  rcases Bool.or_eq_true_iff.mp h with h | h
  · have h90 := (of_decide_eq_true h).2
    have hle : c.toNat ≤ 90 := UInt32.le_iff_toNat_le.mp h90
    omega
  · have h122 := of_decide_eq_true (Bool.and_eq_true_iff.mp h).2
    have hle : c.toNat ≤ 122 := UInt32.le_iff_toNat_le.mp h122
    omega

/-! ## The scan -/

/-- Where the number of the next component starts, the rank of the unit that came last, and the
components so far. -/
structure Scan where
  start : Nat
  last : Option Nat
  found : List Component

namespace Scan

/-- Goes past one character. -/
def step (units s : List Char) (scan : Scan) (position : Nat) (c : Char) : Except Stop Scan :=
  if c.isAlpha then
    match units.idxOf? c.toUpper with
    | none => .error (.refused (.unexpected c))
    | some rank =>
      if scan.last.any (rank ≤ ·) then .error (.refused (.outOfOrder c))
      else do
        let number ← slice s scan.start position
        if number.isEmpty then .error (.refused (.noValue c))
        else
          let start ← next s position
          return ⟨start, some rank, scan.found ++ [⟨number, c.toUpper⟩]⟩
  else return scan

def run (units s : List Char) (scan : Scan) (position : Nat) : List Char → Except Stop Scan
  | [] => .ok scan
  | c :: rest => do
    let scan ← scan.step units s position c
    scan.run units s (position + byteCount [c]) rest

/-- The components, unless something is left behind the last unit. -/
def finish (s : List Char) (scan : Scan) : Except Stop (List Component) :=
  if scan.start < byteCount s then do
    let rest ← slice s scan.start (byteCount s)
    .error (.refused (.dangling rest))
  else .ok scan.found

end Scan

def components (units s : List Char) : Except Stop (List Component) := do
  let scan ← Scan.run units s ⟨0, none, []⟩ 0 s
  scan.finish s

/-! ## What the scan finds -/

namespace Scan

/-- How many units may not come any more. -/
def used (scan : Scan) : Nat := scan.last.elim 0 (· + 1)

/-- The scan of a text is past the front, where it has components, and past a number. -/
structure IsAt (front number : List Char) (scan : Scan) (position : Nat) : Prop where
  start : scan.start = byteCount front
  position : position = byteCount (front ++ number)

variable {units front number : List Char} {scan : Scan} {position : Nat}

theorem any_last_iff (rank : Nat) : scan.last.any (rank ≤ ·) = true ↔ rank < scan.used := by
  unfold used
  cases scan.last with
  | none => simp
  | some last =>
    simp only [Option.any_some, Option.elim_some, decide_eq_true_eq]
    exact Nat.lt_succ_iff.symm

theorem step_letter (h : IsAt front number scan position) {c : Char} (hc : c.isAlpha = true)
    (rest : List Char) :
    scan.step units (front ++ number ++ c :: rest) position c =
      match units.idxOf? c.toUpper with
      | none => .error (.refused (.unexpected c))
      | some rank =>
        if rank < scan.used then .error (.refused (.outOfOrder c))
        else if number.isEmpty then .error (.refused (.noValue c))
        else .ok ⟨byteCount (front ++ number ++ [c]), some rank,
          scan.found ++ [⟨number, c.toUpper⟩]⟩ := by
  have hslice : slice (front ++ number ++ c :: rest) scan.start position = .ok number := by
    rw [h.start, h.position, slice_eq]
  have hnext : next (front ++ number ++ c :: rest) position =
      .ok (byteCount (front ++ number ++ [c])) := by
    rw [h.position, next_eq _ _ (toNat_lt_of_isAlpha hc)]
  rw [step, if_pos hc]
  simp only [any_last_iff, hslice, hnext]
  rfl

theorem step_other {s : List Char} {c : Char} (hc : ¬c.isAlpha = true) :
    scan.step units s position c = .ok scan := by
  rw [step, if_neg hc]
  rfl

theorem finish_eq (h : IsAt front number scan position) :
    finish (front ++ number) scan =
      if number.isEmpty then .ok scan.found else .error (.refused (.dangling number)) := by
  have hend := slice_eq front number []
  rw [List.append_nil] at hend
  simp only [finish, h.start, hend]
  cases number with
  | nil => simp
  | cons c number =>
    have hlt : byteCount front < byteCount (front ++ c :: number) := by
      have hlength := length_le_byteCount (c :: number)
      rw [List.length_cons] at hlength
      rw [byteCount_append]
      omega
    rw [if_pos hlt]
    rfl

theorem run_eq (h : IsAt front number scan position) (rest : List Char) :
    (scan.run units (front ++ number ++ rest) position rest).bind
        (finish (front ++ number ++ rest)) =
      ((readComponents units scan.used number rest).map (scan.found ++ ·)).mapError
        Stop.refused := by
  -- What is behind moves in front: into the number up to a unit, and with the unit past it.
  induction rest generalizing front number scan position with
  | nil =>
    simp only [run, readComponents, List.append_nil, Except.bind, finish_eq h]
    cases number <;> simp [Except.map, Except.mapError]
  | cons c rest ih =>
    have hposition : position + byteCount [c] = byteCount (front ++ number ++ [c]) := by
      rw [byteCount_append, h.position]
    rw [run, readComponents]
    by_cases hc : c.isAlpha = true
    · rw [step_letter h hc, if_pos hc]
      cases units.idxOf? c.toUpper with
      | none => rfl
      | some rank =>
        dsimp only
        split
        · rfl
        · split
          · rfl
          · have hat : IsAt (front ++ number ++ [c]) [] ⟨byteCount (front ++ number ++ [c]),
                some rank, scan.found ++ [⟨number, c.toUpper⟩]⟩ (position + byteCount [c]) :=
              ⟨rfl, by rw [hposition, List.append_nil]⟩
            have hrun := ih hat
            simp only [List.append_assoc, List.singleton_append] at hrun ⊢
            refine hrun.trans ?_
            change ((readComponents units (rank + 1) [] rest).map _).mapError _ = _
            cases readComponents units (rank + 1) [] rest with
            | error fault => rfl
            | ok cs => rfl
    · have hat : IsAt front (number ++ [c]) scan (position + byteCount [c]) :=
        ⟨h.start, by rw [hposition, List.append_assoc]⟩
      have hrun := ih hat
      simp only [List.append_assoc, List.singleton_append] at hrun
      rw [step_other hc, if_neg hc, ← hrun, List.append_assoc]
      rfl

end Scan

theorem components_eq (units s : List Char) :
    components units s = (Calendar.components units s).mapError Stop.refused := by
  have hat : Scan.IsAt [] [] ⟨0, none, []⟩ 0 := ⟨rfl, rfl⟩
  have hrun : components units s = _ := Scan.run_eq hat s
  rw [hrun]
  change ((Calendar.components units s).map ([] ++ ·)).mapError _ = _
  cases Calendar.components units s with
  | error fault => rfl
  | ok cs => rfl

/-! ## The designator -/

/-- Whether the text starts with a minus sign, which its first byte tells, and the text behind a
sign. -/
def splitSign (s : List Char) : Except Stop (Bool × List Char) :=
  if (utf8 s).head? = some 0x2D then (slice s 1 (byteCount s)).map (true, ·)
  else if (utf8 s).head? = some 0x2B then (slice s 1 (byteCount s)).map (false, ·)
  else .ok (false, s)

/-- Whether the amount is negative, and what follows the letter `P`. -/
def splitDesignator (s : List Char) : Except Stop (Bool × List Char) := do
  let (negative, rest) ← splitSign s
  match rest with
  | c :: body =>
    if c = 'P' ∨ c = 'p' then .ok (negative, body) else .error (.refused .missingDesignator)
  | [] => .error (.refused .missingDesignator)

theorem head?_eq_iff_starts {α : Type} {l : List α} {a : α} : l.head? = some a ↔ [a] <+: l := by
  cases l with
  | nil => simp
  | cons b l => simp [List.cons_prefix_cons, eq_comm]

theorem head?_utf8_eq_iff {s : List Char} {c : Char} (hc : c.toNat < 0x80) :
    (utf8 s).head? = some (UInt8.ofNat c.toNat) ↔ s.head? = some c := by
  have hbyte : utf8 [c] = [UInt8.ofNat c.toNat] :=
    utf8_of_ascii (List.forall_mem_singleton.mpr hc)
  rw [head?_eq_iff_starts, head?_eq_iff_starts, ← hbyte, utf8_prefix_iff]

theorem slice_tail {c : Char} (hc : c.toNat < 0x80) (t : List Char) :
    slice (c :: t) 1 (byteCount (c :: t)) = .ok t := by
  have hone : byteCount [c] = 1 := byteCount_of_ascii (List.forall_mem_singleton.mpr hc)
  have hslice := slice_eq [c] t []
  rwa [hone, List.append_nil, List.singleton_append] at hslice

theorem splitSign_eq (s : List Char) :
    splitSign s = .ok (match s with
      | '-' :: t => (true, t)
      | '+' :: t => (false, t)
      | t => (false, t)) := by
  have hminus : (utf8 s).head? = some 0x2D ↔ s.head? = some '-' :=
    head?_utf8_eq_iff (c := '-') (by decide)
  have hplus : (utf8 s).head? = some 0x2B ↔ s.head? = some '+' :=
    head?_utf8_eq_iff (c := '+') (by decide)
  rw [splitSign, if_congr hminus rfl rfl, if_congr hplus rfl rfl]
  split
  · rename_i hhead
    obtain ⟨t, rfl⟩ := List.head?_eq_some_iff.mp hhead
    rw [slice_tail (by decide)]
    rfl
  · rename_i hminus
    split
    · rename_i hhead
      obtain ⟨t, rfl⟩ := List.head?_eq_some_iff.mp hhead
      rw [slice_tail (by decide)]
      rfl
    · rename_i hplus
      split
      · exact absurd rfl hminus
      · exact absurd rfl hplus
      · rfl

theorem splitDesignator_eq (s : List Char) :
    splitDesignator s = (Calendar.splitDesignator s).mapError Stop.refused := by
  unfold Calendar.splitDesignator
  split
  rename_i negative rest hsign
  have hsplit : splitSign s = .ok (negative, rest) :=
    (splitSign_eq s).trans (congrArg Except.ok hsign)
  rw [splitDesignator, hsplit]
  simp only [bind, Except.bind]
  cases rest with
  | nil => rfl
  | cons c body =>
    dsimp only
    split <;> rfl

end Machine

end RecordFilter.Calendar
