import Mathlib.Data.List.TakeWhile
import RecordFilter.Text.Blank

/-!
# Text without blanks around it

Taking the blanks away leaves text with none at its ends, and such text is left as it is.
-/

namespace RecordFilter.Text

/-- Neither the first nor the last character is blank. -/
structure Tidy (s : List Char) : Prop where
  head : ∀ c ∈ s.head?, isBlank c = false
  last : ∀ c ∈ s.getLast?, isBlank c = false

theorem tidy_nil : Tidy [] := ⟨nofun, nofun⟩

theorem tidy_of_forall {s : List Char} (h : ∀ c ∈ s, isBlank c = false) : Tidy s :=
  ⟨fun c hc => h c (List.mem_of_mem_head? hc), fun c hc => h c (List.mem_of_mem_getLast? hc)⟩

/-! ## Trimming -/

theorem head_trimStart (s : List Char) : ∀ c ∈ (trimStart s).head?, isBlank c = false := by
  intro c hc
  have hhead := List.head?_dropWhile_not isBlank s
  rw [show s.dropWhile isBlank = trimStart s from rfl, hc] at hhead
  exact hhead

theorem trimEnd_eq_reverse (s : List Char) : trimEnd s = (trimStart s.reverse).reverse := rfl

theorem trimEnd_prefix (s : List Char) : trimEnd s <+: s := by
  rw [← List.reverse_suffix, trimEnd_eq_reverse, List.reverse_reverse]
  exact List.dropWhile_suffix isBlank

theorem tidy_trimChars (s : List Char) : Tidy (trimChars s) where
  head := by
    intro c hc
    refine head_trimStart s c ?_
    obtain ⟨rest, hrest⟩ := trimEnd_prefix (trimStart s)
    rw [← hrest, List.head?_append, show (trimEnd (trimStart s)).head? = some c from hc]
    rfl
  last := by
    intro c hc
    rw [trimChars, trimEnd_eq_reverse, List.getLast?_reverse] at hc
    exact head_trimStart _ c hc

theorem Tidy.trimChars_eq {s : List Char} (h : Tidy s) : trimChars s = s := by
  have hstart : ∀ {l : List Char}, (∀ c ∈ l.head?, isBlank c = false) → trimStart l = l := by
    intro l hl
    cases l with
    | nil => rfl
    | cons c rest =>
      have hc : isBlank c = false := hl c rfl
      simp [trimStart, hc]
  have hlast : ∀ c ∈ s.reverse.head?, isBlank c = false := by
    rw [List.head?_reverse]
    exact h.last
  rw [trimChars, hstart h.head, trimEnd_eq_reverse, hstart hlast, List.reverse_reverse]

theorem mem_of_mem_trimChars {s : List Char} {c : Char} (h : c ∈ trimChars s) : c ∈ s := by
  rw [trimChars, trimEnd_eq_reverse, List.mem_reverse] at h
  have hend := (List.dropWhile_sublist isBlank).mem h
  exact (List.dropWhile_sublist isBlank).mem (List.mem_reverse.mp hend)

theorem trimChars_eq_nil_iff {s : List Char} :
    trimChars s = [] ↔ ∀ c ∈ s, isBlank c = true := by
  have hstart : ∀ {l : List Char}, trimStart l = [] ↔ ∀ c ∈ l, isBlank c = true :=
    List.dropWhile_eq_nil_iff
  constructor
  · intro h
    rw [trimChars, trimEnd_eq_reverse, List.reverse_eq_nil_iff, hstart] at h
    refine hstart.mp ?_
    cases hs : trimStart s with
    | nil => rfl
    | cons c rest =>
      have hhead : isBlank c = false := head_trimStart s c (by rw [hs]; rfl)
      rw [h c (by simp [hs])] at hhead
      cases hhead
  · intro h
    rw [trimChars, hstart.mpr h]
    rfl

/-! ## Joined text -/

theorem Tidy.append_cons {a b : List Char} {c : Char} (ha : Tidy a) (hc : isBlank c = false)
    (hb : Tidy b) : Tidy (a ++ c :: b) where
  head := by
    cases a with
    | nil => exact fun d hd => Option.some.inj hd ▸ hc
    | cons x a => exact ha.head
  last := by
    intro d hd
    rw [List.getLast?_append, List.getLast?_cons] at hd
    cases hb' : b.getLast? with
    | none =>
      rw [hb'] at hd
      exact Option.some.inj hd ▸ hc
    | some x =>
      rw [hb'] at hd
      exact hb.last d (hb'.trans hd)

theorem tidy_intercalate {c : Char} (hc : isBlank c = false) {parts : List (List Char)}
    (h : ∀ part ∈ parts, Tidy part) : Tidy (List.intercalate [c] parts) := by
  induction parts with
  | nil => exact tidy_nil
  | cons part rest ih =>
    obtain ⟨hpart, hrest⟩ := List.forall_mem_cons.mp h
    cases rest with
    | nil =>
      rw [List.intercalate_singleton]
      exact hpart
    | cons next rest =>
      rw [List.intercalate_cons_cons, List.append_assoc]
      exact hpart.append_cons hc (ih hrest)

end RecordFilter.Text
