import RecordFilter.Schema.Path

/-!
# Selectors

A selector is its segments joined by dots. Splitting gives the only segments without a dot of which
that is true.
-/

namespace RecordFilter

/-- The text is these parts joined by dots, and no part holds a dot. -/
structure IsSplit (s : String) (parts : List String) : Prop where
  ne_nil : parts ≠ []
  undotted : ∀ p ∈ parts, '.' ∉ p.toList
  joined : ".".intercalate parts = s

/-- A text that splits into segments none of which is empty. -/
structure IsSelector (s : String) (heads : List String) : Prop where
  split : IsSplit s heads
  nonempty : "" ∉ heads

theorem not_mem_of_mem_splitOn {c : Char} {cs part : List Char} (h : part ∈ cs.splitOn c) :
    c ∉ part := by
  induction cs generalizing part with
  | nil =>
    rw [List.splitOn_nil, List.mem_singleton] at h
    simp [h]
  | cons x rest ih =>
    rw [List.splitOn_cons_eq_if_modifyHead] at h
    split at h
    · rcases List.mem_cons.mp h with rfl | h
      · exact List.not_mem_nil
      · exact ih h
    · rename_i hx
      cases hrest : rest.splitOn c with
      | nil => exact absurd hrest (List.splitOn_ne_nil c rest)
      | cons first others =>
        rw [hrest, List.modifyHead_cons] at h
        rw [hrest] at ih
        rcases List.mem_cons.mp h with rfl | h
        · have hc : c ≠ x := fun hc => hx (by simp [hc])
          simp [hc, ih List.mem_cons_self]
        · exact ih (List.mem_cons_of_mem _ h)

theorem isSplit_dotParts (s : String) : IsSplit s (dotParts s) where
  ne_nil := by simp [dotParts, List.splitOn_ne_nil]
  undotted p hp := by
    obtain ⟨cs, hcs, rfl⟩ := List.mem_map.mp hp
    simpa using not_mem_of_mem_splitOn hcs
  joined := by
    apply String.toList_injective
    rw [String.toList_intercalate, dotParts, List.map_map]
    have hid : (String.toList ∘ String.ofList) = id := by
      funext cs
      simp
    rw [hid, List.map_id]
    exact List.intercalate_splitOn '.'

theorem IsSplit.eq_dotParts {s : String} {parts : List String} (h : IsSplit s parts) :
    parts = dotParts s := by
  have hsplit : s.toList.splitOn '.' = parts.map String.toList := by
    rw [← h.joined, String.toList_intercalate]
    exact List.splitOn_intercalate '.' (by simpa using h.undotted) (by simpa using h.ne_nil)
  rw [dotParts, hsplit, List.map_map]
  have hid : (String.ofList ∘ String.toList) = id := by
    funext p
    simp
  rw [hid, List.map_id]

theorem splitSelector_eq (s : String) :
    splitSelector s = if "" ∈ dotParts s then .error (.emptySegment s) else .ok (dotParts s) := by
  have hany : (dotParts s).any String.isEmpty = true ↔ "" ∈ dotParts s := by
    simp [List.any_eq_true]
  simp only [splitSelector, hany]

theorem splitSelector_eq_ok_iff {s : String} {heads : List String} :
    splitSelector s = .ok heads ↔ IsSelector s heads := by
  rw [splitSelector_eq]
  constructor
  · intro h
    split at h
    · cases h
    · rename_i hne
      cases h
      exact ⟨isSplit_dotParts s, hne⟩
  · intro h
    rw [← h.split.eq_dotParts, if_neg h.nonempty]

theorem splitSelector_eq_error_iff {s : String} {e : PathError} :
    splitSelector s = .error e ↔
      e = .emptySegment s ∧ ∃ parts, IsSplit s parts ∧ "" ∈ parts := by
  rw [splitSelector_eq]
  constructor
  · intro h
    split at h
    · rename_i hmem
      cases h
      exact ⟨rfl, _, isSplit_dotParts s, hmem⟩
    · cases h
  · rintro ⟨rfl, parts, hsplit, hmem⟩
    rw [← hsplit.eq_dotParts, if_pos hmem]

end RecordFilter
