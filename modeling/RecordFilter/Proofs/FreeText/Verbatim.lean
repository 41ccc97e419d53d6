import RecordFilter.Proofs.Text.Lower
import RecordFilter.Proofs.Text.Pattern
import RecordFilter.Schema.Candidate

/-!
# Text taken verbatim

A keyword that stands in a text as it is written is found there if the text leaves the small letters
of the keyword as they are. Only a capital sigma can change: alone at the end of the keyword it ends
a word, and in the text the word may go on. A keyword is found in every text that has it just where
no text changes any of its sigmas.
-/

namespace RecordFilter

open RecordFilter.Text RecordFilter.Text.Pattern

variable {before keyword after : String}

/-- The searches for the keyword find it between `before` and `after`: as a part of the text, at
its start, and in the name of an enumeration's member. -/
structure FoundIn (before keyword after : String) : Prop where
  contained : (containing keyword).isMatch (before ++ keyword ++ after) = true
  started : ∀ wildcard, wildcard ∉ keyword.toList →
    (ofWildcard wildcard (keyword.push wildcard)).isMatch (keyword ++ after) = true
  candidate : trim keyword = keyword → ∀ model : EnumModel, ∀ m ∈ model.members,
    m.name = before ++ keyword ++ after → m ∈ model.candidates keyword

/-! ## Each search by itself -/

theorem contained_iff : (containing keyword).isMatch (before ++ keyword ++ after) = true ↔
    lower keyword.toList <:+: lower (before.toList ++ (keyword.toList ++ after.toList)) := by
  rw [isMatch_iff_follows (alternates_containing keyword), follows_containing_iff]
  simp only [String.toList_append, List.append_assoc]

theorem contained_of_keepsSigmas
    (h : KeepsSigmas before.toList.reverse after.toList keyword.toList) :
    (containing keyword).isMatch (before ++ keyword ++ after) = true := by
  rw [contained_iff, lower_around, keepsSigmas_iff.mp h, ← List.append_assoc]
  exact ⟨_, _, rfl⟩

theorem parts_ofWildcard_push {wildcard : Char} (h : wildcard ∉ keyword.toList) :
    (ofWildcard wildcard (keyword.push wildcard)).parts = literalOf keyword.toList ++ [.anyRun] := by
  have hsplit : (keyword.push wildcard).toList.splitOn wildcard = [keyword.toList, []] := by
    have hjoined : [wildcard].intercalate [keyword.toList, []] = (keyword.push wildcard).toList := by
      simp [List.intercalate]
    rw [← hjoined]
    exact List.splitOn_intercalate wildcard (by simpa using h) (by simp)
  rw [ofWildcard, hsplit]
  rfl

theorem follows_literalOf_anyRun_iff {l s : List Char} :
    Follows (literalOf l ++ [.anyRun]) s ↔ lower l <+: s := by
  cases l with
  | nil => exact iff_of_true (follows_anyRun_nil s) List.nil_prefix
  | cons c l =>
    rw [show literalOf (c :: l) ++ [.anyRun] = [.literal (lower (c :: l)), .anyRun] from rfl,
      follows_literal_iff]
    constructor
    · rintro ⟨t, rfl, -⟩
      exact List.prefix_append _ t
    · rintro ⟨t, rfl⟩
      exact ⟨t, rfl, follows_anyRun_nil t⟩

theorem started_iff {wildcard : Char} (h : wildcard ∉ keyword.toList) :
    (ofWildcard wildcard (keyword.push wildcard)).isMatch (keyword ++ after) = true ↔
      KeepsSigmas [] after.toList keyword.toList := by
  rw [isMatch_iff_follows (alternates_ofWildcard _ _), parts_ofWildcard_push h,
    follows_literalOf_anyRun_iff, keepsSigmas_iff, String.toList_append, lower, lower,
    lowerFrom_append]
  constructor
  · intro hprefix
    have hlength : (lowerWithin [] after.toList keyword.toList).length =
        (lower keyword.toList).length := by
      rw [lower_eq_lowerWithin, length_lowerWithin]
    have hwithin := List.prefix_of_prefix_length_le hprefix (List.prefix_append _ _) hlength.ge
    exact (hwithin.eq_of_length hlength.symm).symm
  · intro hkeeps
    rw [hkeeps]
    exact List.prefix_append _ _

theorem nameContains_iff {needle : List Char} {m : EnumMember} :
    EnumModel.nameContains needle m = true ↔ needle <:+: lower m.name.toList :=
  isSome_firstPlace_iff

theorem mem_candidates_iff (htrim : trim keyword = keyword) {model : EnumModel} {m : EnumMember} :
    m ∈ model.candidates keyword ↔
      m ∈ model.members ∧
        ((containing keyword).isMatch m.name = true ∨ m.isCandidate keyword = true) := by
  rw [isMatch_iff_follows (alternates_containing keyword), follows_containing_iff,
    ← nameContains_iff]
  simp only [EnumModel.candidates, htrim, List.mem_filter, Bool.or_eq_true]

theorem foundIn_of_keepsSigmas
    (h : KeepsSigmas before.toList.reverse after.toList keyword.toList) :
    FoundIn before keyword after where
  contained := contained_of_keepsSigmas h
  started := fun _ hwildcard => (started_iff hwildcard).mpr h.behind
  candidate := by
    intro htrim model m hm hname
    rw [mem_candidates_iff htrim, hname]
    exact ⟨hm, .inl (contained_of_keepsSigmas h)⟩

/-! ## In every text -/

theorem keepsSigmas_of_letterBehind
    (h : (containing keyword).isMatch ("" ++ keyword ++ "a") = true) :
    KeepsSigmas [] ['a'] keyword.toList := by
  have hforms : ∀ front rest, keyword.toList = front ++ 'Σ' :: rest →
      endsWord (front.reverse ++ []) (rest ++ ['a']) = true →
        endsWord front.reverse rest = true := by
    intro front rest _ hends
    rw [List.append_nil] at hends
    exact endsWord_of_append hends
  rw [contained_iff, lower_around] at h
  exact keepsSigmas_of_infix hforms rfl rfl h

theorem keepsSigmas_of_letterInFront
    (h : (containing keyword).isMatch ("a" ++ keyword ++ "") = true) :
    KeepsSigmas ['a'] [] keyword.toList := by
  have hforms : ∀ front rest, keyword.toList = front ++ 'Σ' :: rest →
      endsWord (front.reverse ++ ['a']) (rest ++ []) = false →
        endsWord front.reverse rest = false := by
    intro front rest _ hends
    rw [List.append_nil] at hends
    refine Bool.eq_false_iff.mpr fun halone => ?_
    rw [endsWord_append_of halone] at hends
    cases hends
  rw [contained_iff, lower_around] at h
  exact keepsSigmas_of_infix hforms rfl rfl h

theorem keepsSigmas_of_forall_foundIn (h : ∀ before after, FoundIn before keyword after)
    (before after : List Char) : KeepsSigmas before after keyword.toList := by
  have hletter : meetsCased ['a'] = true := by decide +kernel
  have hbehind := keepsSigmas_of_letterBehind (h "" "a").contained
  have hinFront := keepsSigmas_of_letterInFront (h "a" "").contained
  exact keepsSigmas_of_letters hletter hbehind hinFront

/-- Which texts that have the keyword in them are found. -/
structure FoundVerbatim (keyword : String) : Prop where
  kept : ∀ before after, KeepsSigmas before.toList.reverse after.toList keyword.toList →
    FoundIn before keyword after
  started : ∀ wildcard after, wildcard ∉ keyword.toList →
    ((ofWildcard wildcard (keyword.push wildcard)).isMatch (keyword ++ after) = true ↔
      KeepsSigmas [] after.toList keyword.toList)
  /-- Found in every text, just where no text changes a sigma. -/
  everywhere : (∀ before after, FoundIn before keyword after) ↔
    ∀ before after, KeepsSigmas before after keyword.toList
  noSigma : 'Σ' ∉ keyword.toList → ∀ before after, FoundIn before keyword after

theorem foundVerbatim (keyword : String) : FoundVerbatim keyword where
  kept := fun _ _ => foundIn_of_keepsSigmas
  started := fun _ _ => started_iff
  everywhere := ⟨keepsSigmas_of_forall_foundIn, fun h _ _ => foundIn_of_keepsSigmas (h _ _)⟩
  noSigma := fun h _ _ => foundIn_of_keepsSigmas (keepsSigmas_of_no_sigma h)

theorem street_found :
    KeepsSigmas "Η ".toList.reverse " ΕΡΜΟΥ".toList "ΟΔΟΣ".toList ∧
      FoundIn "Η " "ΟΔΟΣ" " ΕΡΜΟΥ" := by
  have hkeeps : KeepsSigmas "Η ".toList.reverse " ΕΡΜΟΥ".toList "ΟΔΟΣ".toList :=
    keepsSigmas_iff.mpr (by decide +kernel)
  exact ⟨hkeeps, (foundVerbatim "ΟΔΟΣ").kept _ _ hkeeps⟩

/-- The word goes on behind the keyword, so its sigma has another form. -/
theorem street_missed :
    (containing "ΟΔΟΣ").isMatch ("" ++ "ΟΔΟΣ" ++ "Α") = false ∧
      (ofWildcard '*' ("ΟΔΟΣ".push '*')).isMatch ("ΟΔΟΣ" ++ "Α") = false ∧
      trim "ΟΔΟΣ" = "ΟΔΟΣ" ∧
      (EnumModel.mk "Word" [⟨"" ++ "ΟΔΟΣ" ++ "Α", 0, none⟩]).candidates "ΟΔΟΣ" = [] := by
  exact ⟨by decide +kernel, by decide +kernel, by decide +kernel,
    List.isEmpty_iff.mp (by decide +kernel)⟩

end RecordFilter
