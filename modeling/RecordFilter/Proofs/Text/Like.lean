import RecordFilter.Proofs.Text.Pattern

/-!
# The operand of `LIKE`

An operand of `LIKE` is read from the left. A percent sign is any run of characters, an underscore
is any one character, and behind the escape character every character is itself. The operand that a
pattern writes is read as the parts of the pattern, whatever marks stand in its literals, and so
`LIKE` finds the texts that the pattern matches.
-/

namespace RecordFilter.Text.Pattern

inductive LikeToken
  | letter (c : Char)
  | anyChar
  | anyRun
  deriving DecidableEq, Repr

/-- What a character says that is not escaped. -/
def plainToken (c : Char) : LikeToken :=
  if c = '%' then .anyRun else if c = '_' then .anyChar else .letter c

/-- Reads an operand. An escape character at its end escapes nothing, and the operand is refused. -/
def readLike (escape : Char) : List Char → Option (List LikeToken)
  | [] => some []
  | [c] => if c = escape then none else some [plainToken c]
  | c :: d :: rest =>
    if c = escape then (readLike escape rest).map (.letter d :: ·)
    else (readLike escape (d :: rest)).map (plainToken c :: ·)

inductive LikeFollows : List LikeToken → List Char → Prop
  | nil : LikeFollows [] []
  | letter (c : Char) {tokens : List LikeToken} {s : List Char} :
      LikeFollows tokens s → LikeFollows (.letter c :: tokens) (c :: s)
  | anyChar (c : Char) {tokens : List LikeToken} {s : List Char} :
      LikeFollows tokens s → LikeFollows (.anyChar :: tokens) (c :: s)
  | anyRun (run : List Char) {tokens : List LikeToken} {s : List Char} :
      LikeFollows tokens s → LikeFollows (.anyRun :: tokens) (run ++ s)

/-- The text is `LIKE` the operand. -/
def IsLike (escape : Char) (operand s : List Char) : Prop :=
  ∃ tokens, readLike escape operand = some tokens ∧ LikeFollows tokens s

def partTokens : Part → List LikeToken
  | .literal l => l.map .letter
  | .anyRun => [.anyRun]

variable {escape : Char} {parts : List Part} {tokens : List LikeToken} {s : List Char}

/-! ## Reading what was written -/

theorem readLike_escape (c : Char) (rest : List Char) :
    readLike escape (escape :: c :: rest) = (readLike escape rest).map (.letter c :: ·) := by
  rw [readLike, if_pos rfl]

theorem readLike_cons_of_ne {c : Char} (h : c ≠ escape) (rest : List Char) :
    readLike escape (c :: rest) = (readLike escape rest).map (plainToken c :: ·) := by
  cases rest with
  | nil => simp [readLike, h]
  | cons d rest => rw [readLike, if_neg h]

theorem plainToken_of_ne {c : Char} (hrun : c ≠ '%') (hchar : c ≠ '_') :
    plainToken c = .letter c := by
  rw [plainToken, if_neg hrun, if_neg hchar]

theorem readLike_likeChar (c : Char) (rest : List Char) :
    readLike escape (likeChar escape c ++ rest) =
      (readLike escape rest).map ([.letter c] ++ ·) := by
  unfold likeChar
  split
  · exact readLike_escape c rest
  · rename_i hmark
    obtain ⟨hrun, hchar, hescape⟩ := by simpa only [not_or] using hmark
    rw [List.singleton_append, readLike_cons_of_ne hescape, plainToken_of_ne hrun hchar]
    rfl

theorem readLike_likePart (hrun : escape ≠ '%') (part : Part) (rest : List Char) :
    readLike escape (likePart escape part ++ rest) =
      (readLike escape rest).map (partTokens part ++ ·) := by
  cases part with
  | literal l =>
    have hliteral := read_flatMap (@readLike_likeChar escape) l rest
    rwa [← List.map_eq_flatMap] at hliteral
  | anyRun => exact readLike_cons_of_ne hrun.symm rest

theorem readLike_like (hrun : escape ≠ '%') (p : Pattern) :
    readLike escape (p.like escape).toList = some (p.parts.flatMap partTokens) := by
  have hparts := read_flatMap (readLike_likePart hrun) p.parts []
  rw [like, String.toList_ofList]
  simpa [readLike] using hparts

/-! ## What the tokens find -/

theorem likeFollows_nil_iff : LikeFollows [] s ↔ s = [] :=
  ⟨fun | .nil => rfl, fun h => h ▸ .nil⟩

theorem likeFollows_letter_iff {c : Char} :
    LikeFollows (.letter c :: tokens) s ↔ ∃ t, s = c :: t ∧ LikeFollows tokens t :=
  ⟨fun | .letter _ h => ⟨_, rfl, h⟩, fun ⟨_, hs, h⟩ => hs ▸ .letter c h⟩

theorem likeFollows_anyRun_iff :
    LikeFollows (.anyRun :: tokens) s ↔ ∃ t, t <:+ s ∧ LikeFollows tokens t :=
  ⟨fun | .anyRun run h => ⟨_, ⟨run, rfl⟩, h⟩, fun ⟨_, ⟨run, hs⟩, h⟩ => hs ▸ .anyRun run h⟩

theorem likeFollows_letters_iff {l : List Char} :
    LikeFollows (l.map .letter ++ tokens) s ↔ ∃ t, s = l ++ t ∧ LikeFollows tokens t := by
  induction l generalizing s with
  | nil => simp
  | cons c l ih =>
    simp only [List.map_cons, List.cons_append, likeFollows_letter_iff, ih]
    constructor
    · rintro ⟨_, rfl, t, rfl, ht⟩
      exact ⟨t, rfl, ht⟩
    · rintro ⟨t, rfl, ht⟩
      exact ⟨l ++ t, rfl, t, rfl, ht⟩

theorem likeFollows_flatMap_iff :
    LikeFollows (parts.flatMap partTokens) s ↔ Follows parts s := by
  induction parts generalizing s with
  | nil => rw [follows_nil_iff, List.flatMap_nil, likeFollows_nil_iff]
  | cons part parts ih =>
    rw [List.flatMap_cons]
    cases part with
    | literal l => simp only [partTokens, likeFollows_letters_iff, follows_literal_iff, ih]
    | anyRun =>
      simp only [partTokens, List.singleton_append, likeFollows_anyRun_iff, follows_anyRun_iff, ih]

/-! ## The operand of a pattern -/

/-- `LIKE` reads the operand of the pattern to its end, and finds the candidate in small letters
just where the pattern matches it. -/
structure LikeAgrees (p : Pattern) (escape : Char) (candidate : String) : Prop where
  complete : (readLike escape (p.like escape).toList).isSome
  finds : IsLike escape (p.like escape).toList (lower candidate.toList) ↔
    p.isMatch candidate = true

theorem likeAgrees_of_alternates {p : Pattern} (h : Alternates p.parts) (hrun : escape ≠ '%')
    (candidate : String) : LikeAgrees p escape candidate := by
  refine ⟨by rw [readLike_like hrun]; rfl, ?_⟩
  rw [IsLike, readLike_like hrun, isMatch_iff_follows h, ← likeFollows_flatMap_iff]
  simp only [Option.some.injEq, exists_eq_left']

/-- Any escape character will do but the percent sign, which would escape what follows a wildcard. -/
theorem likeAgrees_ofWildcard_containing (hrun : escape ≠ '%') (wildcard : Char)
    (raw keyword candidate : String) :
    LikeAgrees (ofWildcard wildcard raw) escape candidate ∧
      LikeAgrees (containing keyword) escape candidate :=
  ⟨likeAgrees_of_alternates (alternates_ofWildcard wildcard raw) hrun candidate,
    likeAgrees_of_alternates (alternates_containing keyword) hrun candidate⟩

/-- The marks and the escape character itself all stand in the literal. -/
theorem likeAgrees_discounts :
    '\\' ≠ '%' ∧
      (ofWildcard '*' "50%_\\*").like '\\' = "50\\%\\_\\\\%" ∧
      (ofWildcard '*' "50%_\\*").isMatch "50%_\\off" = true ∧
      (ofWildcard '*' "50%_\\*").isMatch "50 off" = false ∧
      LikeAgrees (ofWildcard '*' "50%_\\*") '\\' "50%_\\off" ∧
      LikeAgrees (ofWildcard '*' "50%_\\*") '\\' "50 off" :=
  have hrun : '\\' ≠ '%' := by decide
  ⟨hrun, by decide, by decide, by decide,
    (likeAgrees_ofWildcard_containing hrun '*' "50%_\\*" "50%" "50%_\\off").1,
    (likeAgrees_ofWildcard_containing hrun '*' "50%_\\*" "50%" "50 off").1⟩

example : readLike '%' ((containing "").like '%').toList = none := by decide

end RecordFilter.Text.Pattern
