import RecordFilter.Proofs.Text.Lower
import RecordFilter.Proofs.Text.Pattern

/-!
# The regular expression of a pattern

A regular expression without options but the one for case is searched for in the whole text, and a
dot takes no line feed. So the expression that a pattern writes finds a text of ASCII just where the
pattern matches it and no wildcard has to take a line feed.
-/

namespace RecordFilter.Text.Pattern

inductive RegexItem
  /-- The start of the text. -/
  | start
  /-- The end of the text. -/
  | stop
  | letter (c : Char)
  /-- Any characters but line feeds. -/
  | dotRun
  deriving DecidableEq, Repr

/-- The characters that are not themselves unless they are escaped. -/
def specialMarks : List Char :=
  ['\\', '.', '+', '*', '?', '(', ')', '|', '[', ']', '\x7b', '\x7d', '^', '$']

/-- Behind a backslash letters, digits and angle brackets are not themselves. -/
def isEscapable (c : Char) : Bool := !(c.isAlphanum || c == '<' || c == '>')

/-- Reads the part of the syntax that has no groups, classes and repeated letters. -/
def readRegex : List Char → Option (List RegexItem)
  | [] => some []
  | '^' :: rest => (readRegex rest).map (.start :: ·)
  | '$' :: rest => (readRegex rest).map (.stop :: ·)
  | '.' :: '*' :: rest => (readRegex rest).map (.dotRun :: ·)
  | '\\' :: c :: rest => if isEscapable c then (readRegex rest).map (.letter c :: ·) else none
  | c :: rest => if specialMarks.contains c then none else (readRegex rest).map (.letter c :: ·)

variable {items : List RegexItem} {parts : List Part} {before after l s : List Char}

/-- The items are found one behind the other from between `before` and `after` on, the case of the
letters of ASCII ignored. -/
inductive FoundAt : List RegexItem → List Char → List Char → Prop
  | nil {before after : List Char} : FoundAt [] before after
  | start {items : List RegexItem} {after : List Char} :
      FoundAt items [] after → FoundAt (.start :: items) [] after
  | stop {items : List RegexItem} {before : List Char} :
      FoundAt items before [] → FoundAt (.stop :: items) before []
  | letter {items : List RegexItem} {before after : List Char} {c x : Char} :
      x.toLower = c.toLower → FoundAt items (before ++ [x]) after →
        FoundAt (.letter c :: items) before (x :: after)
  | dotRun {items : List RegexItem} {before after run : List Char} :
      '\n' ∉ run → FoundAt items (before ++ run) after →
        FoundAt (.dotRun :: items) before (run ++ after)

/-- The regular expression is found somewhere in the text. -/
def IsFound (source text : List Char) : Prop :=
  ∃ items, readRegex source = some items ∧ ∃ before after, text = before ++ after ∧
    FoundAt items before after

def partItems : Part → List RegexItem
  | .literal l => l.map .letter
  | .anyRun => [.dotRun]

/-! ## Reading what was written -/

theorem readRegex_escape {c : Char} (h : isEscapable c = true) (rest : List Char) :
    readRegex ('\\' :: c :: rest) = (readRegex rest).map (.letter c :: ·) := by
  simp [readRegex, h]

theorem readRegex_cons {c : Char} (h : c ∉ specialMarks) (rest : List Char) :
    readRegex (c :: rest) = (readRegex rest).map (.letter c :: ·) := by
  have hne : ∀ mark ∈ specialMarks, c ≠ mark := fun _ hmark heq => h (heq ▸ hmark)
  rw [readRegex, if_neg (by simpa using h)]
  · exact hne '^' (by decide)
  · exact hne '$' (by decide)
  · exact fun _ heq => absurd heq (hne '.' (by decide))
  · exact fun _ _ heq => absurd heq (hne '\\' (by decide))

theorem readRegex_regexChar (c : Char) (rest : List Char) :
    readRegex (regexChar c ++ rest) = (readRegex rest).map ([.letter c] ++ ·) := by
  have hmarks : ∀ c ∈ regexMarks, isEscapable c = true := by simp [regexMarks, isEscapable]
  have hspecial : ∀ c ∈ specialMarks, c ∈ regexMarks := by simp [specialMarks, regexMarks]
  unfold regexChar
  split
  · rename_i hmark
    exact readRegex_escape (hmarks c (List.contains_iff_mem.mp hmark)) rest
  · rename_i hmark
    exact readRegex_cons (mt (hspecial c) (mt List.contains_iff_mem.mpr hmark)) rest

theorem readRegex_regexPart (part : Part) (rest : List Char) :
    readRegex (regexPart part ++ rest) = (readRegex rest).map (partItems part ++ ·) := by
  cases part with
  | literal l =>
    have hliteral := read_flatMap readRegex_regexChar l rest
    rwa [← List.map_eq_flatMap] at hliteral
  | anyRun => simp [regexPart, partItems, readRegex]

theorem readRegex_regex (p : Pattern) :
    readRegex p.regex.toList = some (.start :: (p.parts.flatMap partItems ++ [.stop])) := by
  rw [regex, String.toList_ofList, List.cons_append, readRegex, read_flatMap readRegex_regexPart]
  simp [readRegex]

/-! ## What the items find -/

theorem foundAt_start_iff :
    FoundAt (.start :: items) before after ↔ before = [] ∧ FoundAt items [] after :=
  ⟨fun | .start h => ⟨rfl, h⟩, fun ⟨hbefore, h⟩ => hbefore ▸ .start h⟩

theorem foundAt_stop_iff : FoundAt [.stop] before after ↔ after = [] :=
  ⟨fun | .stop _ => rfl, fun h => h ▸ .stop .nil⟩

theorem foundAt_letter_iff {c : Char} :
    FoundAt (.letter c :: items) before s ↔
      ∃ x after, s = x :: after ∧ x.toLower = c.toLower ∧ FoundAt items (before ++ [x]) after :=
  ⟨fun | .letter hx h => ⟨_, _, rfl, hx, h⟩, fun ⟨_, _, hs, hx, h⟩ => hs ▸ .letter hx h⟩

theorem foundAt_dotRun_iff :
    FoundAt (.dotRun :: items) before s ↔
      ∃ run after, s = run ++ after ∧ '\n' ∉ run ∧ FoundAt items (before ++ run) after :=
  ⟨fun | .dotRun hrun h => ⟨_, _, rfl, hrun, h⟩, fun ⟨_, _, hs, hrun, h⟩ => hs ▸ .dotRun hrun h⟩

theorem foundAt_letters_iff :
    FoundAt (l.map .letter ++ items) before s ↔
      ∃ piece after, s = piece ++ after ∧ asciiLower piece = asciiLower l ∧
        FoundAt items (before ++ piece) after := by
  induction l generalizing before s with
  | nil => simp [asciiLower]
  | cons c l ih =>
    rw [List.map_cons, List.cons_append, foundAt_letter_iff]
    constructor
    · rintro ⟨x, _, rfl, hx, hletters⟩
      obtain ⟨piece, after, rfl, hpiece, h⟩ := ih.mp hletters
      refine ⟨x :: piece, after, rfl, List.cons_eq_cons.mpr ⟨hx, hpiece⟩, ?_⟩
      rwa [List.append_assoc] at h
    · rintro ⟨piece, after, rfl, hpiece, h⟩
      obtain ⟨x, piece, rfl, hx, hrest⟩ := List.map_eq_cons_iff.mp hpiece
      refine ⟨x, piece ++ after, rfl, hx, ih.mpr ⟨piece, after, rfl, hrest, ?_⟩⟩
      rwa [List.append_assoc]

/-! ## Line feeds -/

/-- The line feeds in the literals. -/
def lineFeeds : List Part → Nat
  | [] => 0
  | .literal l :: parts => l.count '\n' + lineFeeds parts
  | .anyRun :: parts => lineFeeds parts

theorem toLower_eq_lineFeed_iff {c : Char} : c.toLower = '\n' ↔ c = '\n' := by
  unfold Char.toLower
  split
  · rename_i hupper
    have hlow : 65 ≤ c.toNat := UInt32.le_iff_toNat_le.mp hupper.1
    have hhigh : c.toNat ≤ 90 := UInt32.le_iff_toNat_le.mp hupper.2
    refine iff_of_false (fun h => ?_) ?_
    · have hcode := congrArg (fun c => c.val.toNat) h
      simp [UInt32.toNat_add] at hcode
      omega
    · rintro rfl
      exact absurd hlow (by decide)
  · rfl

theorem count_asciiLower (s : List Char) : (asciiLower s).count '\n' = s.count '\n' := by
  rw [asciiLower, List.count, List.countP_map]
  refine List.countP_congr fun c _ => ?_
  simp [toLower_eq_lineFeed_iff]

theorem asciiLower_append (s t : List Char) : asciiLower (s ++ t) = asciiLower s ++ asciiLower t :=
  List.map_append

theorem lineFeeds_le_of_follows (h : Follows parts s) : lineFeeds parts ≤ s.count '\n' := by
  induction h with
  | nil => exact Nat.zero_le _
  | literal l _ ih =>
    rw [lineFeeds, List.count_append]
    omega
  | anyRun run _ ih =>
    rw [lineFeeds, List.count_append]
    omega

theorem foundAt_flatMap_iff (h : ∀ l, .literal l ∈ parts → asciiLower l = l) :
    FoundAt (parts.flatMap partItems ++ [.stop]) before s ↔
      Follows parts (asciiLower s) ∧ s.count '\n' = lineFeeds parts := by
  induction parts generalizing before s with
  | nil =>
    rw [List.flatMap_nil, List.nil_append, foundAt_stop_iff, follows_nil_iff]
    simp +contextual [asciiLower, lineFeeds]
  | cons part parts ih =>
    have hparts := fun before s => @ih before s fun l hl => h l (List.mem_cons_of_mem _ hl)
    rw [List.flatMap_cons, List.append_assoc]
    cases part with
    | literal l =>
      have hl := h l List.mem_cons_self
      simp only [partItems, foundAt_letters_iff, follows_literal_iff, hparts, lineFeeds, hl]
      constructor
      · rintro ⟨piece, after, rfl, hpiece, hfollows, hcount⟩
        refine ⟨⟨asciiLower after, by rw [asciiLower_append, hpiece], hfollows⟩, ?_⟩
        rw [List.count_append, ← count_asciiLower piece, hpiece, hcount]
      · rintro ⟨⟨_, hs, hfollows⟩, hcount⟩
        obtain ⟨piece, after, rfl, hpiece, rfl⟩ := List.map_eq_append_iff.mp hs
        refine ⟨piece, after, rfl, hpiece, hfollows, ?_⟩
        rw [List.count_append, ← count_asciiLower piece, asciiLower, hpiece] at hcount
        omega
    | anyRun =>
      simp only [partItems, List.singleton_append, foundAt_dotRun_iff, follows_anyRun_iff, hparts,
        lineFeeds]
      constructor
      · rintro ⟨run, after, rfl, hrun, hfollows, hcount⟩
        refine ⟨⟨asciiLower after, ?_, hfollows⟩, ?_⟩
        · rw [asciiLower_append]
          exact List.suffix_append _ _
        · rw [List.count_append, List.count_eq_zero_of_not_mem hrun, hcount, Nat.zero_add]
      · rintro ⟨⟨_, ⟨_, hs⟩, hfollows⟩, hcount⟩
        obtain ⟨run, after, rfl, -, rfl⟩ := List.map_eq_append_iff.mp hs.symm
        -- The parts need all the line feeds there are, so none is left for the run.
        have hle := lineFeeds_le_of_follows hfollows
        rw [← asciiLower, count_asciiLower] at hle
        rw [List.count_append] at hcount
        exact ⟨run, after, rfl, List.count_eq_zero.mp (by omega), hfollows, by omega⟩

/-! ## The expression of a pattern -/

theorem isFound_regex_iff {p : Pattern} (h : ∀ l, .literal l ∈ p.parts → asciiLower l = l) :
    IsFound p.regex.toList s ↔
      Follows p.parts (asciiLower s) ∧ s.count '\n' = lineFeeds p.parts := by
  rw [IsFound, readRegex_regex, ← @foundAt_flatMap_iff p.parts [] s h]
  simp only [Option.some.injEq, exists_eq_left', foundAt_start_iff]
  constructor
  · rintro ⟨_, after, rfl, rfl, hfound⟩
    exact hfound
  · exact fun hfound => ⟨[], s, rfl, rfl, hfound⟩

/-! ## Patterns of ASCII -/

theorem subset_intercalate {sep text : List Char} {texts : List (List Char)} (h : text ∈ texts) :
    text ⊆ sep.intercalate texts := by
  induction texts with
  | nil => cases h
  | cons first texts ih =>
    cases texts with
    | nil => simp_all
    | cons next texts =>
      rw [List.intercalate_cons_cons]
      rcases List.mem_cons.mp h with rfl | hmem
      · rw [List.append_assoc]
        exact List.subset_append_left _ _
      · exact List.subset_append_of_subset_right _ (ih hmem)

theorem asciiLower_literal_ofWildcard {wildcard : Char} {raw : String}
    (hraw : ∀ c ∈ raw.toList, c.toNat < 0x80) (hl : .literal l ∈ (ofWildcard wildcard raw).parts) :
    asciiLower l = l := by
  obtain ⟨text, htext, -, rfl⟩ := literal_mem_joinRuns_iff.mp hl
  have hsubset : text ⊆ raw.toList := by
    rw [← @List.intercalate_splitOn _ raw.toList _ _ wildcard]
    exact subset_intercalate htext
  exact asciiLower_lower fun c hc => hraw c (hsubset hc)

theorem asciiLower_literal_containing {keyword : String}
    (hkeyword : ∀ c ∈ keyword.toList, c.toNat < 0x80)
    (hl : .literal l ∈ (containing keyword).parts) : asciiLower l = l := by
  rw [parts_containing] at hl
  split at hl
  · simp at hl
  · obtain rfl : l = lower keyword.toList := by simpa using hl
    exact asciiLower_lower hkeyword

/-- The regular expression is complete, and finds the candidate where the pattern matches it and no
wildcard takes a line feed. -/
structure RegexAgrees (p : Pattern) (candidate : String) : Prop where
  complete : (readRegex p.regex.toList).isSome
  found : IsFound p.regex.toList candidate.toList ↔
    p.isMatch candidate = true ∧ candidate.toList.count '\n' = lineFeeds p.parts
  foundInLine : '\n' ∉ candidate.toList →
    (IsFound p.regex.toList candidate.toList ↔ p.isMatch candidate = true)

theorem regexAgrees_of_alternates {p : Pattern} {candidate : String} (h : Alternates p.parts)
    (hparts : ∀ l, .literal l ∈ p.parts → asciiLower l = l)
    (hcandidate : ∀ c ∈ candidate.toList, c.toNat < 0x80) : RegexAgrees p candidate := by
  have hfollows : p.isMatch candidate = true ↔ Follows p.parts (asciiLower candidate.toList) := by
    rw [isMatch_iff_follows h, lower_of_ascii hcandidate]
  have hfound : IsFound p.regex.toList candidate.toList ↔
      p.isMatch candidate = true ∧ candidate.toList.count '\n' = lineFeeds p.parts := by
    rw [isFound_regex_iff hparts, hfollows]
  refine ⟨by rw [readRegex_regex]; rfl, hfound, fun hline => ?_⟩
  rw [hfound, and_iff_left_iff_imp, hfollows]
  intro hmatch
  have hle := lineFeeds_le_of_follows hmatch
  rw [count_asciiLower] at hle
  have hnone := List.count_eq_zero_of_not_mem hline
  omega

theorem regexAgrees_ofWildcard_containing {wildcard : Char} {raw keyword candidate : String}
    (hraw : ∀ c ∈ raw.toList, c.toNat < 0x80) (hkeyword : ∀ c ∈ keyword.toList, c.toNat < 0x80)
    (hcandidate : ∀ c ∈ candidate.toList, c.toNat < 0x80) :
    RegexAgrees (ofWildcard wildcard raw) candidate ∧ RegexAgrees (containing keyword) candidate :=
  ⟨regexAgrees_of_alternates (alternates_ofWildcard wildcard raw)
      (fun _ => asciiLower_literal_ofWildcard hraw) hcandidate,
    regexAgrees_of_alternates (alternates_containing keyword)
      (fun _ => asciiLower_literal_containing hkeyword) hcandidate⟩

theorem regexAgrees_version :
    (∀ c ∈ "v1.*".toList, c.toNat < 0x80) ∧ (∀ c ∈ "(beta)".toList, c.toNat < 0x80) ∧
      (∀ c ∈ "V1.2 (Beta)".toList, c.toNat < 0x80) ∧
      (ofWildcard '*' "v1.*").regex = "^v1\\..*$" ∧
      (ofWildcard '*' "v1.*").isMatch "V1.2 (Beta)" = true ∧
      RegexAgrees (ofWildcard '*' "v1.*") "V1.2 (Beta)" ∧
      RegexAgrees (containing "(beta)") "V1.2 (Beta)" := by
  have hraw : ∀ c ∈ "v1.*".toList, c.toNat < 0x80 := by simp
  have hkeyword : ∀ c ∈ "(beta)".toList, c.toNat < 0x80 := by simp
  have hcandidate : ∀ c ∈ "V1.2 (Beta)".toList, c.toNat < 0x80 := by simp
  exact ⟨hraw, hkeyword, hcandidate, by decide, by decide,
    @regexAgrees_ofWildcard_containing '*' _ _ _ hraw hkeyword hcandidate⟩

/-- The wildcard takes a line feed and the dot does not. -/
theorem lineFeed_notFound :
    (ofWildcard '*' "a*b").isMatch "a\nb" = true ∧
      ¬ IsFound (ofWildcard '*' "a*b").regex.toList "a\nb".toList ∧
      (containing "b").isMatch "a\nb" = true ∧
      ¬ IsFound (containing "b").regex.toList "a\nb".toList := by
  have hraw : ∀ c ∈ "a*b".toList, c.toNat < 0x80 := by simp
  have hkeyword : ∀ c ∈ "b".toList, c.toNat < 0x80 := by simp
  refine ⟨by decide, fun hfound => ?_, by decide, fun hfound => ?_⟩
  · have hcount := ((isFound_regex_iff fun _ => asciiLower_literal_ofWildcard hraw).mp hfound).2
    exact absurd hcount (by decide)
  · have hcount := ((isFound_regex_iff fun _ => asciiLower_literal_containing hkeyword).mp hfound).2
    exact absurd hcount (by decide)

end RecordFilter.Text.Pattern
