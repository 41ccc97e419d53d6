import Mathlib.Data.List.Count
import RecordFilter.Proofs.Render.Joins
import RecordFilter.Proofs.Render.Refusals

/-!
# Placeholders and their values

The clause of a query has a placeholder for each of its values, in the same order. It is made of
one piece for each check and of text between the pieces, which has no placeholder. Each piece has as
many placeholders as its check has values.
-/

namespace RecordFilter.Sql

/-! ## Values and pieces -/

/-- The values for the placeholders of a check. A test for null has none, and a pattern is one
text. -/
def boundValues (c : Check) : List TypedValue :=
  match c.test, c.operand with
  | .isNull, _ | .isNotNull, _ => []
  | _, .pattern p => [⟨.text (p.like likeEscape), c.path.terminal⟩]
  | _, operand => operand.values

/-- The text has a piece for each of the checks, in order, and no placeholder between them. Each
piece has a placeholder for each value of its check. -/
inductive Pieces (columns : Path → String) : List Check → List Char → Prop
  | gap {text : List Char} (h : '?' ∉ text) : Pieces columns [] text
  | piece {gap rest : List Char} {c : Check} {cs : List Check} {f : Fragment} (hgap : '?' ∉ gap)
      (hf : fragment? (columns c.path) c = some f)
      (hmarks : f.text.toList.count '?' = (boundValues c).length)
      (hrest : Pieces columns cs rest) : Pieces columns (c :: cs) (gap ++ (f.text.toList ++ rest))

/-- The placeholder between `front` and `back` is that of the value `v`: it is at the place in the
piece of a check that `v` has among the values of the check. -/
inductive MarkOf (columns : Path → String) (checks : List Check) (front back : List Char)
    (v : TypedValue) : Prop
  | mk {before after : List Check} {c : Check} {f : Fragment} {head left right tail : List Char}
      (hchecks : checks = before ++ c :: after) (hhead : Pieces columns before head)
      (htail : Pieces columns after tail) (hf : fragment? (columns c.path) c = some f)
      (htext : f.text.toList = left ++ '?' :: right) (hfront : front = head ++ left)
      (hback : back = right ++ tail) (hv : (boundValues c)[left.count '?']? = some v)

/-- The values of the query are those of the checks, and they are in the order of the placeholders
in the clause. -/
structure Aligned (e : Expr) (q : Query) : Prop where
  params : q.params = e.checks.flatMap boundValues
  pieces : Pieces (fun p => (column q.joins p).2) e.checks q.whereClause.toList
  count : q.whereClause.toList.count '?' = q.params.length
  mark : ∀ front back, q.whereClause.toList = front ++ '?' :: back →
    ∃ v, q.params[front.count '?']? = some v ∧
      MarkOf (fun p => (column q.joins p).2) e.checks front back v

/-! ## Texts made of pieces -/

variable {columns : Path → String} {cs ds : List Check} {text : List Char}

theorem Pieces.append_gap {gap : List Char} (hgap : '?' ∉ gap) (h : Pieces columns cs text) :
    Pieces columns cs (gap ++ text) := by
  cases h with
  | gap h => exact .gap (by simp [hgap, h])
  | piece hfront hf hmarks hrest =>
    rw [← List.append_assoc]
    exact .piece (by simp [hgap, hfront]) hf hmarks hrest

theorem Pieces.append {text' : List Char} (h : Pieces columns cs text)
    (h' : Pieces columns ds text') : Pieces columns (cs ++ ds) (text ++ text') := by
  induction h with
  | gap h => exact h'.append_gap h
  | piece hgap hf hmarks _ ih =>
    rw [List.append_assoc, List.append_assoc]
    exact .piece hgap hf hmarks ih

theorem Pieces.count (h : Pieces columns cs text) :
    text.count '?' = (cs.flatMap boundValues).length := by
  induction h with
  | gap h => simp [List.count_eq_zero.mpr h]
  | piece hgap _ hmarks _ ih => simp [List.count_eq_zero.mpr hgap, hmarks, ih]

theorem append_eq_append_cons {α : Type} {a b front back : List α} {x : α}
    (h : a ++ b = front ++ x :: back) :
    (∃ right, a = front ++ x :: right ∧ back = right ++ b) ∨
      ∃ left, front = a ++ left ∧ b = left ++ x :: back := by
  rcases List.append_eq_append_iff.mp h with ⟨left, hfront, hb⟩ | ⟨middle, ha, hcons⟩
  · exact Or.inr ⟨left, hfront, hb⟩
  · cases middle with
    | nil => exact Or.inr ⟨[], by simpa using ha.symm, hcons.symm⟩
    | cons y right =>
      obtain ⟨rfl, rfl⟩ := List.cons.inj hcons
      exact Or.inl ⟨right, ha, rfl⟩

theorem Pieces.exists_mark (h : Pieces columns cs text) {front back : List Char}
    (htext : text = front ++ '?' :: back) :
    ∃ v, (cs.flatMap boundValues)[front.count '?']? = some v ∧
      MarkOf columns cs front back v := by
  induction h generalizing front with
  | gap h => simp [htext] at h
  | @piece gap rest c cs f hgap hf hmarks hrest ih =>
    rcases append_eq_append_cons htext with ⟨right, hright, -⟩ | ⟨behind, rfl, hbehind⟩
    · simp [hright] at hgap
    have hzero := List.count_eq_zero.mpr hgap
    rcases append_eq_append_cons hbehind with ⟨right, hpiece, rfl⟩ | ⟨left, rfl, hleft⟩
    · -- The placeholder is in this piece, and its value is one of this check's.
      have hlt : behind.count '?' < (boundValues c).length := by
        rw [← hmarks, hpiece]
        simp
      have hv := List.getElem?_eq_getElem hlt
      refine ⟨(boundValues c)[behind.count '?'], ?_, ?_⟩
      · rw [List.count_append, hzero, Nat.zero_add, List.flatMap_cons,
          List.getElem?_append_left hlt, hv]
      · have hchecks : c :: cs = [] ++ c :: cs := rfl
        exact .mk hchecks (.gap hgap) hrest hf hpiece rfl rfl hv
    · -- It is behind this piece, and so is its value behind those of this check.
      obtain ⟨v, hv, hmark⟩ := ih hleft
      obtain ⟨rfl, hhead, htail, hf', htext', rfl, rfl, hv'⟩ := hmark
      refine ⟨v, ?_, ?_⟩
      · rw [List.count_append, List.count_append, hzero, hmarks, Nat.zero_add,
          List.flatMap_cons, List.getElem?_append_right (Nat.le_add_right _ _),
          Nat.add_sub_cancel_left, hv]
      · refine .mk rfl (.piece hgap hf hmarks hhead) htail hf' htext' ?_ rfl hv'
        simp

/-! ## The piece of one check -/

theorem count_placeholders (n : Nat) : (placeholders n).toList.count '?' = n := by
  unfold placeholders
  rw [String.toList_intercalate, List.map_replicate]
  induction n with
  | zero => rfl
  | succ n ih =>
    cases n with
    | zero => rfl
    | succ n =>
      rw [List.replicate_succ] at ih ⊢
      rw [List.replicate_succ, List.intercalate_cons_cons, List.count_append, ih]
      simp
      omega

theorem count_append (a b : String) :
    (a ++ b).toList.count '?' = a.toList.count '?' + b.toList.count '?' := by
  rw [String.toList_append, List.count_append]

theorem count_membership {column : String} (hcolumn : column.toList.count '?' = 0)
    (negated : Bool) (items : List TypedValue) :
    (membership column negated items).text.toList.count '?' = items.length ∧
      (membership column negated items).params = items := by
  unfold membership
  split
  · rename_i hempty
    rw [List.isEmpty_iff.mp hempty]
    cases negated <;> exact ⟨rfl, rfl⟩
  · refine ⟨?_, rfl⟩
    have hword : (if negated then " NOT IN (" else " IN (").toList.count '?' = 0 := by
      cases negated <;> rfl
    have hbracket : ")".toList.count '?' = 0 := rfl
    rw [count_append, count_append, count_append, count_placeholders, hcolumn, hword, hbracket]
    omega

theorem count_patternMatch {column : String} (hcolumn : column.toList.count '?' = 0)
    (negated : Bool) (p : Text.Pattern) (declared : FieldType) :
    (patternMatch column negated p declared).text.toList.count '?' = 1 := by
  unfold patternMatch
  simp only [count_append, hcolumn]
  cases negated <;> rfl

theorem count_fragment? {column : String} {c : Check} {f : Fragment}
    (hcolumn : column.toList.count '?' = 0) (hf : fragment? column c = some f) :
    f.text.toList.count '?' = (boundValues c).length ∧ f.params = boundValues c := by
  have htakes : c.test.takes c.operand = true := by
    rw [← isSome_fragment? column, hf]
    rfl
  obtain ⟨path, test, operand⟩ := c
  rcases Test.takes_cases htakes with hnull | ⟨v, rfl, htest⟩ | ⟨items, rfl, htest⟩ |
    ⟨p, rfl, htest⟩ | ⟨low, high, rfl, rfl⟩
  · rcases hnull with rfl | rfl
    all_goals
      cases hf
      refine ⟨?_, rfl⟩
      rw [count_append, hcolumn]
      rfl
  · simp only [List.mem_cons, List.not_mem_nil, or_false] at htest
    rcases htest with rfl | rfl | rfl | rfl | rfl | rfl
    all_goals
      cases hf
      refine ⟨?_, rfl⟩
      rw [count_append, count_append, count_append, hcolumn]
      rfl
  · rcases htest with rfl | rfl
    all_goals
      cases hf
      exact count_membership hcolumn _ items
  · rcases htest with rfl | rfl
    all_goals
      cases hf
      exact ⟨count_patternMatch hcolumn _ p _, rfl⟩
  · cases hf
    refine ⟨?_, rfl⟩
    rw [count_append, hcolumn]
    rfl

/-! ## Columns -/

theorem not_mem_joinName (n : Nat) : '?' ∉ (joinName n).toList := by
  intro h
  have hmark := eq_or_isDigit_of_mem_joinName h
  revert hmark
  decide

theorem not_mem_columnFrom {joins : List Join} (hjoins : ∀ j ∈ joins, '?' ∉ j.name.toList)
    {current : String} (hcurrent : '?' ∉ current.toList) {segments : List Segment}
    (hnames : ∀ s ∈ segments, '?' ∉ s.storageName.toList) :
    '?' ∉ (columnFrom joins current segments).2.toList := by
  induction segments generalizing joins current with
  | nil => exact hcurrent
  | cons s rest ih =>
    obtain ⟨hs, hrest⟩ := List.forall_mem_cons.mp hnames
    have hsource : '?' ∉ (current ++ "." ++ s.storageName).toList := by simp [hcurrent, hs]
    rw [columnFrom]
    split
    · rcases openJoin_cases joins (current ++ "." ++ s.storageName) with
        ⟨j, hj, -, hopen⟩ | ⟨-, hopen⟩
      · simp only [hopen]
        exact ih hjoins (hjoins j hj) hrest
      · simp only [hopen]
        refine ih ?_ (not_mem_joinName _) hrest
        simpa [or_imp, forall_and, not_mem_joinName] using hjoins
    · exact ih hjoins hsource hrest

theorem not_mem_column {joins : List Join} (h : Table joins) {p : Path}
    (hnames : ∀ s ∈ p.segments, '?' ∉ s.storageName.toList) :
    '?' ∉ (column joins p).2.toList := by
  refine not_mem_columnFrom ?_ (by decide) hnames
  intro j hj
  obtain ⟨n, hn⟩ := h.name_eq hj
  rw [hn]
  exact not_mem_joinName n

/-! ## The clause -/

theorem toList_intercalate_cons {joiner : String} (hjoiner : '?' ∉ joiner.toList) (text : String)
    (texts : List String) : ∃ gap, '?' ∉ gap ∧ (joiner.intercalate (text :: texts)).toList =
      text.toList ++ (gap ++ (joiner.intercalate texts).toList) := by
  cases texts with
  | nil => exact ⟨[], by simp⟩
  | cons next texts =>
    refine ⟨joiner.toList, hjoiner, ?_⟩
    simp [String.toList_intercalate]

theorem Pieces.joinTexts {joiner empty : String} (hempty : '?' ∉ empty.toList)
    {texts : List String} (h : Pieces columns cs (joiner.intercalate texts).toList) :
    Pieces columns cs (joinTexts joiner empty texts).toList := by
  match texts with
  | [] => simpa [Sql.joinTexts] using h.append_gap hempty
  | [text] => simpa [Sql.joinTexts] using h
  | text :: next :: texts =>
    have hbehind : Pieces columns [] [')'] := .gap (by decide)
    have hfront : '?' ∉ ['('] := by decide
    simpa [Sql.joinTexts] using (h.append hbehind).append_gap hfront

/-- The columns of the checks have no placeholders in them. -/
def Unmarked (columns : Path → String) (cs : List Check) : Prop :=
  ∀ c ∈ cs, '?' ∉ (columns c.path).toList

mutual

theorem pieces_clauseOver : ∀ (e : Expr) {f : Fragment}, Unmarked columns e.checks →
    clauseOver columns e = some f →
      Pieces columns e.checks f.text.toList ∧ f.params = e.checks.flatMap boundValues
  | .and parts, f, hcolumns, hf | .or parts, f, hcolumns, hf => by
    rw [clauseOver, Option.map_eq_some_iff] at hf
    obtain ⟨fs, hfs, rfl⟩ := hf
    obtain ⟨hpieces, hparams⟩ := pieces_clausesOver parts hcolumns hfs
    rw [joinFragments_eq]
    exact ⟨(hpieces _ (by decide)).joinTexts (by decide), hparams⟩
  | .check c, f, hcolumns, hf => by
    have hcolumn := hcolumns c (List.mem_singleton_self c)
    obtain ⟨hmarks, hparams⟩ := count_fragment? (List.count_eq_zero.mpr hcolumn) hf
    have hnone : '?' ∉ ([] : List Char) := List.not_mem_nil
    refine ⟨?_, by simp [Expr.checks, hparams]⟩
    simpa [Expr.checks] using Pieces.piece hnone hf hmarks (.gap hnone)

theorem pieces_clausesOver : ∀ (es : List Expr) {fs : List Fragment},
    Unmarked columns (Expr.checksOf es) → clausesOver columns es = some fs →
      (∀ joiner : String, '?' ∉ joiner.toList →
        Pieces columns (Expr.checksOf es) (joiner.intercalate (fs.map (·.text))).toList) ∧
      fs.flatMap (·.params) = (Expr.checksOf es).flatMap boundValues
  | [], fs, _, hfs => by
    cases hfs
    exact ⟨fun _ _ => .gap (by simp), rfl⟩
  | e :: rest, fs, hcolumns, hfs => by
    rw [Expr.checksOf, Unmarked, List.forall_mem_append] at hcolumns
    rw [clausesOver, Option.bind_eq_some_iff] at hfs
    obtain ⟨f, hf, hfs⟩ := hfs
    obtain ⟨others, hothers, rfl⟩ := Option.map_eq_some_iff.mp hfs
    obtain ⟨hpiece, hparams⟩ := pieces_clauseOver e hcolumns.1 hf
    obtain ⟨hpieces, hparams'⟩ := pieces_clausesOver rest hcolumns.2 hothers
    rw [Expr.checksOf]
    constructor
    · intro joiner hjoiner
      obtain ⟨gap, hgap, htext⟩ :=
        toList_intercalate_cons hjoiner f.text (others.map (·.text))
      rw [List.map_cons, htext]
      exact hpiece.append ((hpieces joiner hjoiner).append_gap hgap)
    · simp [hparams, hparams']

end

theorem clauseOver_of_render {e : Expr} {q : Query} (h : render e = .ok q) :
    Table q.joins ∧
      clauseOver (fun p => (column q.joins p).2) e = some ⟨q.whereClause, q.params⟩ := by
  obtain ⟨f, hclause, rfl⟩ := render_eq_ok h
  obtain ⟨hgrows, hover⟩ := grows_clause e [] hclause
  exact ⟨hgrows.table table_nil, hover q.joins List.prefix_rfl⟩

/-- Where no name in the store has a question mark, the values of a query are those of its checks
from left to right, each check has its piece of the clause in the same order, and the placeholders
in the piece are those of the values of the check. -/
theorem aligned_of_render {e : Expr} {q : Query} (h : render e = .ok q)
    (hnames : ∀ c ∈ e.checks, ∀ s ∈ c.path.segments, '?' ∉ s.storageName.toList) :
    Aligned e q := by
  obtain ⟨htable, hclause⟩ := clauseOver_of_render h
  have hcolumns : Unmarked (fun p => (column q.joins p).2) e.checks :=
    fun c hc => not_mem_column htable (hnames c hc)
  obtain ⟨hpieces, hparams⟩ := pieces_clauseOver e hcolumns hclause
  change q.params = e.checks.flatMap boundValues at hparams
  refine ⟨hparams, hpieces, ?_, ?_⟩
  · rw [hpieces.count, ← hparams]
  · intro front back hmark
    rw [hparams]
    exact hpieces.exists_mark hmark

/-- Visits to a room of a range by a guest whose name has a question mark in it, or to one of two
rooms, and to no room of an empty list. -/
def roomSearch : Expr :=
  let room : Path := ⟨"Visit", [⟨"room", "room_no", .scalar⟩], .scalar .u8⟩
  let name : Path :=
    ⟨"Visit", [⟨"guest", "guest_id", .association .single⟩, ⟨"name", "name", .scalar⟩],
      .scalar .text⟩
  .or [.and [.check ⟨room, .between, .range ⟨.uint 1, .scalar .u8⟩ ⟨.uint 5, .scalar .u8⟩⟩,
      .check ⟨name, .like, .pattern (Text.Pattern.ofWildcard '*' "?*")⟩],
    .and [.check ⟨name, .isNotNull, .none⟩,
      .check ⟨room, .isIn, .list [⟨.uint 7, .scalar .u8⟩, ⟨.uint 9, .scalar .u8⟩]⟩,
      .check ⟨room, .notIn, .list []⟩]]

theorem roomSearch_aligned : ∃ q, render roomSearch = .ok q ∧
    (∀ c ∈ roomSearch.checks, ∀ s ∈ c.path.segments, '?' ∉ s.storageName.toList) ∧
      q.whereClause = "((e.room_no BETWEEN ? AND ? AND LOWER(j1.name) LIKE ? ESCAPE '\\') OR " ++
        "(j1.name IS NOT NULL AND e.room_no IN (?, ?) AND 1=1))" ∧
      q.params.map (·.value) = [.uint 1, .uint 5, .text "?%", .uint 7, .uint 9] ∧
        Aligned roomSearch q := by
  have hnames : ∀ c ∈ roomSearch.checks, ∀ s ∈ c.path.segments, '?' ∉ s.storageName.toList := by
    decide
  exact ⟨_, rfl, hnames, rfl, rfl, aligned_of_render rfl hnames⟩

end RecordFilter.Sql
