import Mathlib.Data.List.Nodup
import Mathlib.Data.List.Range
import Mathlib.Data.List.TakeWhile
import RecordFilter.Proofs.Yields
import RecordFilter.Render.Sql

/-!
# The joins of a clause

Joins are opened while the expression is walked through, and an open join never changes. So the
table of joins at the end tells the columns of all checks: `render` gives the clause that the
finished table gives, and each column leads back through the joins to the path that it stands for.
-/

namespace RecordFilter.Sql

open RecordFilter.Schema (headSegment)

/-! ## What joins stand for -/

/-- The name of the `n`th join. -/
def joinName (n : Nat) : String := "j" ++ toString n

/-- What follows the name of the row that a column expression starts at. -/
def behindHead (s : String) : String := String.ofList (s.toList.dropWhile (· != '.'))

/-- Replacing the name of a join in front by the source of the join, until the selected row is in
front, makes `t` out of `s`. -/
inductive Expands (joins : List Join) : String → String → Prop
  | root {s : String} (hs : headSegment s = rootName) : Expands joins s s
  | join {s t : String} {j : Join} (hj : j ∈ joins) (hs : headSegment s = j.name)
      (ht : Expands joins (j.source ++ behindHead s) t) : Expands joins s t

/-- The column expression leads along the segments: each association and each element collection
among them has a join of its own, and every other segment is one more name behind a dot. -/
inductive Spells (joins : List Join) : String → List Segment → Prop
  | root : Spells joins rootName []
  | name {column : String} {way : List Segment} {s : Segment} (hjoin : s.kind.isJoin = false)
      (hway : Spells joins column way) :
      Spells joins (column ++ "." ++ s.storageName) (way ++ [s])
  | join {column : String} {way : List Segment} {s : Segment} {j : Join}
      (hjoin : s.kind.isJoin = true) (hway : Spells joins column way) (hj : j ∈ joins)
      (hsource : j.source = column ++ "." ++ s.storageName) : Spells joins j.name (way ++ [s])

/-- A table of joins: they are numbered, no two have one source, and each source starts at the
selected row or at an earlier join. -/
structure Table (joins : List Join) : Prop where
  names : joins.map (·.name) = (List.range joins.length).map fun i => joinName (i + 1)
  distinct : (joins.map (·.source)).Nodup
  earlier : ∀ before j after, joins = before ++ j :: after →
    headSegment j.source ∈ rootName :: before.map (·.name)

mutual

/-- The clause of an expression whose columns are known. -/
def clauseOver (columns : Path → String) : Expr → Option Fragment
  | .and parts => (clausesOver columns parts).map (joinFragments " AND " "1=1")
  | .or parts => (clausesOver columns parts).map (joinFragments " OR " "1=0")
  | .check c => fragment? (columns c.path) c

def clausesOver (columns : Path → String) : List Expr → Option (List Fragment)
  | [] => some []
  | e :: rest =>
    (clauseOver columns e).bind fun f => (clausesOver columns rest).map (f :: ·)

end

/-- The joins of the query are those that the columns of the expression need. -/
structure Joined (e : Expr) (q : Query) : Prop where
  table : Table q.joins
  columns : ∃ columns : Path → String,
    clauseOver columns e = some ⟨q.whereClause, q.params⟩ ∧
      ∀ c ∈ e.checks, Spells q.joins (columns c.path) c.path.segments ∧
        ∀ t, Expands q.joins (columns c.path) t ↔ t = rootName ++ "." ++ c.path.storagePath
  isEmpty : q.joins = [] ↔ ∀ c ∈ e.checks, c.path.hasJoin = false

/-! ## Names of rows -/

theorem joinName_injective {m n : Nat} (h : joinName m = joinName n) : m = n := by
  have hlist := congrArg String.toList h
  simp only [joinName, String.toList_append, Nat.toString_eq_ofList_toDigits,
    String.toList_ofList] at hlist
  have hdigits := List.append_cancel_left hlist
  have hvalue := congrArg (Nat.ofDigitChars 10 · 0) hdigits
  simpa only [Nat.ofDigitChars_ten_toDigits] using hvalue

theorem joinName_ne_rootName (n : Nat) : joinName n ≠ rootName := by
  intro h
  have hlist := congrArg String.toList h
  rw [joinName, String.toList_append] at hlist
  have hhead := congrArg List.head? hlist
  simp [rootName] at hhead

theorem eq_or_isDigit_of_mem_joinName {n : Nat} {c : Char} (h : c ∈ (joinName n).toList) :
    c = 'j' ∨ c.isDigit = true := by
  simp only [joinName, String.toList_append, Nat.toString_eq_ofList_toDigits,
    String.toList_ofList] at h
  rcases List.mem_append.mp h with h | h
  · exact Or.inl (by simpa using h)
  · exact Or.inr (Nat.isDigit_of_mem_toDigits (by omega) (by omega) h)

theorem toList_headSegment (s : String) :
    (headSegment s).toList = s.toList.takeWhile (· != '.') := by
  rw [headSegment, String.toList_ofList]

theorem headSegment_append_behindHead (s : String) : headSegment s ++ behindHead s = s := by
  apply String.toList_injective
  rw [String.toList_append, toList_headSegment, behindHead, String.toList_ofList,
    List.takeWhile_append_dropWhile]

theorem headSegment_of_not_mem {s : String} (h : '.' ∉ s.toList) : headSegment s = s := by
  apply String.toList_injective
  rw [toList_headSegment, List.takeWhile_eq_self_iff]
  intro c hc
  rw [bne_iff_ne]
  rintro rfl
  exact h hc

theorem headSegment_joinName (n : Nat) : headSegment (joinName n) = joinName n := by
  apply headSegment_of_not_mem
  intro h
  have hdot := eq_or_isDigit_of_mem_joinName h
  revert hdot
  decide

theorem headSegment_dot (s name : String) : headSegment (s ++ "." ++ name) = headSegment s := by
  apply String.toList_injective
  simp only [toList_headSegment, String.toList_append]
  rw [List.append_assoc, List.takeWhile_append]
  split
  · rename_i hall
    rw [show ".".toList = ['.'] from rfl, List.singleton_append,
      List.takeWhile_cons_of_neg (by simp), List.append_nil]
    exact (List.takeWhile_prefix _).eq_of_length hall |>.symm
  · rfl

theorem behindHead_dot (s name : String) :
    behindHead (s ++ "." ++ name) = behindHead s ++ "." ++ name := by
  have h := headSegment_append_behindHead (s ++ "." ++ name)
  rw [headSegment_dot] at h
  have hs := headSegment_append_behindHead s
  apply String.toList_injective
  have hlist := congrArg String.toList h
  have hslist := congrArg String.toList hs
  simp only [String.toList_append] at hlist hslist ⊢
  rw [← hslist] at hlist
  simpa [List.append_assoc] using hlist

/-! ## Opening joins -/

variable {joins final : List Join} {source col current : String} {way segments : List Segment}

theorem openJoin_cases (joins : List Join) (source : String) :
    (∃ j ∈ joins, j.source = source ∧ openJoin joins source = (joins, j.name)) ∨
      (∀ j ∈ joins, j.source ≠ source) ∧ openJoin joins source =
        (joins ++ [⟨source, joinName (joins.length + 1)⟩], joinName (joins.length + 1)) := by
  unfold openJoin
  cases h : joins.find? (·.source == source) with
  | some j =>
    have hsource : j.source = source := by simpa using List.find?_some h
    exact Or.inl ⟨j, List.mem_of_find?_eq_some h, hsource, rfl⟩
  | none =>
    refine Or.inr ⟨fun j hj hsource => ?_, rfl⟩
    have hnone := List.find?_eq_none.mp h j hj
    exact hnone (by simp [hsource])

theorem prefix_openJoin (joins : List Join) (source : String) :
    joins <+: (openJoin joins source).1 := by
  rcases openJoin_cases joins source with ⟨j, -, -, h⟩ | ⟨-, h⟩
  · simp only [h, List.prefix_rfl]
  · simp only [h, List.prefix_append]

theorem exists_join_openJoin (joins : List Join) (source : String) :
    ∃ j ∈ (openJoin joins source).1, j.source = source ∧ j.name = (openJoin joins source).2 := by
  rcases openJoin_cases joins source with ⟨j, hj, hsource, h⟩ | ⟨-, h⟩
  · rw [h]
    exact ⟨j, hj, hsource, rfl⟩
  · rw [h]
    exact ⟨_, List.mem_append_right _ (List.mem_singleton_self _), rfl, rfl⟩

/-- A table that goes on from the one after opening has the join already. -/
theorem openJoin_of_prefix (h : (openJoin joins source).1 <+: final) :
    openJoin final source = (final, (openJoin joins source).2) := by
  obtain ⟨more, rfl⟩ := h
  conv_lhs => unfold openJoin
  cases hfind : joins.find? (·.source == source) with
  | some j => simp [openJoin, hfind]
  | none => simp [openJoin, hfind]

theorem concat_eq_append_cons {α : Type} {front before after : List α} {last x : α}
    (h : front ++ [last] = before ++ x :: after) :
    (front = before ∧ last = x) ∨ ∃ after, front = before ++ x :: after := by
  rcases List.eq_nil_or_concat after with rfl | ⟨after, y, rfl⟩
  · obtain ⟨hfront, hlast⟩ := List.append_inj' h rfl
    exact Or.inl ⟨hfront, List.singleton_inj.mp hlast⟩
  · rw [List.concat_eq_append, ← List.cons_append, ← List.append_assoc] at h
    exact Or.inr ⟨after, (List.append_inj' h rfl).1⟩

theorem table_nil : Table [] where
  names := rfl
  distinct := List.nodup_nil
  earlier before j after h := by simp at h

theorem table_openJoin (h : Table joins)
    (hsource : headSegment source ∈ rootName :: joins.map (·.name)) :
    Table (openJoin joins source).1 := by
  rcases openJoin_cases joins source with ⟨j, -, -, heq⟩ | ⟨hfresh, heq⟩
  · rw [heq]
    exact h
  rw [heq]
  refine ⟨?_, ?_, ?_⟩
  · rw [List.map_append, h.names, List.length_append, List.length_singleton, List.range_succ,
      List.map_append]
    rfl
  · rw [List.map_append, List.nodup_append]
    refine ⟨h.distinct, List.nodup_singleton _, ?_⟩
    rintro s hs t ht rfl
    obtain ⟨j, hj, rfl⟩ := List.mem_map.mp hs
    exact hfresh j hj (by simpa using ht)
  · intro before j after hsplit
    rcases concat_eq_append_cons hsplit with ⟨rfl, rfl⟩ | ⟨after, hjoins⟩
    · exact hsource
    · exact h.earlier before j after hjoins

theorem Table.nodup_names (h : Table joins) : (joins.map (·.name)).Nodup := by
  rw [h.names]
  refine List.Nodup.map (fun m n hname => ?_) List.nodup_range
  have := joinName_injective hname
  omega

theorem Table.name_eq (h : Table joins) {j : Join} (hj : j ∈ joins) :
    ∃ n, j.name = joinName n := by
  have hmem : j.name ∈ joins.map (·.name) := List.mem_map_of_mem hj
  rw [h.names] at hmem
  obtain ⟨i, -, hi⟩ := List.mem_map.mp hmem
  exact ⟨i + 1, hi.symm⟩

/-! ## Columns -/

theorem prefix_columnFrom (joins : List Join) (current : String) (segments : List Segment) :
    joins <+: (columnFrom joins current segments).1 := by
  induction segments generalizing joins current with
  | nil => exact List.prefix_rfl
  | cons s rest ih =>
    rw [columnFrom]
    split
    · exact (prefix_openJoin joins _).trans (ih _ _)
    · exact ih _ _

theorem columnFrom_of_prefix (h : (columnFrom joins current segments).1 <+: final) :
    columnFrom final current segments = (final, (columnFrom joins current segments).2) := by
  induction segments generalizing joins current with
  | nil => rfl
  | cons s rest ih =>
    rw [columnFrom] at h ⊢
    rw [columnFrom]
    split
    · rename_i hjoin
      rw [if_pos hjoin] at h
      have hopen := openJoin_of_prefix ((prefix_columnFrom _ _ rest).trans h)
      simp only [hopen]
      exact ih h
    · rename_i hjoin
      rw [if_neg hjoin] at h
      exact ih h

theorem headSegment_openJoin (h : Table (openJoin joins source).1) :
    headSegment (openJoin joins source).2 ∈
      rootName :: (openJoin joins source).1.map (·.name) := by
  obtain ⟨j, hj, -, hname⟩ := exists_join_openJoin joins source
  obtain ⟨n, hn⟩ := h.name_eq hj
  rw [← hname, hn, headSegment_joinName, ← hn]
  exact List.mem_cons_of_mem _ (List.mem_map_of_mem hj)

theorem table_columnFrom (h : Table joins)
    (hcurrent : headSegment current ∈ rootName :: joins.map (·.name)) (segments : List Segment) :
    Table (columnFrom joins current segments).1 := by
  induction segments generalizing joins current with
  | nil => exact h
  | cons s rest ih =>
    have hsource : headSegment (current ++ "." ++ s.storageName) ∈
        rootName :: joins.map (·.name) := by
      rw [headSegment_dot]
      exact hcurrent
    rw [columnFrom]
    split
    · have htable := table_openJoin h hsource
      exact ih htable (headSegment_openJoin htable)
    · exact ih h hsource

theorem Spells.mono (h : Spells joins col way) (hjoins : joins ⊆ final) :
    Spells final col way := by
  induction h with
  | root => exact .root
  | name hjoin _ ih => exact .name hjoin ih
  | join hjoin _ hj hsource ih => exact .join hjoin ih (hjoins hj) hsource

theorem spells_columnFrom (h : Spells joins current way) (segments : List Segment) :
    Spells (columnFrom joins current segments).1 (columnFrom joins current segments).2
      (way ++ segments) := by
  induction segments generalizing joins current way with
  | nil => simpa [columnFrom] using h
  | cons s rest ih =>
    rw [columnFrom, List.append_cons]
    split
    · rename_i hjoin
      obtain ⟨j, hj, hsource, hname⟩ := exists_join_openJoin joins (current ++ "." ++ s.storageName)
      have hopen := h.mono (prefix_openJoin joins (current ++ "." ++ s.storageName)).subset
      have hstep := Spells.join hjoin hopen hj hsource
      rw [hname] at hstep
      exact ih hstep
    · rename_i hjoin
      exact ih (.name (by simpa using hjoin) h)

theorem columnFrom_fst_eq_nil_iff :
    (columnFrom joins current segments).1 = [] ↔
      joins = [] ∧ ∀ s ∈ segments, s.kind.isJoin = false := by
  induction segments generalizing joins current with
  | nil => simp [columnFrom]
  | cons s rest ih =>
    rw [columnFrom, List.forall_mem_cons]
    cases hjoin : s.kind.isJoin with
    | false =>
      simp only [Bool.false_eq_true, if_false, true_and]
      exact ih
    | true =>
      simp only [if_true, Bool.true_eq_false, false_and, and_false, iff_false]
      obtain ⟨j, hj, -⟩ := exists_join_openJoin joins (current ++ "." ++ s.storageName)
      intro hnil
      rw [(ih.mp hnil).1] at hj
      exact List.not_mem_nil hj

/-! ## Following a column back -/

theorem Expands.unique (h : Table joins) {s t t' : String} (ht : Expands joins s t)
    (ht' : Expands joins s t') : t = t' := by
  have hname : ∀ {j : Join}, j ∈ joins → j.name ≠ rootName := by
    intro j hj
    obtain ⟨n, hn⟩ := h.name_eq hj
    rw [hn]
    exact joinName_ne_rootName n
  -- No two joins have one name, and none has that of the selected row: each step is the only one.
  induction ht with
  | root hs =>
    cases ht' with
    | root => rfl
    | join hj hs' => exact absurd (hs'.symm.trans hs) (hname hj)
  | @join s t j hj hs _ ih =>
    cases ht' with
    | root hs' => exact absurd (hs.symm.trans hs') (hname hj)
    | @join _ _ j' hj' hs' ht' =>
      obtain rfl : j = j' := List.inj_on_of_nodup_map h.nodup_names hj hj' (hs.symm.trans hs')
      exact ih ht'

theorem Expands.dot {s t : String} (h : Expands joins s t) (name : String) :
    Expands joins (s ++ "." ++ name) (t ++ "." ++ name) := by
  induction h with
  | root hs => exact .root (by rw [headSegment_dot]; exact hs)
  | join hj hs _ ih =>
    refine .join hj (by rw [headSegment_dot]; exact hs) ?_
    rw [behindHead_dot, ← String.append_assoc, ← String.append_assoc]
    exact ih

/-- The text of the way from the selected row. -/
def fullText (way : List Segment) : String :=
  way.foldl (fun text s => text ++ "." ++ s.storageName) rootName

theorem expands_fullText (h : Table joins) (hway : Spells joins col way) :
    Expands joins col (fullText way) := by
  induction hway with
  | root => exact .root (headSegment_of_not_mem (by decide))
  | name _ _ ih =>
    rw [fullText, List.foldl_append]
    exact ih.dot _
  | @join col way s j _ _ hj hsource ih =>
    have hbehind : behindHead j.name = "" := by
      obtain ⟨n, hn⟩ := h.name_eq hj
      have happend := headSegment_append_behindHead (joinName n)
      rw [headSegment_joinName, String.append_eq_left_iff] at happend
      rw [hn]
      exact happend
    have hhead : headSegment j.name = j.name := by
      obtain ⟨n, hn⟩ := h.name_eq hj
      rw [hn, headSegment_joinName]
    refine .join hj hhead ?_
    rw [hbehind, String.append_empty, hsource, fullText, List.foldl_append]
    exact ih.dot _

theorem fullText_eq {way : List Segment} (h : way ≠ []) :
    fullText way = rootName ++ "." ++ ".".intercalate (way.map (·.storageName)) := by
  induction way using List.reverseRecOn with
  | nil => exact absurd rfl h
  | append_singleton way s ih =>
    rw [fullText, List.foldl_append, List.map_append]
    change fullText way ++ "." ++ s.storageName = _
    by_cases hway : way = []
    · subst hway
      simp [fullText, String.intercalate_singleton]
    · rw [ih hway, String.intercalate_append_of_ne_nil (by simpa using hway) (by simp)]
      simp only [List.map_cons, List.map_nil, String.intercalate_singleton, String.append_assoc]

/-! ## The clause -/

variable {e : Expr} {es : List Expr} {f : Fragment} {fs : List Fragment}

theorem checkClause_eq_ok {c : Check} {r : List Join × Fragment}
    (h : checkClause joins c = .ok r) :
    r.1 = (column joins c.path).1 ∧ fragment? (column joins c.path).2 c = some r.2 := by
  unfold checkClause at h
  dsimp only at h
  split at h
  · rename_i hf
    cases h
    exact ⟨rfl, hf⟩
  · cases h

theorem clauses_cons_eq_ok {r : List Join × List Fragment}
    (h : clauses joins (e :: es) = .ok r) : ∃ first others, clause joins e = .ok first ∧
      clauses first.1 es = .ok others ∧ r = (others.1, first.2 :: others.2) := by
  rw [clauses] at h
  obtain ⟨first, hfirst, h⟩ := bind_eq_ok_iff.mp h
  obtain ⟨others, hothers, rfl⟩ := map_eq_ok_iff.mp h
  exact ⟨first, others, hfirst, hothers, rfl⟩

theorem render_eq_ok {q : Query} (h : render e = .ok q) :
    ∃ f, clause [] e = .ok (q.joins, f) ∧ f = ⟨q.whereClause, q.params⟩ := by
  obtain ⟨r, hr, rfl⟩ := map_eq_ok_iff.mp h
  exact ⟨r.2, hr, rfl⟩

/-- What rendering does to the joins for the sake of some checks: they stay a table, none is taken
away, the columns of the checks are found in any longer table, and a join is opened only where a
path needs one. -/
structure Grows (joins : List Join) (checks : List Check) (after : List Join) : Prop where
  append : joins <+: after
  table : Table joins → Table after
  found : ∀ final, after <+: final → ∀ c ∈ checks, (column final c.path).1 = final
  eq_nil_iff : after = [] ↔ joins = [] ∧ ∀ c ∈ checks, c.path.hasJoin = false

theorem grows_nil (joins : List Join) : Grows joins [] joins where
  append := List.prefix_rfl
  table := id
  found _ _ _ h := by cases h
  eq_nil_iff := by simp

theorem grows_check (joins : List Join) (c : Check) : Grows joins [c] (column joins c.path).1 where
  append := prefix_columnFrom joins rootName c.path.segments
  table h := by
    refine table_columnFrom h ?_ c.path.segments
    rw [headSegment_of_not_mem (by decide)]
    exact List.mem_cons_self
  found final hfinal d hd := by
    obtain rfl := List.mem_singleton.mp hd
    rw [column, columnFrom_of_prefix hfinal]
  eq_nil_iff := by
    rw [column, columnFrom_fst_eq_nil_iff, List.forall_mem_singleton, Path.hasJoin,
      List.any_eq_false]
    simp

theorem Grows.trans {mid after : List Join} {cs ds : List Check} (h : Grows joins cs mid)
    (h' : Grows mid ds after) : Grows joins (cs ++ ds) after where
  append := h.append.trans h'.append
  table := h'.table ∘ h.table
  found final hfinal c hc := by
    rcases List.mem_append.mp hc with hc | hc
    · exact h.found final (h'.append.trans hfinal) c hc
    · exact h'.found final hfinal c hc
  eq_nil_iff := by rw [h'.eq_nil_iff, h.eq_nil_iff, and_assoc, List.forall_mem_append]

mutual

theorem grows_clause : ∀ (e : Expr) (joins : List Join) {r : List Join × Fragment},
    clause joins e = .ok r → Grows joins e.checks r.1 ∧
      ∀ final, r.1 <+: final → clauseOver (fun p => (column final p).2) e = some r.2
  | .and parts, joins, r, h | .or parts, joins, r, h => by
    rw [clause] at h
    obtain ⟨q, hparts, rfl⟩ := map_eq_ok_iff.mp h
    obtain ⟨hgrows, hover⟩ := grows_clauses parts joins hparts
    refine ⟨hgrows, fun final hfinal => ?_⟩
    rw [clauseOver, hover final hfinal]
    rfl
  | .check c, joins, r, h => by
    obtain ⟨hjoins, hf⟩ := checkClause_eq_ok h
    rw [hjoins]
    refine ⟨grows_check joins c, fun final hfinal => ?_⟩
    rw [clauseOver, column, columnFrom_of_prefix hfinal]
    exact hf

theorem grows_clauses : ∀ (es : List Expr) (joins : List Join) {r : List Join × List Fragment},
    clauses joins es = .ok r → Grows joins (Expr.checksOf es) r.1 ∧
      ∀ final, r.1 <+: final → clausesOver (fun p => (column final p).2) es = some r.2
  | [], joins, r, h => by
    cases h
    exact ⟨grows_nil joins, fun _ _ => rfl⟩
  | e :: rest, joins, r, h => by
    obtain ⟨first, others, hfirst, hrest, rfl⟩ := clauses_cons_eq_ok h
    obtain ⟨hgrows, hover⟩ := grows_clause e joins hfirst
    obtain ⟨hgrows', hover'⟩ := grows_clauses rest first.1 hrest
    refine ⟨hgrows.trans hgrows', fun final hfinal => ?_⟩
    rw [clausesOver, hover final (hgrows'.append.trans hfinal), hover' final hfinal]
    rfl

end

/-! ## The joins of a query -/

theorem spells_column (h : Table joins) {p : Path} (hp : (column joins p).1 = joins)
    (hsegments : p.segments ≠ []) :
    Spells joins (column joins p).2 p.segments ∧
      ∀ t, Expands joins (column joins p).2 t ↔ t = rootName ++ "." ++ p.storagePath := by
  have hroot : Spells joins rootName [] := .root
  have hspells := spells_columnFrom hroot p.segments
  rw [List.nil_append] at hspells
  change Spells (column joins p).1 (column joins p).2 p.segments at hspells
  rw [hp] at hspells
  have hfull := expands_fullText h hspells
  rw [fullText_eq hsegments] at hfull
  refine ⟨hspells, fun t => ⟨fun ht => ht.unique h hfull, ?_⟩⟩
  rintro rfl
  exact hfull

/-- The joins of a rendered expression are numbered and have distinct sources, and each starts at
the selected row or at an earlier join. Following the column of a check back through them gives
the storage path of the check, with a join at just those segments that need one. -/
theorem joins_of_render {q : Query} (h : render e = .ok q)
    (hpaths : ∀ c ∈ e.checks, c.path.segments ≠ []) : Joined e q := by
  unfold render at h
  cases hclause : clause [] e with
  | error err => rw [hclause] at h; cases h
  | ok r =>
    rw [hclause] at h
    cases h
    obtain ⟨hgrows, hover⟩ := grows_clause e [] hclause
    have htable := hgrows.table table_nil
    refine ⟨htable, ⟨fun p => (column r.1 p).2, hover r.1 List.prefix_rfl, ?_⟩, ?_⟩
    · intro c hc
      exact spells_column htable (hgrows.found r.1 List.prefix_rfl c hc) (hpaths c hc)
    · rw [hgrows.eq_nil_iff]
      simp

def customer : Segment := ⟨"customer", "customer_id", .association .single⟩

/-- Two columns behind one association, and one that needs no join. -/
def taggedCustomer : Expr :=
  .and [.check ⟨⟨"Order", [customer, ⟨"name", "name", .scalar⟩], .scalar .text⟩, .isNull, .none⟩,
    .or [.check ⟨⟨"Order", [customer, ⟨"tags", "tags", .elementCollection⟩], .scalar .text⟩,
        .isNotNull, .none⟩,
      .check ⟨⟨"Order", [⟨"site", "site", .embedded⟩, ⟨"floor", "level", .scalar⟩], .scalar .u8⟩,
        .eq, .value ⟨.uint 3, .scalar .u8⟩⟩]]

theorem taggedCustomer_joined :
    Joined taggedCustomer
      ⟨[⟨"e.customer_id", "j1"⟩, ⟨"j1.tags", "j2"⟩],
        "(j1.name IS NULL AND (j2 IS NOT NULL OR e.site.level = ?))",
        [⟨.uint 3, .scalar .u8⟩]⟩ :=
  joins_of_render rfl (by simp [taggedCustomer, Expr.checks, Expr.checksOf])

end RecordFilter.Sql
