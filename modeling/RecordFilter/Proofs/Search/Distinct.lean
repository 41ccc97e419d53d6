import Mathlib.Logic.Relation
import RecordFilter.Proofs.Compile.Pairing
import RecordFilter.Proofs.Render.Joins

/-!
# Rows that come out more than once

A search asks for distinct rows where some path of its filter can have several values. The joins of
its clause say the same: each of them is opened by a segment of some path, and each segment that
leads to several values has a join.
-/

namespace RecordFilter

namespace Sql

/-! ## What opens a join -/

/-- After the joins `before`, the segment of one of the checks opens the join: the join starts where
the segments in front of it lead. -/
inductive Opens (checks : List Check) (before : List Join) (j : Join) : Segment → Prop
  | mk {c : Check} {way rest : List Segment} {s : Segment} {column : String} (hc : c ∈ checks)
      (hsegments : c.path.segments = way ++ s :: rest) (hjoin : s.kind.isJoin = true)
      (hway : Spells before column way) (hsource : j.source = column ++ "." ++ s.storageName) :
      Opens checks before j s

/-- One more join is opened by a segment of the checks. -/
def Opening (checks : List Check) (joins after : List Join) : Prop :=
  ∃ j s, Opens checks joins j s ∧ after = joins ++ [j]

variable {checks more : List Check} {joins before rest after : List Join} {j : Join} {s : Segment}
  {way segments : List Segment} {col current : String} {c : Check}

theorem Opens.mono (h : Opens checks before j s) (hmore : checks ⊆ more) :
    Opens more before j s := by
  obtain ⟨hc, hsegments, hjoin, hway, hsource⟩ := h
  exact .mk (hmore hc) hsegments hjoin hway hsource

open Relation (ReflTransGen)

theorem opened_mono (h : ReflTransGen (Opening checks) joins after) (hmore : checks ⊆ more) :
    ReflTransGen (Opening more) joins after := by
  have hstep : Opening checks ≤ Opening more := by
    rintro joins after ⟨j, s, hopens, hafter⟩
    exact ⟨j, s, hopens.mono hmore, hafter⟩
  exact ReflTransGen.mono hstep joins after h

theorem exists_opens (h : ReflTransGen (Opening checks) [] after)
    (hafter : after = before ++ j :: rest) : ∃ s, Opens checks before j s := by
  induction h generalizing rest with
  | refl => simp at hafter
  | tail _ hstep ih =>
    obtain ⟨last, s, hopens, rfl⟩ := hstep
    rcases concat_eq_append_cons hafter with ⟨rfl, rfl⟩ | ⟨rest, hafter⟩
    · exact ⟨s, hopens⟩
    · exact ih hafter

theorem opened_columnFrom (hc : c.path.segments = way ++ segments)
    (hway : Spells joins current way) :
    ReflTransGen (Opening [c]) joins (columnFrom joins current segments).1 := by
  induction segments generalizing joins current way with
  | nil => exact .refl
  | cons s rest ih =>
    have hrest : c.path.segments = (way ++ [s]) ++ rest := by simp [hc]
    rw [columnFrom]
    split
    · rename_i hjoin
      rcases openJoin_cases joins (current ++ "." ++ s.storageName) with
        ⟨j, hj, hsource, heq⟩ | ⟨-, heq⟩
      · rw [heq]
        exact ih hrest (.join hjoin hway hj hsource)
      · rw [heq]
        refine .head ⟨_, s, .mk (List.mem_singleton_self c) hc hjoin hway rfl, rfl⟩ (ih hrest ?_)
        exact .join hjoin (hway.mono (List.subset_append_left _ _))
          (List.mem_append_right _ (List.mem_singleton_self _)) rfl
    · rename_i hjoin
      exact ih hrest (.name (by simpa using hjoin) hway)

mutual

theorem opened_clause : ∀ (e : Expr) (joins : List Join) {r : List Join × Fragment},
    clause joins e = .ok r → ReflTransGen (Opening e.checks) joins r.1
  | .and parts, joins, r, h | .or parts, joins, r, h => by
    rw [clause] at h
    obtain ⟨q, hparts, rfl⟩ := map_eq_ok_iff.mp h
    exact opened_clauses parts joins hparts
  | .check c, joins, r, h => by
    rw [(checkClause_eq_ok h).1]
    exact opened_columnFrom (List.nil_append _).symm .root

theorem opened_clauses : ∀ (es : List Expr) (joins : List Join) {r : List Join × List Fragment},
    clauses joins es = .ok r → ReflTransGen (Opening (Expr.checksOf es)) joins r.1
  | [], joins, r, h => by
    cases h
    exact .refl
  | e :: rest, joins, r, h => by
    obtain ⟨first, others, hfirst, hrest, rfl⟩ := clauses_cons_eq_ok h
    have hopened := opened_clause e joins hfirst
    have hopened' := opened_clauses rest first.1 hrest
    exact (opened_mono hopened (List.subset_append_left _ _)).trans
      (opened_mono hopened' (List.subset_append_right _ _))

end

/-! ## The joins on a way -/

theorem Spells.exists_join {rest : List Segment} (h : Spells joins col segments)
    (hsegments : segments = way ++ s :: rest) (hjoin : s.kind.isJoin = true) :
    ∃ j ∈ joins, ∃ column, Spells joins column way ∧ j.source = column ++ "." ++ s.storageName := by
  induction h generalizing rest with
  | root => simp at hsegments
  | name hname _ ih =>
    rcases concat_eq_append_cons hsegments with ⟨-, rfl⟩ | ⟨rest, hfront⟩
    · rw [hname] at hjoin
      cases hjoin
    · exact ih hfront
  | join _ hway hj hsource ih =>
    rcases concat_eq_append_cons hsegments with ⟨rfl, rfl⟩ | ⟨rest, hfront⟩
    · exact ⟨_, hj, _, hway, hsource⟩
    · exact ih hfront

theorem expands_source_iff (htable : Table joins) (hway : Spells joins col way)
    (hsource : j.source = col ++ "." ++ s.storageName) (t : String) :
    Expands joins j.source t ↔
      t = rootName ++ "." ++ ".".intercalate ((way ++ [s]).map (·.storageName)) := by
  have hfull : Expands joins j.source (fullText (way ++ [s])) := by
    rw [hsource, fullText, List.foldl_append]
    exact (expands_fullText htable hway).dot s.storageName
  rw [fullText_eq (by simp)] at hfull
  refine ⟨fun ht => ht.unique htable hfull, ?_⟩
  rintro rfl
  exact hfull

end Sql

/-! ## The theorem -/

/-- Asking for distinct rows goes with the joins of the query. A search that does not ask for them
has joins that associations to one row open. Where a segment leads to several values the search asks
for them, and the segment has a join whose source leads back to the storage path up to it. -/
structure CompiledSearch.DistinctFor (s : CompiledSearch) (q : Sql.Query) : Prop where
  single : s.distinct = false → ∀ before j after, q.joins = before ++ j :: after →
    ∃ segment, segment.kind = .association .single ∧ Sql.Opens s.filter.checks before j segment
  many : ∀ c ∈ s.filter.checks, ∀ way segment rest, c.path.segments = way ++ segment :: rest →
    segment.kind.isMany = true → s.distinct = true ∧ ∃ j ∈ q.joins, ∀ t,
      Sql.Expands q.joins j.source t ↔
        t = Sql.rootName ++ "." ++ ".".intercalate ((way ++ [segment]).map (·.storageName))

theorem SegmentKind.eq_single_of_isJoin {k : SegmentKind} (hjoin : k.isJoin = true)
    (hmany : k.isMany = false) : k = .association .single := by
  cases k with
  | association card => cases card <;> first | rfl | cases hmany
  | elementCollection => cases hmany
  | _ => cases hjoin

theorem SegmentKind.isMany_iff {k : SegmentKind} :
    k.isMany = true ↔ k = .association .many ∨ k = .elementCollection := by
  cases k with
  | association card => cases card <;> simp [isMany]
  | _ => simp [isMany]

namespace CompiledSearch

theorem distinct_iff {s : CompiledSearch} : s.distinct = true ↔
    ∃ c ∈ s.filter.checks, ∃ segment ∈ c.path.segments, segment.kind.isMany = true := by
  simp [distinct, Expr.isMany, Path.isMany]

theorem distinctFor_of_render {s : CompiledSearch} {q : Sql.Query}
    (h : Sql.render s.filter = .ok q) : s.DistinctFor q := by
  obtain ⟨f, hclause, -⟩ := Sql.render_eq_ok h
  obtain ⟨hgrows, -⟩ := Sql.grows_clause s.filter [] hclause
  have htable : Sql.Table q.joins := hgrows.table Sql.table_nil
  constructor
  · intro hdistinct before j after hjoins
    obtain ⟨segment, hopens⟩ := Sql.exists_opens (Sql.opened_clause s.filter [] hclause) hjoins
    refine ⟨segment, ?_, hopens⟩
    obtain ⟨hc, hsegments, hjoin, -, -⟩ := hopens
    refine SegmentKind.eq_single_of_isJoin hjoin (Bool.eq_false_iff.mpr fun hmany => ?_)
    have htrue := distinct_iff.mpr ⟨_, hc, segment, by simp [hsegments], hmany⟩
    rw [hdistinct] at htrue
    cases htrue
  · intro c hc way segment rest hsegments hmany
    refine ⟨distinct_iff.mpr ⟨c, hc, segment, by simp [hsegments], hmany⟩, ?_⟩
    have hne : c.path.segments ≠ [] := by simp [hsegments]
    obtain ⟨hspells, -⟩ := Sql.spells_column htable (hgrows.found _ List.prefix_rfl c hc) hne
    obtain ⟨j, hj, column, hway, hsource⟩ :=
      hspells.exists_join hsegments (SegmentKind.isJoin_of_isMany hmany)
    exact ⟨j, hj, Sql.expands_source_iff htable hway hsource⟩

/-- A search asks for distinct rows where some segment of its filter leads to several values, and
this is what the joins of its clause tell. -/
theorem distinct_of_joins (s : CompiledSearch) :
    (s.distinct = true ↔ ∃ c ∈ s.filter.checks, ∃ segment ∈ c.path.segments,
        segment.kind = .association .many ∨ segment.kind = .elementCollection) ∧
      (∀ q, Sql.render s.filter = .ok q → s.DistinctFor q) ∧
        ∀ (c : Compiler) root o, c.search root o = .ok s → ∃ q, Sql.render s.filter = .ok q := by
  refine ⟨?_, fun q hq => distinctFor_of_render hq, ?_⟩
  · simp only [distinct_iff, SegmentKind.isMany_iff]
  · intro c root o hsearch
    exact Sql.exists_render (Compiler.Makes.search hsearch).wellPaired

end CompiledSearch

end RecordFilter
