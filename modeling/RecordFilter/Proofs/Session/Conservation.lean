import Mathlib.Data.Bool.Count
import RecordFilter.Proofs.Session.Jobs

/-!
# The metrics account for the calls

After a reset, the metrics of any calls are the sum of what each of them has to count, whatever
engines, coercers and schemas they share and whatever was remembered before. The sum is kept in
words, and fewer calls than there are words may have more to count than a word can hold.
-/

namespace RecordFilter

open RecordFilter.Number

/-! ## Calls and their jobs -/

namespace Pool

/-- What a call asks of a compiler without memory, if it names what the pool holds. -/
def job? (p : Pool) : Call → Option Job
  | .run i j k settings task =>
    match p.engines[i]?, p.coercers[j]?, p.schemas[k]? with
    | some e, some c, some root =>
      some ⟨⟨(e.under settings).settings, c.forget⟩, root.schema, task⟩
    | _, _, _ => none
  | .build .. | .clone _ | .coerce .. => none

/-- What the calls ask, one after the other. -/
def jobs (p : Pool) : List Call → List Job
  | [] => []
  | call :: rest => (p.job? call).toList ++ jobs (p.perform call).2 rest

/-- What the calls have to count. -/
def tally (p : Pool) (calls : List Call) : Tally where
  compileCalls := (p.replies calls).countP Reply.isSearch
  compileFailures := (p.replies calls).countP Reply.isFailedSearch
  comparisons := ((p.jobs calls).flatMap Job.lowered).length
  terms := ((p.jobs calls).flatMap Job.terms).length
  skipped := ((p.jobs calls).flatMap Job.skipped).length

/-- The metrics are those of the calls. -/
structure Accounts (p : Pool) (calls : List Call) (m : Metrics) : Prop where
  /-- The counters of the whole program wrap around. Each schema has its share of the tally, and its
  counters stay at the greatest word. -/
  words : ∃ shares, (shares.map Prod.snd).sum = p.tally calls ∧ m.Holds (p.tally calls) shares
  /-- Numbers that fit a word are counted by the whole program and by the schemas together. -/
  counted : ∀ counter, (p.tally calls).get counter < 2 ^ 64 →
    m.Counts counter ((p.tally calls).get counter)
  /-- The searches and those that fail are as few as the calls. -/
  searches : calls.length < 2 ^ 64 → ∀ counter ∈ [Counter.compileCalls, .compileFailures],
    m.Counts counter ((p.tally calls).get counter)
  /-- Each resolution is a hit or a miss, and one that fails is a miss. -/
  resolutions : ∃ hits : List Bool,
    hits.Forall₂ (fun hit result => hit = true → result.isOk = true)
      ((p.jobs calls).flatMap Job.resolutions) ∧
    m.paths = ⟨wrapped (hits.count true), wrapped (hits.count false)⟩
  /-- If their number fits a word, hits and misses come to it. -/
  attempts : ((p.jobs calls).flatMap Job.resolutions).length < 2 ^ 64 →
    m.paths.hits.toNat + m.paths.misses.toNat = ((p.jobs calls).flatMap Job.resolutions).length

theorem run_of_some {p : Pool} (hp : p.Sound) {i j k : Nat} {e : Engine} {c : Coercer}
    {root : KnownSchema} (he : p.engines[i]? = some e) (hc : p.coercers[j]? = some c)
    (hroot : p.schemas[k]? = some root) (settings : Settings) (task : Task) :
    let job : Job := ⟨⟨(e.under settings).settings, c.forget⟩, root.schema, task⟩
    p.job? (.run i j k settings task) = some job ∧
      (p.perform (.run i j k settings task)).1 = job.answer ∧
        (p.events (.run i j k settings task)).Forall₂ Event.Within job.events := by
  intro job
  refine ⟨by rw [job?, he, hc, hroot], run_eq_answer hp he hc hroot settings task, ?_⟩
  have hserves := serves hp (List.mem_of_getElem? he) (List.mem_of_getElem? hc) settings
  obtain ⟨reported, hevents, hwithin⟩ :=
    Work.reports_work hp.identified (List.mem_of_getElem? hroot) task _ hserves
  rw [events, he, hc, hroot]
  show (StateT.run (task.work root) _).2.events.Forall₂ _ _
  rw [hevents]
  exact hwithin

theorem perform_cases {p : Pool} (hp : p.Sound) (call : Call) :
    (∃ j, p.job? call = some j ∧ (p.perform call).1 = j.answer ∧
        (p.events call).Forall₂ Event.Within j.events) ∨
      p.job? call = none ∧ (p.perform call).1.isSearch = false ∧ p.events call = [] := by
  cases call with
  | build name fields aliases =>
    refine .inr ⟨rfl, ?_, rfl⟩
    rw [perform, build]
    split <;> rfl
  | clone i =>
    refine .inr ⟨rfl, ?_, rfl⟩
    rw [perform, clone]
    split <;> rfl
  | coerce i target raw =>
    refine .inr ⟨rfl, ?_, rfl⟩
    rw [perform, coerce]
    split <;> rfl
  | run i j k settings task =>
    cases he : p.engines[i]? with
    | none => exact .inr (by simp [perform, run, job?, events, he, Reply.isSearch])
    | some e =>
      cases hc : p.coercers[j]? with
      | none => exact .inr (by simp [perform, run, job?, events, he, hc, Reply.isSearch])
      | some c =>
        cases hroot : p.schemas[k]? with
        | none => exact .inr (by simp [perform, run, job?, events, he, hc, hroot, Reply.isSearch])
        | some root => exact .inl ⟨_, run_of_some hp he hc hroot settings task⟩

theorem within_allEvents {p : Pool} (hp : p.Sound) (calls : List Call) :
    (p.allEvents calls).Forall₂ Event.Within ((p.jobs calls).flatMap Job.events) := by
  induction calls generalizing p with
  | nil => exact .nil
  | cons call rest ih =>
    have hrest := ih (sound_perform hp call)
    rw [allEvents, jobs]
    rcases perform_cases hp call with ⟨j, hj, -, hwithin⟩ | ⟨hj, -, hevents⟩
    · rw [hj, Option.toList_some, List.singleton_append, List.flatMap_cons]
      exact List.rel_append hwithin hrest
    · rw [hj, hevents]
      exact hrest

theorem countP_replies {p : Pool} (hp : p.Sound) {f : Reply → Bool}
    (hf : ∀ r : Reply, r.isSearch = false → f r = false) (calls : List Call) :
    (p.replies calls).countP f = ((p.jobs calls).map fun j => [j.answer].countP f).sum := by
  induction calls generalizing p with
  | nil => rfl
  | cons call rest ih =>
    rw [replies, jobs, List.map_append, List.sum_append, ← ih (sound_perform hp call)]
    rcases perform_cases hp call with ⟨j, hj, hreply, -⟩ | ⟨hj, hreply, -⟩
    · rw [hj, hreply]
      simp [List.countP_cons, Nat.add_comm]
    · rw [hj, List.countP_cons, hf _ hreply]
      simp

/-- What the calls report is what they have to count. -/
theorem ofEvents_allEvents {p : Pool} (hp : p.Sound) (calls : List Call) :
    Tally.ofEvents (p.allEvents calls) = p.tally calls := by
  rw [Tally.ofEvents_congr (within_allEvents hp calls), Tally.ofEvents_flatMap]
  simp only [Job.ofEvents_events]
  refine Tally.eq_of_get fun counter => ?_
  rw [Tally.get_sum, List.map_map]
  cases counter with
  | compileCalls => exact (countP_replies hp (fun _ => id) calls).symm
  | compileFailures =>
    have hsearch (r : Reply) (h : r.isSearch = false) : r.isFailedSearch = false := by
      cases r <;> first | rfl | cases h
    exact (countP_replies hp hsearch calls).symm
  | comparisons | terms | skipped => exact List.length_flatMap.symm

theorem exists_hits {p : Pool} (hp : p.Sound) (calls : List Call) : ∃ hits : List Bool,
    hits.Forall₂ (fun hit result => hit = true → result.isOk = true)
      ((p.jobs calls).flatMap Job.resolutions) ∧
    (p.metrics calls).paths = ⟨wrapped (hits.count true), wrapped (hits.count false)⟩ := by
  refine ⟨(p.allEvents calls).filterMap Event.hit?, ?_, ?_⟩
  · have hhits := Event.hits_of_within (within_allEvents hp calls)
    rw [List.filterMap_flatMap] at hhits
    simp only [Job.hits_events] at hhits
    rw [← List.map_flatMap, List.forall₂_map_right_iff] at hhits
    exact hhits
  · rw [metrics, Metrics.paths_count, UInt64.zero_add, UInt64.zero_add]

/-- The tallies of the schemas that the calls are made on. -/
def shares (p : Pool) (calls : List Call) : List (String × Tally) :=
  (p.allEvents calls).foldl shareOut []

theorem sum_shares {p : Pool} (hp : p.Sound) (calls : List Call) :
    ((p.shares calls).map Prod.snd).sum = p.tally calls := by
  rw [shares, sum_foldl_shareOut, ofEvents_allEvents hp, List.map_nil, List.sum_nil, zero_add]

theorem holds_metrics {p : Pool} (hp : p.Sound) (calls : List Call) :
    (p.metrics calls).Holds (p.tally calls) (p.shares calls) := by
  have hholds := Metrics.holds_empty.count (p.allEvents calls)
  rwa [ofEvents_allEvents hp, zero_add] at hholds

theorem length_replies (p : Pool) (calls : List Call) :
    (p.replies calls).length = calls.length := by
  induction calls generalizing p with
  | nil => rfl
  | cons call rest ih => rw [replies, List.length_cons, ih, List.length_cons]

theorem get_tally_le {p : Pool} {calls : List Call} {counter : Counter}
    (hcounter : counter ∈ [Counter.compileCalls, .compileFailures]) :
    (p.tally calls).get counter ≤ calls.length := by
  rw [← length_replies p]
  simp only [List.mem_cons, List.not_mem_nil, or_false] at hcounter
  rcases hcounter with rfl | rfl
  · exact List.countP_le_length
  · exact List.countP_le_length

theorem accounts_metrics {p : Pool} (hp : p.Sound) (calls : List Call) :
    p.Accounts calls (p.metrics calls) := by
  have hsum := sum_shares hp calls
  have hholds := holds_metrics hp calls
  obtain ⟨hits, hresults, hpaths⟩ := exists_hits hp calls
  refine ⟨⟨p.shares calls, hsum, hholds⟩, fun counter => hholds.counts hsum,
    fun hlength counter hcounter => ?_, ⟨hits, hresults, hpaths⟩, fun hfits => ?_⟩
  · exact hholds.counts hsum ((get_tally_le hcounter).trans_lt hlength)
  · have hcount : hits.count true + hits.count false = hits.length :=
      hits.count_true_add_count_false
    rw [← hresults.length_eq] at hfits ⊢
    rw [hpaths, toNat_wrapped, toNat_wrapped]
    omega

/-! ## The theorem -/

/-- After a reset the metrics account for the calls, whatever was called before. -/
theorem metrics_account_for_calls (own : List (List OwnStrategy)) (settings : List Settings)
    (earlier calls : List Call) :
    let p := (start own settings).after earlier
    p.Accounts calls (p.metrics calls) :=
  accounts_metrics (sound_after (sound_start own settings) earlier) calls

def pupilFields : List Field := [⟨"age", none, .scalar .u8, .single, .scalar, none⟩]

/-- A search that is sorted, two that ask for a field that is not there, and a keyword. -/
def pupilCalls (s : Settings) : List Call :=
  let aged := Filter.test "age" .eq ["7"]
  let nameless := Filter.test "name" .eq ["7"]
  [.run 0 0 0 s (.search { filter := some aged, sort := [{ property := "age" }] }),
    .run 0 0 0 s (.search { filter := some (.and [aged, nameless, aged]) }),
    .run 0 0 0 s (.search { filter := some (.and [aged, nameless, aged]) }),
    .run 0 0 0 s (.traverse [] "7")]

theorem pupils_accounted :
    let p := (start [[]] [{}]).after [.build "Pupil" pupilFields []]
    let m := p.metrics (pupilCalls {})
    p.Accounts (pupilCalls {}) m ∧ m.Counts .compileCalls 3 ∧ m.Counts .compileFailures 2 ∧
      m.totals = ⟨3, 2, 3, 1, 0⟩ ∧ m.paths = ⟨3, 3⟩ := by
  intro p m
  have haccounts := metrics_account_for_calls [[]] [{}] [.build "Pupil" pupilFields []]
    (pupilCalls {})
  have htally : (p.tally (pupilCalls {})).get .compileCalls = 3 ∧
      (p.tally (pupilCalls {})).get .compileFailures = 2 := by decide +kernel
  have hcounts := haccounts.searches (by decide)
  refine ⟨haccounts, ?_, ?_, by decide +kernel, by decide +kernel⟩
  · exact htally.1 ▸ hcounts .compileCalls (by simp)
  · exact htally.2 ▸ hcounts .compileFailures (by simp)

/-! ## Counters that wrap around -/

theorem allEvents_replicate {p : Pool} {call : Call} (h : (p.perform call).2 = p) (n : Nat) :
    p.allEvents (List.replicate n call) = (List.replicate n (p.events call)).flatten := by
  induction n with
  | zero => rfl
  | succ n ih =>
    rw [List.replicate_succ, allEvents, h, ih, List.replicate_succ, List.flatten_cons]

/-- A filter with two comparisons. -/
def agedTwice (s : Settings) : Call :=
  let aged := Filter.test "age" .eq ["7"]
  .run 0 0 0 s (.compile (.and [aged, aged]))

/-- Pupils whose ages were compared before. -/
def pupils (s : Settings) : Pool :=
  (start [[]] [s]).after [.build "Pupil" pupilFields [], agedTwice s]

def agedEvents : List Event :=
  [.pathCache true, .comparison "Pupil" .eq, .pathCache true, .comparison "Pupil" .eq]

theorem allEvents_agedTwice (n : Nat) :
    (pupils {}).allEvents (List.replicate n (agedTwice {})) =
      (List.replicate n agedEvents).flatten := by
  have hevents : (pupils {}).events (agedTwice {}) = agedEvents := by decide +kernel
  have hstays : ((pupils {}).perform (agedTwice {})).2 = pupils {} := rfl
  rw [allEvents_replicate hstays, hevents]

theorem shares_agedEvents (n k : Nat) :
    (List.replicate n agedEvents).flatten.foldl shareOut [("Pupil", { comparisons := k })] =
      [("Pupil", { comparisons := k + 2 * n })] := by
  induction n generalizing k with
  | zero => rfl
  | succ n ih =>
    have hround : agedEvents.foldl shareOut [("Pupil", { comparisons := k })] =
        [("Pupil", { comparisons := k + 2 })] := rfl
    rw [List.replicate_succ, List.flatten_cons, List.foldl_append, hround, ih, Nat.add_assoc,
      Nat.mul_succ, Nat.add_comm 2]

theorem shares_agedTwice {n : Nat} (hn : 0 < n) :
    (pupils {}).shares (List.replicate n (agedTwice {})) =
      [("Pupil", { comparisons := 2 * n })] := by
  obtain ⟨n, rfl⟩ := Nat.exists_eq_add_of_lt hn
  have hfirst : agedEvents.foldl shareOut [] = [("Pupil", { comparisons := 2 })] := rfl
  rw [shares, allEvents_agedTwice, Nat.zero_add, List.replicate_succ, List.flatten_cons,
    List.foldl_append, hfirst, shares_agedEvents, Nat.mul_succ, Nat.add_comm 2]

/-- Calls that are fewer than the words, and compare as often as there are words. The counter of
the whole program is at zero again, and that of the schema at the greatest word. -/
theorem pupils_wrapped :
    let p := (start [[]] [{}]).after [.build "Pupil" pupilFields [], agedTwice {}]
    let calls := List.replicate (2 ^ 63) (agedTwice {})
    let m := p.metrics calls
    calls.length < 2 ^ 64 ∧ (p.tally calls).comparisons = 2 ^ 64 ∧
      m.totals.comparisons = 0 ∧ m.schemas = [("Pupil", { comparisons := greatestWord })] ∧
        m.totals.comparisons.toNat ≠ (m.schemas.map fun entry => entry.2.comparisons.toNat).sum := by
  intro p calls m
  have hp : p.Sound := sound_after (sound_start [[]] [{}]) _
  have hshares : p.shares calls = [("Pupil", { comparisons := 2 ^ 64 })] :=
    shares_agedTwice (by decide)
  have htally : p.tally calls = { comparisons := 2 ^ 64 } := by
    rw [← sum_shares hp, hshares]
    exact List.sum_singleton
  have hholds : m.Holds { comparisons := 2 ^ 64 } [("Pupil", { comparisons := 2 ^ 64 })] := by
    have hholds := holds_metrics hp calls
    rwa [htally, hshares] at hholds
  have htotals : m.totals.comparisons = 0 := by
    rw [hholds.totals]
    rfl
  have hschemas : m.schemas = [("Pupil", { comparisons := greatestWord })] := by
    rw [hholds.schemas]
    rfl
  refine ⟨?_, by rw [htally], htotals, hschemas, ?_⟩
  · rw [List.length_replicate]
    decide
  · rw [htotals, hschemas]
    decide

end Pool

end RecordFilter
