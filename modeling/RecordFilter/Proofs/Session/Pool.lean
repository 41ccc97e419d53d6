import RecordFilter.Proofs.Session.Engine
import RecordFilter.Session.Pool

/-!
# Memory cannot be observed

Whatever the calls of a pool share, each gives what it gives where nothing is remembered. The
invariant: what coercers remember is true, what engines remember holds for the schemas of the pool,
and an identity belongs to one schema.
-/

namespace RecordFilter

/-- The answer to a task by a compiler that remembers nothing. -/
def Task.answer (c : Compiler) (root : Schema) : Task → Reply
  | resolve selector => .path (c.resolve root selector)
  | targets propagate => .targets (c.targets root propagate)
  | traverse propagate keyword => .expr (c.traverse root propagate keyword)
  | compile f => .compiled (c.compile root f)
  | search o => .found (c.search root o)

theorem Task.gives_work {schemas : List KnownSchema} {c : Compiler} (hid : Identified schemas)
    {root : KnownSchema} (hroot : root ∈ schemas) (task : Task) :
    Work.Gives schemas c (task.work root) (task.answer c root.schema) := by
  cases task with
  | resolve selector => exact (Work.gives_resolve hid hroot selector).map _
  | targets propagate => exact (Work.gives_targets hid hroot propagate).map _
  | traverse propagate keyword => exact (Work.gives_traverse hid hroot propagate keyword).map _
  | compile f => exact (Work.gives_compile hid hroot f).map _
  | search o => exact (Work.gives_search hid hroot o).map _

namespace Engine

theorem Consistent.mono {schemas more : List KnownSchema} {e : Engine} (h : e.Consistent schemas)
    (hsub : schemas ⊆ more) : e.Consistent more where
  paths entry hmem := by
    obtain ⟨k, hk, hp⟩ := h.paths entry hmem
    exact ⟨k, hsub hk, hp⟩
  targets entry hmem := by
    obtain ⟨k, hk, hts⟩ := h.targets entry hmem
    exact ⟨k, hsub hk, hts⟩

theorem Consistent.under {schemas : List KnownSchema} {e : Engine} (h : e.Consistent schemas)
    (s : Settings) : (e.under s).Consistent schemas := ⟨h.paths, h.targets⟩

theorem consistent_forget (schemas : List KnownSchema) (e : Engine) :
    e.forget.Consistent schemas := by
  constructor <;> exact fun _ h => nomatch h

theorem Consistent.restore {schemas : List KnownSchema} {e d : Engine} (h : d.Consistent schemas)
    (hd : d.settings.maxDepth = e.settings.maxDepth) :
    Consistent schemas { d with settings := e.settings } := by
  constructor
  · simpa only [← hd] using h.paths
  · simpa only [← hd] using h.targets

end Engine

namespace Pool

/-- What holds in a pool at all times. -/
structure Sound (p : Pool) : Prop where
  identified : Identified p.schemas
  fresh : ∀ k ∈ p.schemas, k.identity < p.nextIdentity
  coercers : ∀ c ∈ p.coercers, c.Truthful
  engines : ∀ e ∈ p.engines, e.Consistent p.schemas

theorem sound_start (own : List (List OwnStrategy)) (settings : List Settings) :
    (start own settings).Sound where
  identified := fun _ h => nomatch h
  fresh := fun _ h => nomatch h
  coercers c hc := by
    obtain ⟨ps, -, rfl⟩ := List.mem_map.mp hc
    exact fun _ h => nomatch h
  engines e he := by
    obtain ⟨s, -, rfl⟩ := List.mem_map.mp he
    exact Engine.consistent_forget _ { settings := s }

theorem sound_forget {p : Pool} (hp : p.Sound) : p.forget.Sound where
  identified := hp.identified
  fresh := hp.fresh
  coercers c hc := by
    obtain ⟨d, -, rfl⟩ := List.mem_map.mp hc
    exact d.truthful_forget
  engines e he := by
    obtain ⟨d, -, rfl⟩ := List.mem_map.mp he
    exact d.consistent_forget _

/-! ## One call -/

theorem sound_addSchema {p : Pool} (hp : p.Sound) {k : KnownSchema} {next : Nat}
    (hnext : p.nextIdentity ≤ next) (hk : k.identity < next)
    (hsame : ∀ k' ∈ p.schemas, k'.identity = k.identity → k'.schema = k.schema) :
    (p.addSchema k next).2.Sound where
  identified a ha b hb hab := by
    rcases List.mem_append.mp ha with ha' | ha' <;> rcases List.mem_append.mp hb with hb' | hb'
    · exact hp.identified a ha' b hb' hab
    · rw [List.mem_singleton.mp hb'] at hab ⊢
      exact hsame a ha' hab
    · rw [List.mem_singleton.mp ha'] at hab ⊢
      exact (hsame b hb' hab.symm).symm
    · rw [List.mem_singleton.mp ha', List.mem_singleton.mp hb']
  fresh a ha := by
    rcases List.mem_append.mp ha with ha' | ha'
    · exact Nat.lt_of_lt_of_le (hp.fresh a ha') hnext
    · rw [List.mem_singleton.mp ha']
      exact hk
  coercers := hp.coercers
  engines e he := (hp.engines e he).mono (List.subset_append_left _ _)

theorem serves {p : Pool} (hp : p.Sound) {e : Engine} {c : Coercer} (he : e ∈ p.engines)
    (hc : c ∈ p.coercers) (settings : Settings) :
    Engine.Run.Serves p.schemas ⟨(e.under settings).settings, c.forget⟩
      { engine := e.under settings, coercer := c } :=
  ⟨rfl, rfl, hp.coercers c hc, (hp.engines e he).under settings⟩

theorem run_task {p : Pool} (hp : p.Sound) {e : Engine} {c : Coercer} {root : KnownSchema}
    (he : e ∈ p.engines) (hc : c ∈ p.coercers) (hroot : root ∈ p.schemas) (settings : Settings)
    (task : Task) :
    let r := StateT.run (task.work root) { engine := e.under settings, coercer := c }
    r.1 = task.answer ⟨(e.under settings).settings, c.forget⟩ root.schema ∧
      r.2.coercer.forget = c.forget ∧ r.2.coercer.Truthful ∧
      Engine.Consistent p.schemas { r.2.engine with settings := e.settings } := by
  obtain ⟨hanswer, hleft⟩ :=
    task.gives_work hp.identified hroot _ (serves hp he hc settings)
  refine ⟨hanswer, hleft.coercer, hleft.truthful, hleft.consistent.restore ?_⟩
  rw [hleft.settings]
  rfl

theorem sound_build {p : Pool} (hp : p.Sound) (name : String) (fields : List Field)
    (aliases : List (String × String)) : (p.build name fields aliases).2.Sound := by
  unfold build
  split
  · exact hp
  · rename_i s _
    apply sound_addSchema hp (Nat.le_succ _) (Nat.lt_succ_self _)
    intro k hk hident
    exact absurd hident (Nat.ne_of_lt (hp.fresh k hk))

theorem sound_clone {p : Pool} (hp : p.Sound) (i : Nat) : (p.clone i).2.Sound := by
  unfold clone
  split
  · exact hp
  · rename_i k hk
    have hmem : k ∈ p.schemas := List.mem_of_getElem? hk
    exact sound_addSchema hp (Nat.le_refl _) (hp.fresh k hmem)
      fun k' hk' hident => hp.identified k' hk' k hmem hident

theorem sound_coerce {p : Pool} (hp : p.Sound) (i : Nat) (target : FieldType) (raw : String) :
    (p.coerce i target raw).2.Sound := by
  unfold coerce
  split
  · exact hp
  · rename_i c hc
    refine ⟨hp.identified, hp.fresh, ?_, hp.engines⟩
    intro d hd
    rcases List.mem_or_eq_of_mem_set hd with hd | rfl
    · exact hp.coercers d hd
    · exact (Coercer.extends_after target raw c).2 (hp.coercers c (List.mem_of_getElem? hc))

theorem sound_run {p : Pool} (hp : p.Sound) (i j k : Nat) (settings : Settings) (task : Task) :
    (p.run i j k settings task).2.Sound := by
  unfold run
  split
  · rename_i e c root he hc hroot
    obtain ⟨-, -, htruth, hcons⟩ := run_task hp (List.mem_of_getElem? he)
      (List.mem_of_getElem? hc) (List.mem_of_getElem? hroot) settings task
    refine ⟨hp.identified, hp.fresh, ?_, ?_⟩
    · intro d hd
      rcases List.mem_or_eq_of_mem_set hd with hd | rfl
      · exact hp.coercers d hd
      · exact htruth
    · intro d hd
      rcases List.mem_or_eq_of_mem_set hd with hd | rfl
      · exact hp.engines d hd
      · exact hcons
  · exact hp

theorem sound_perform {p : Pool} (hp : p.Sound) (call : Call) : (p.perform call).2.Sound := by
  cases call with
  | build name fields aliases => exact sound_build hp name fields aliases
  | clone i => exact sound_clone hp i
  | coerce i target raw => exact sound_coerce hp i target raw
  | run i j k settings task => exact sound_run hp i j k settings task

theorem sound_after {p : Pool} (hp : p.Sound) (calls : List Call) : (p.after calls).Sound := by
  induction calls generalizing p with
  | nil => exact hp
  | cons call rest ih => exact ih (sound_perform hp call)

/-- The reply to a task is the answer of the compiler that the engine and the coercer are, however
much they remember. -/
theorem run_eq_answer {p : Pool} (hp : p.Sound) {i j k : Nat} {e : Engine} {c : Coercer}
    {root : KnownSchema} (he : p.engines[i]? = some e) (hc : p.coercers[j]? = some c)
    (hroot : p.schemas[k]? = some root) (settings : Settings) (task : Task) :
    (p.run i j k settings task).1 =
      task.answer ⟨(e.under settings).settings, c.forget⟩ root.schema := by
  obtain ⟨hanswer, -⟩ := run_task hp (List.mem_of_getElem? he) (List.mem_of_getElem? hc)
    (List.mem_of_getElem? hroot) settings task
  unfold run
  rw [he, hc, hroot]
  exact hanswer

/-! ## With and without memory -/

theorem map_set_of_getElem? {α β : Type} {f : α → β} {l : List α} {i : Nat} {a b : α}
    (h : l[i]? = some a) (hf : f b = f a) : (l.set i b).map f = l.map f := by
  apply List.ext_getElem?
  intro n
  rw [List.getElem?_map, List.getElem?_map, List.getElem?_set]
  split
  · rename_i hin
    subst hin
    split <;> simp_all
  · rfl

@[simp] theorem forget_forget (p : Pool) : p.forget.forget = p.forget := by
  simp only [forget, List.map_map]
  rfl

theorem build_forget (p : Pool) (name : String) (fields : List Field)
    (aliases : List (String × String)) :
    p.forget.build name fields aliases =
      ((p.build name fields aliases).1, (p.build name fields aliases).2.forget) := by
  unfold build
  cases Schema.build name fields aliases <;> rfl

theorem clone_forget (p : Pool) (i : Nat) :
    p.forget.clone i = ((p.clone i).1, (p.clone i).2.forget) := by
  unfold clone
  rw [show p.forget.schemas = p.schemas from rfl]
  cases p.schemas[i]? <;> rfl

theorem forget_set {p : Pool} {i j : Nat} {e d : Engine} {c b : Coercer}
    (he : p.engines[i]? = some e) (hc : p.coercers[j]? = some c) (hd : d.forget = e.forget)
    (hb : b.forget = c.forget) :
    forget { p with coercers := p.coercers.set j b, engines := p.engines.set i d } = p.forget := by
  simp only [forget, map_set_of_getElem? he hd, map_set_of_getElem? hc hb]

theorem forget_coerce (p : Pool) (i : Nat) (target : FieldType) (raw : String) :
    (p.coerce i target raw).2.forget = p.forget := by
  unfold coerce
  split
  · rfl
  · rename_i c hc
    have hb : (c.after target raw).forget = c.forget := (Coercer.extends_after target raw c).1
    simp only [forget, map_set_of_getElem? hc hb]

theorem forget_run {p : Pool} (hp : p.Sound) (i j k : Nat) (settings : Settings) (task : Task) :
    (p.run i j k settings task).2.forget = p.forget := by
  unfold run
  split
  · rename_i e c root he hc hroot
    obtain ⟨-, hforget, -⟩ := run_task hp (List.mem_of_getElem? he) (List.mem_of_getElem? hc)
      (List.mem_of_getElem? hroot) settings task
    exact forget_set he hc rfl hforget
  · rfl

theorem coerce_forget {p : Pool} (hp : p.Sound) (i : Nat) (target : FieldType) (raw : String) :
    (p.forget.coerce i target raw).1 = (p.coerce i target raw).1 := by
  unfold coerce
  rw [show p.forget.coercers[i]? = p.coercers[i]?.map Coercer.forget from List.getElem?_map]
  cases h : p.coercers[i]? with
  | none => rfl
  | some c =>
    have hc : c.Truthful := hp.coercers c (List.mem_of_getElem? h)
    simp only [Option.map_some, Coercer.coerce_forget hc]

theorem run_forget {p : Pool} (hp : p.Sound) (i j k : Nat) (settings : Settings) (task : Task) :
    (p.forget.run i j k settings task).1 = (p.run i j k settings task).1 := by
  cases he : p.engines[i]? with
  | none => simp only [run, he, forget, List.getElem?_map, Option.map_none]
  | some e =>
    cases hc : p.coercers[j]? with
    | none => simp only [run, he, hc, forget, List.getElem?_map, Option.map_none, Option.map_some]
    | some c =>
      cases hroot : p.schemas[k]? with
      | none =>
        simp only [run, he, hc, hroot, forget, List.getElem?_map, Option.map_some]
      | some root =>
        have he' : p.forget.engines[i]? = some e.forget := by
          rw [forget, List.getElem?_map, he, Option.map_some]
        have hc' : p.forget.coercers[j]? = some c.forget := by
          rw [forget, List.getElem?_map, hc, Option.map_some]
        rw [run_eq_answer hp he hc hroot, run_eq_answer (sound_forget hp) he' hc' hroot]
        rfl

theorem perform_forget {p : Pool} (hp : p.Sound) (call : Call) :
    (p.forget.perform call).1 = (p.perform call).1 ∧
      (p.forget.perform call).2.forget = (p.perform call).2.forget := by
  cases call with
  | build name fields aliases =>
    simp only [perform, build_forget, forget_forget, and_self]
  | clone i =>
    simp only [perform, clone_forget, forget_forget, and_self]
  | coerce i target raw =>
    refine ⟨coerce_forget hp i target raw, ?_⟩
    exact (forget_coerce _ i target raw).trans
      ((forget_forget p).trans (forget_coerce p i target raw).symm)
  | run i j k settings task =>
    refine ⟨run_forget hp i j k settings task, ?_⟩
    exact (forget_run (sound_forget hp) i j k settings task).trans
      ((forget_forget p).trans (forget_run hp i j k settings task).symm)

theorem replies_eq_of_forget {p q : Pool} (hp : p.Sound) (hpq : q.forget = p.forget)
    (calls : List Call) : p.replies calls = q.freshReplies calls := by
  induction calls generalizing p q with
  | nil => rfl
  | cons call rest ih =>
    obtain ⟨hreply, hforget⟩ := perform_forget hp call
    rw [replies, freshReplies, hpq, hreply, ih (sound_perform hp call) hforget]

theorem lookup_of_resolve_error {p : Pool} (hp : p.Sound) {e : Engine} (he : e ∈ p.engines)
    {k : KnownSchema} (hk : k ∈ p.schemas) {selector : String} {fault : PathError}
    (h : k.schema.resolve e.settings.maxDepth selector = .error fault) :
    e.paths.lookup (k.identity, selector) = none := by
  cases hlookup : e.paths.lookup (k.identity, selector) with
  | none => rfl
  | some path =>
    obtain ⟨before, after, heq, -⟩ := List.lookup_eq_some_iff.mp hlookup
    obtain ⟨k', hk', hident, hpath⟩ :=
      (hp.engines e he).paths ((k.identity, selector), path) (by simp [heq])
    rw [hp.identified k' hk' k hk hident, h] at hpath
    cases hpath

/-! ## The theorem -/

/-- Every call gives what it would give on new coercers and engines, and where a selector cannot be
resolved no engine remembers a path for it. -/
theorem replies_eq_freshReplies (own : List (List OwnStrategy)) (settings : List Settings)
    (calls : List Call) :
    (start own settings).replies calls = (start own settings).freshReplies calls ∧
      ∀ e ∈ ((start own settings).after calls).engines,
        ∀ k ∈ ((start own settings).after calls).schemas, ∀ selector fault,
          k.schema.resolve e.settings.maxDepth selector = .error fault →
            e.paths.lookup (k.identity, selector) = none := by
  have hstart := sound_start own settings
  refine ⟨replies_eq_of_forget hstart rfl calls, ?_⟩
  intro e he k hk selector fault h
  exact lookup_of_resolve_error (sound_after hstart calls) he hk h

end Pool

end RecordFilter
