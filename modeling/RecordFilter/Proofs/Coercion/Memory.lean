import RecordFilter.Coercion.Coercer

/-!
# What a coercer remembers

A memory is truthful when it holds what a search for the strategy would find. Converting keeps it
truthful, and a coercer with a truthful memory converts as one that remembers nothing.
-/

namespace RecordFilter

theorem Strategy.accepts_congr {a b : FieldType} (h : a.same b = true) (s : Strategy) :
    s.accepts a = s.accepts b := by
  cases s with
  | own o => exact o.accepts_congr h
  | _ => cases a <;> cases b <;> simp_all [accepts, FieldType.same]

namespace Coercer

theorem search_congr {a b : FieldType} (h : a.same b = true) (c : Coercer) :
    c.search a = c.search b := by
  simp only [search, Strategy.accepts_congr h]

@[simp] theorem forget_forget (c : Coercer) : c.forget.forget = c.forget := rfl

theorem route_forget (c : Coercer) (target : FieldType) :
    c.forget.route target = c.search target := rfl

/-- What is remembered for a type is what a search for it finds. -/
def Truthful (c : Coercer) : Prop := ∀ entry ∈ c.known, c.search entry.1 = some entry.2

theorem truthful_forget (c : Coercer) : c.forget.Truthful := by
  intro entry h
  cases h

theorem search_of_remembered {c : Coercer} (hc : c.Truthful) {target : FieldType} {s : Strategy}
    (h : c.remembered target = some s) : c.search target = some s := by
  obtain ⟨entry, hfind, rfl⟩ := Option.map_eq_some_iff.mp h
  have hsame : target.same entry.1 = true := by simpa using List.find?_some hfind
  rw [search_congr hsame]
  exact hc entry (List.mem_of_find?_eq_some hfind)

theorem route_eq_search {c : Coercer} (hc : c.Truthful) (target : FieldType) :
    c.route target = c.search target := by
  unfold route
  cases h : c.remembered target with
  | none => rfl
  | some s => rw [search_of_remembered hc h]; rfl

/-! ## Converting -/

theorem convertRouted_forget {c : Coercer} (hc : c.Truthful)
    (element : String → Except CoercionError Value) (target : FieldType) :
    c.convertRouted element target = c.forget.convertRouted element target := by
  funext raw
  rw [convertRouted, convertRouted, route_eq_search hc, route_forget]

theorem convert_forget {c : Coercer} (hc : c.Truthful) (target : FieldType) :
    c.convert target = c.forget.convert target := by
  induction target with
  | array element ih =>
    funext raw
    rw [convert, convert, ih, convertRouted_forget hc]
  | _ =>
    funext raw
    rw [convert, convert, convertRouted_forget hc] <;> nofun

theorem coerce_forget {c : Coercer} (hc : c.Truthful) : c.coerce = c.forget.coerce := by
  funext target raw
  rw [coerce, coerce, convert_forget hc]

/-! ## Remembering -/

@[simp] theorem forget_note (c : Coercer) (target : FieldType) :
    (c.note target).forget = c.forget := by
  unfold note
  split <;> rfl

theorem Truthful.note {c : Coercer} (hc : c.Truthful) (target : FieldType) :
    (c.note target).Truthful := by
  unfold Coercer.note
  split
  · rename_i s _ hs
    intro entry hmem
    rcases List.mem_cons.mp hmem with rfl | hmem
    · exact hs
    · exact hc entry hmem
  · exact hc

/-- What a coercer turns into keeps its strategies and a truthful memory. -/
def Extends (c d : Coercer) : Prop := d.forget = c.forget ∧ (c.Truthful → d.Truthful)

theorem Extends.refl (c : Coercer) : c.Extends c := ⟨rfl, id⟩

theorem Extends.trans {a b c : Coercer} (h : a.Extends b) (h' : b.Extends c) : a.Extends c :=
  ⟨h'.1.trans h.1, h'.2 ∘ h.2⟩

theorem extends_note (c : Coercer) (target : FieldType) : c.Extends (c.note target) :=
  ⟨forget_note c target, fun hc => hc.note target⟩

theorem extends_foldl {step : Coercer → String → Coercer}
    (h : ∀ (c : Coercer) (raw : String), c.Extends (step c raw)) (raws : List String)
    (c : Coercer) : c.Extends (raws.foldl step c) := by
  induction raws generalizing c with
  | nil => exact .refl c
  | cons raw rest ih => exact (h c raw).trans (ih (step c raw))

theorem extends_after (target : FieldType) (raw : String) (c : Coercer) :
    c.Extends (after target raw c) := by
  induction target generalizing raw c with
  | array element ih =>
    unfold after
    split
    · exact .refl c
    · split
      · exact (extends_note c _).trans (extends_foldl (fun c part => ih part c) _ _)
      · exact extends_note c _
  | _ =>
    rw [after]
    · split
      · exact .refl c
      · exact extends_note c _
    · nofun

theorem extends_afterAll (target : FieldType) (raws : List String) (c : Coercer) :
    c.Extends (afterAll target raws c) :=
  extends_foldl (fun c raw => extends_after target raw c) raws c

end Coercer

end RecordFilter
