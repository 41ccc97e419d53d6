import RecordFilter.Proofs.Coercion.Typing
import RecordFilter.Proofs.Schema.Resolution

/-!
# Types without a strategy

The built-in strategies accept every type but a record. A schema is built only if its element
collections hold elements that are no records, but a scalar may be declared as a record or as an
array of records, and then a selector leads to a type that no operand can be coerced to.
-/

namespace RecordFilter

namespace FieldType

/-- The type, and where it is an array, the types of its elements at every level. -/
def levels : FieldType → List FieldType
  | array element => array element :: element.levels
  | t => [t]

theorem levels_of_isElement {t : FieldType} (h : t.isElement = true) : t.levels = [t] := by
  cases t with
  | array element => cases h
  | _ => rfl

end FieldType

theorem Coercer.IsStandard.covers_eq_false_iff {c : Coercer} (hc : c.IsStandard) {t : FieldType} :
    c.covers t = false ↔ ∃ name, t = .record name := by
  rw [covers, hc.route_eq]
  cases t with
  | scalar s => cases s <;> exact ⟨nofun, nofun⟩
  | record name => exact ⟨fun _ => ⟨name, rfl⟩, fun _ => rfl⟩
  | _ => exact ⟨nofun, nofun⟩

namespace Schema

variable {s : Schema} {max : UInt64} {selector : String} {p : Path}

theorem exists_last_of_resolve (hs : Built s) (h : s.resolve max selector = .ok p) :
    ∃ (t : Schema) (f : Field), Built t ∧ f ∈ t.fields ∧
      (f.kind = .scalar ∨ f.kind = .elementCollection) ∧
        p.segments.getLast? = some f.segment ∧ p.terminal = f.declared := by
  obtain ⟨fields, hfields, hpath⟩ := exists_resolves_of_resolve_ok hs h
  obtain - | ⟨-, hwalks⟩ := hfields
  obtain @⟨n, way, t, f, hway, -, hf, hkind⟩ | - := hwalks
  refine ⟨t, f, hway.built hs, hf, hkind, ?_, ?_⟩
  · rw [hpath.segments, List.getLast?_map, List.getLast?_concat]
    rfl
  · have hterminal := hpath.terminal
    rw [List.getLast?_concat] at hterminal
    exact (Option.some.inj hterminal).symm

/-- The standard coercer lacks a strategy for a type that a selector leads to, or for the elements
in it, just where a scalar is declared with a record there. -/
theorem covers_level_iff (hs : Built s) {c : Coercer} (hc : c.IsStandard)
    (h : s.resolve max selector = .ok p) {t : FieldType} (ht : t ∈ p.terminal.levels) :
    c.covers t = false ↔
      p.segments.getLast?.map (·.kind) = some .scalar ∧ ∃ name, t = .record name := by
  obtain ⟨inner, f, hinner, hf, hkind, hlast, hterminal⟩ := exists_last_of_resolve hs h
  rw [hc.covers_eq_false_iff, hlast]
  refine ⟨?_, fun h => h.2⟩
  rintro ⟨name, rfl⟩
  refine ⟨?_, name, rfl⟩
  rcases hkind with hkind | hkind
  · simp [FieldOf.segment, FieldOf.segmentKind, hkind]
  · -- An element collection has no record in it.
    have helement := hinner.isElement hf hkind
    rw [hterminal, FieldType.levels_of_isElement helement, List.mem_singleton] at ht
    rw [← ht] at helement
    cases helement

def depots : Schema :=
  .mk "Depot"
    [⟨"place", none, .record "Place", .single, .scalar, none⟩,
      ⟨"stops", none, .array (.array (.record "Place")), .single, .scalar, none⟩,
      ⟨"tags", none, .scalar .text, .many, .elementCollection, none⟩] []

theorem built_depots : Built depots :=
  .of_eq rfl (by simp [depots, fields])

theorem depots_levels :
    Built depots ∧ Coercer.standard.IsStandard ∧
      (depots.resolve 1 "tags").map (·.dotted) = .ok "tags" ∧
        Coercer.standard.covers (.scalar .text) = true ∧
      (depots.resolve 1 "stops").map (·.dotted) = .ok "stops" ∧
        Coercer.standard.covers (.array (.record "Place")) = true ∧
        Coercer.standard.covers (.record "Place") = false := by
  have hstandard := Coercer.isStandard_standard
  have htags : depots.resolve 1 "tags" =
    .ok ⟨"Depot", [⟨"tags", "tags", .elementCollection⟩], .scalar .text⟩ := rfl
  have hstops : depots.resolve 1 "stops" =
    .ok ⟨"Depot", [⟨"stops", "stops", .scalar⟩], .array (.array (.record "Place"))⟩ := rfl
  have htext := (covers_level_iff built_depots hstandard htags List.mem_cons_self).not.mpr
    (fun h => nomatch h.1)
  have hinner := (covers_level_iff built_depots hstandard hstops
    (List.mem_cons_of_mem _ List.mem_cons_self)).not.mpr (fun ⟨_, _, h⟩ => nomatch h)
  have hplace := (covers_level_iff built_depots hstandard hstops
    (List.mem_cons_of_mem _ (List.mem_cons_of_mem _ List.mem_cons_self))).mpr ⟨rfl, _, rfl⟩
  exact ⟨built_depots, hstandard, congrArg (Except.map _) htags, by simpa using htext,
    congrArg (Except.map _) hstops, by simpa using hinner, hplace⟩

/-- The place of a depot can be selected, and every operand but a blank one is refused for it. -/
theorem depots_place_notCovered :
    Built depots ∧
      depots.resolve 32 "place" =
        .ok ⟨"Depot", [⟨"place", "place", .scalar⟩], .record "Place"⟩ ∧
      Coercer.standard.covers (.record "Place") = false ∧
      (∀ raw : String, Coercer.standard.convert (.record "Place") raw =
        .error (.invalid raw (.record "Place") .noStrategy)) :=
  ⟨built_depots, rfl, rfl, fun _ => rfl⟩

end Schema

end RecordFilter
