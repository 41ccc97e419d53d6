import RecordFilter.Proofs.Schema.Canonical

/-!
# Fields that selectors can name

A schema may be built with any names, but a selector is cut at its dots and has no empty segment.
So a field is found by the names that lead to it just when all of them can be segments, and
otherwise no selector at all finds it.
-/

namespace RecordFilter

namespace Schema

variable {s : Schema} {max : UInt64} {selector : String} {way : List Field} {leaf : Field} {p : Path}

theorem isName_of_resolve (hs : Built s) (h : s.resolve max selector = .ok p) :
    ∀ segment ∈ p.segments, IsName segment.name := by
  obtain ⟨fields, hfields, hpath⟩ := exists_resolves_of_resolve_ok hs h
  rw [hpath.segments, List.forall_mem_map]
  exact fun f hf => hfields.isName f.name (List.mem_map_of_mem hf)

/-- A chain of fields within the limit is found by the names along it, joined by dots, just when
each of the names can be a segment. -/
theorem resolve_names_iff (hs : Built s) (h : Declares s (way ++ [leaf]))
    (hlength : (way ++ [leaf]).length ≤ max.toNat)
    (hkind : leaf.kind = .scalar ∨ leaf.kind = .elementCollection) :
    s.resolve max (".".intercalate ((way ++ [leaf]).map (·.name))) =
        .ok ⟨s.name, (way ++ [leaf]).map FieldOf.segment, leaf.declared⟩ ↔
      ∀ f ∈ way ++ [leaf], IsName f.name := by
  constructor
  · intro hresolve f hf
    exact isName_of_resolve hs hresolve f.segment (List.mem_map_of_mem hf)
  · exact fun hnames => resolve_declares hs h hnames hlength hkind

def city : Field := ⟨"city", some "town", .scalar .text, .single, .scalar, none⟩

def shipping : Field :=
  ⟨"shipping", none, .record "Place", .single, .embedded, some (.mk "Place" [city] [])⟩

def unitPrice : Field := ⟨"unit.price", none, .scalar .decimal, .single, .scalar, none⟩

def nameless : Field := ⟨"", none, .scalar .text, .single, .scalar, none⟩

def parcels : Schema := .mk "Parcel" [shipping, unitPrice, nameless] []

theorem built_parcels : Built parcels :=
  have hplace : Built (.mk "Place" [city] []) := .of_eq rfl (by simp [city, fields])
  .of_eq rfl (by simp [parcels, fields, shipping, unitPrice, nameless, hplace])

theorem parcels_shipping :
    Built parcels ∧ Declares parcels ([shipping] ++ [city]) ∧
      parcels.resolve 2 "shipping.city" =
        .ok ⟨"Parcel", [⟨"shipping", "shipping", .embedded⟩, ⟨"city", "town", .scalar⟩],
          .scalar .text⟩ := by
  have hchain : Declares parcels ([shipping] ++ [city]) :=
    .next List.mem_cons_self rfl (.last List.mem_cons_self)
  have hnames : ∀ f ∈ [shipping] ++ [city], IsName f.name := by
    simp only [List.forall_mem_append, List.forall_mem_singleton]
    decide
  exact ⟨built_parcels, hchain,
    (resolve_names_iff built_parcels hchain (by decide) (.inl rfl)).mpr hnames⟩

/-- A name with a dot in it is cut in two, and an empty one is refused, so the two scalars are not
found. -/
theorem parcels_notFound :
    Built parcels ∧
      (Declares parcels [unitPrice] ∧ unitPrice.kind = .scalar ∧
        parcels.resolve 32 (".".intercalate [unitPrice.name]) =
          .error (.unknownField "unit" "Parcel")) ∧
      Declares parcels [nameless] ∧ nameless.kind = .scalar ∧
        parcels.resolve 32 (".".intercalate [nameless.name]) = .error (.emptySegment "") := by
  have hprice : Declares parcels [unitPrice] := .last (by simp [parcels, fields])
  have hnameless : Declares parcels [nameless] := .last (by simp [parcels, fields])
  exact ⟨built_parcels, ⟨hprice, rfl, rfl⟩, hnameless, rfl, rfl⟩

end Schema

end RecordFilter
