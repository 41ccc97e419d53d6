import RecordFilter.Proofs.Coercion.Instant
import RecordFilter.Proofs.Compile.Clauses
import RecordFilter.Proofs.Compile.Typing
import RecordFilter.Proofs.Schema.Addressing

/-!
# Keywords as comparisons

What a keyword becomes for a field, a filter can ask for too: by the dotted names of the field and
one argument of `==`, which is the keyword itself, or the keyword between wildcards for text.
-/

namespace RecordFilter

open RecordFilter.Text

/-- The classes of types of which a keyword may write a value. -/
def literalFamilies : List Family := [.bool, .year, .numeric, .identifier]

/-- The argument asks a field of the type for what the keyword finds there. -/
inductive Asks (wildcard : Char) (keyword : String) : FieldType → String → Prop
  | literal {t : FieldType} (ht : t.family ∈ literalFamilies) :
      Asks wildcard keyword t keyword
  /-- A member with the name of the keyword would be the only one that the filter takes. -/
  | candidates {model : EnumModel} (hmodel : ∀ member ∈ model.members, member.name ≠ keyword) :
      Asks wildcard keyword (.enumeration model) keyword
  | text (hwildcard : wildcard ∉ keyword.toList) :
      Asks wildcard keyword (.scalar .text) (.singleton wildcard ++ keyword ++ .singleton wildcard)

theorem FieldType.exists_scalar_of_literal {t : FieldType} (h : t.family ∈ literalFamilies) :
    ∃ s, t = .scalar s := by
  cases t with
  | scalar s => exact ⟨s, rfl⟩
  | _ => simp [literalFamilies, FieldType.family] at h

/-! ## Keywords as operands -/

/-- A text with something in it and no blanks around it. -/
structure IsKeyword (keyword : String) : Prop where
  ne_empty : keyword ≠ ""
  tidy : Tidy keyword.toList

theorem isKeyword_trim {keyword : String} (h : trim keyword ≠ "") : IsKeyword (trim keyword) :=
  ⟨h, by rw [toList_trim]; exact tidy_trimChars _⟩

namespace IsKeyword

variable {keyword : String} (h : IsKeyword keyword)

include h

theorem trim_eq : trim keyword = keyword := by
  rw [trim, h.tidy.trimChars_eq, String.ofList_toList]

theorem unlessBlank_eq (convert : String → Except CoercionError Value) :
    Coercer.unlessBlank convert keyword = convert keyword := by
  have hempty : keyword.isEmpty = false := by simpa using h.ne_empty
  simp [Coercer.unlessBlank, h.trim_eq, hempty]

theorem coerce_eq_ok {c : Coercer} {t : FieldType} {v : Value} (hv : c.convert t keyword = .ok v) :
    c.coerce t keyword = .ok ⟨v, t⟩ := by
  rw [Coercer.coerce, h.unlessBlank_eq, hv]
  rfl

theorem coerce_eq_error {c : Coercer} {t : FieldType} {e : CoercionError}
    (he : c.convert t keyword = .error e) : c.coerce t keyword = .error e := by
  rw [Coercer.coerce, h.unlessBlank_eq, he]
  rfl

theorem surround {wildcard : Char} (hw : isBlank wildcard = false) :
    IsKeyword (.singleton wildcard ++ keyword ++ .singleton wildcard) where
  ne_empty := by
    intro hempty
    have hlist := congrArg String.toList hempty
    simp at hlist
  tidy := by
    have hback := h.tidy.append_cons hw tidy_nil
    have hfront := tidy_nil.append_cons hw hback
    simpa using hfront

end IsKeyword

theorem Text.Pattern.ofWildcard_surround {wildcard : Char} {keyword : String}
    (hempty : keyword ≠ "") (h : wildcard ∉ keyword.toList) :
    ofWildcard wildcard (.singleton wildcard ++ keyword ++ .singleton wildcard) =
      containing keyword := by
  have hsplit : (String.singleton wildcard ++ keyword ++ .singleton wildcard).toList.splitOn
      wildcard = [[], keyword.toList, []] := by
    have hjoined : [wildcard].intercalate [[], keyword.toList, []] =
        (String.singleton wildcard ++ keyword ++ .singleton wildcard).toList := by
      simp [List.intercalate]
    rw [← hjoined]
    exact List.splitOn_intercalate wildcard (by simpa using h) (by simp)
  rw [ofWildcard, hsplit]
  simp [joinRuns, literalOf, addRun, containing, hempty]

namespace Coercer.IsStandard

variable {c : Coercer} (hc : c.IsStandard)

include hc

theorem convert_primitive {s : Scalar} (hs : Strategy.isPrimitive s = true) (raw : String) :
    c.convert (.scalar s) raw =
      (Strategy.readPrimitive s raw.toList).mapError (.invalid raw (.scalar s)) := by
  have hroute : c.route (.scalar s) = some .primitive := by
    rw [hc.route_eq]
    cases s <;> first | rfl | cases hs
  rw [convert_of_ne_array c (by nofun), convertRouted, hroute]
  rfl

theorem convert_text (raw : String) : c.convert (.scalar .text) raw = .ok (.text raw) := by
  rw [hc.convert_primitive rfl, Strategy.readPrimitive, String.ofList_toList]
  rfl

theorem convert_noMember {model : EnumModel} {raw : String}
    (h : ∀ member ∈ model.members, member.name ≠ raw) :
    c.convert (.enumeration model) raw = .error (.invalid raw (.enumeration model) .noMember) := by
  have hroute : c.route (.enumeration model) = some .enumeration := by
    rw [hc.route_eq]
    rfl
  have hnone : model.member? raw = none := by simpa [EnumModel.member?] using h
  rw [convert_of_ne_array c (by nofun), convertRouted, hroute]
  simp [Strategy.convert, Strategy.read, hnone, Strategy.orElse, Except.map, Except.mapError]

end Coercer.IsStandard

/-! ## Terms as comparisons -/

namespace Compiler

variable {c : Compiler} {path : Path} {raw : String}

theorem lowerEquality_of_candidates {model : EnumModel} {check : Check} {e : CoercionError}
    (hmodel : path.terminal = .enumeration model)
    (h : c.coercer.coerce path.terminal raw = .error e)
    (hcheck : candidateCheck false path model raw = some check) :
    c.lowerEquality false path raw = .ok check := by
  rw [lowerEquality, h, hmodel]
  simp only [hcheck]

theorem valueCheck_text (settings : Settings) (path : Path) (s : String) (t : FieldType) :
    valueCheck settings false path ⟨.text s, t⟩ =
      ⟨path, .like, .pattern (Pattern.ofWildcard settings.wildcard s)⟩ := rfl

theorem valueCheck_of_fits {settings : Settings} {v : Value} {t : FieldType} (hv : t.Fits v)
    (ht : t.family ∈ literalFamilies) :
    valueCheck settings false path ⟨v, t⟩ = ⟨path, .eq, .value ⟨v, t⟩⟩ := by
  have htext : v.isText = false := by
    refine Bool.eq_false_iff.mpr fun htext => ?_
    rw [hv.eq_text htext] at ht
    exact absurd ht (by decide)
  exact valueCheck_of_not_text hv.ne_null htext

end Compiler

/-! ### Literals -/

theorem FieldType.eq_bool_of_family {t : FieldType} (h : t.family = .bool) : t = .scalar .bool := by
  cases t with
  | scalar s => cases s <;> first | rfl | cases h
  | _ => cases h

namespace Heuristic

variable {coercer : Coercer} {keyword : String} {t : FieldType} {h : Heuristic} {test : Test}
  {operand : Operand}

theorem convert_of_equality (h : equality coercer keyword t = .term test operand) :
    ∃ v, coercer.convert t keyword = .ok v ∧ test = .eq ∧ operand = .value ⟨v, t⟩ := by
  unfold equality at h
  split at h
  · rename_i v hv
    cases h
    exact ⟨v, hv, rfl, rfl⟩
  · cases h

theorem convert_of_apply (hc : coercer.IsStandard) (ht : t.family ∈ literalFamilies)
    (hh : ofType? t = some h)
    (hterm : h.apply coercer keyword t = .term test operand) :
    ∃ v, coercer.convert t keyword = .ok v ∧ test = .eq ∧ operand = .value ⟨v, t⟩ := by
  have hconverts (h : (if h.converts keyword then equality coercer keyword t else .declined) =
      .term test operand) : ∃ v, coercer.convert t keyword = .ok v ∧ test = .eq ∧
        operand = .value ⟨v, t⟩ := by
    split at h
    · exact convert_of_equality h
    · cases h
  simp only [literalFamilies, List.mem_cons, List.not_mem_nil, or_false] at ht
  rcases ht with hfamily | hfamily | hfamily | hfamily <;> simp only [ofType?, hfamily] at hh
  · cases hh
    obtain rfl : t = .scalar .bool := FieldType.eq_bool_of_family hfamily
    unfold apply at hterm
    dsimp only at hterm
    split at hterm
    · rename_i b hb
      cases hterm
      refine ⟨.bool b, ?_, rfl, rfl⟩
      rw [hc.convert_primitive rfl, Strategy.readPrimitive, hb]
      rfl
    · cases hterm
  · cases hh
    exact hconverts hterm
  · cases hh
    exact hconverts hterm
  · obtain ⟨s, -, rfl⟩ := Option.map_eq_some_iff.mp hh
    exact hconverts hterm

end Heuristic

/-! ## The theorem -/

namespace Compiler

variable {c : Compiler} {keyword argument : String} {t : Target} {test : Test} {operand : Operand}

theorem lowerEquality_literal (hc : c.coercer.IsStandard) (hkeyword : IsKeyword keyword)
    (htype : Heuristic.ofType? t.path.terminal = some t.heuristic)
    (ht : t.path.terminal.family ∈ literalFamilies)
    (hterm : t.outcome c.coercer keyword = .term test operand) :
    c.lowerEquality false t.path keyword = .ok ⟨t.path, test, operand⟩ := by
  obtain ⟨v, hv, rfl, rfl⟩ := Heuristic.convert_of_apply hc ht htype hterm
  have hbuiltIn : t.path.terminal.isBuiltIn = true := by
    obtain ⟨s, hs⟩ := FieldType.exists_scalar_of_literal ht
    rw [hs]
    rfl
  have hfits : t.path.terminal.Fits v := hc.fits_convert hbuiltIn keyword v hv
  rw [lowerEquality_of_coerce (hkeyword.coerce_eq_ok hv), valueCheck_of_fits hfits ht]

theorem lowerEquality_candidates (hc : c.coercer.IsStandard) (hkeyword : IsKeyword keyword)
    {model : EnumModel} (ht : t.path.terminal = .enumeration model)
    (htype : Heuristic.ofType? t.path.terminal = some t.heuristic)
    (hmodel : ∀ member ∈ model.members, member.name ≠ keyword)
    (hterm : t.outcome c.coercer keyword = .term test operand) :
    c.lowerEquality false t.path keyword = .ok ⟨t.path, test, operand⟩ := by
  have hcoerce : c.coercer.coerce t.path.terminal keyword =
      .error (.invalid keyword (.enumeration model) .noMember) := by
    rw [ht]
    exact hkeyword.coerce_eq_error (hc.convert_noMember hmodel)
  have hheuristic : t.heuristic = .enumCandidates := by
    rw [ht] at htype
    exact (Option.some.inj htype).symm
  refine lowerEquality_of_candidates ht hcoerce ?_
  rw [Target.outcome, hheuristic, ht, Heuristic.apply, Heuristic.membership] at hterm
  rw [candidateCheck, hkeyword.trim_eq, ht]
  split at hterm
  · cases hterm
  · cases hterm
    simp

theorem lowerEquality_surround (hc : c.coercer.IsStandard)
    (hw : isBlank c.settings.wildcard = false) (hkeyword : IsKeyword keyword)
    (ht : t.path.terminal = .scalar .text)
    (htype : Heuristic.ofType? t.path.terminal = some t.heuristic)
    (hwildcard : c.settings.wildcard ∉ keyword.toList)
    (hterm : t.outcome c.coercer keyword = .term test operand) :
    c.lowerEquality false t.path
        (.singleton c.settings.wildcard ++ keyword ++ .singleton c.settings.wildcard) =
      .ok ⟨t.path, test, operand⟩ := by
  have hheuristic : t.heuristic = .substring := by
    rw [ht] at htype
    exact (Option.some.inj htype).symm
  have hconvert : ∀ raw, c.coercer.convert t.path.terminal raw = .ok (.text raw) := by
    rw [ht]
    exact hc.convert_text
  rw [Target.outcome, hheuristic, Heuristic.apply] at hterm
  cases hterm
  rw [lowerEquality_of_coerce ((hkeyword.surround hw).coerce_eq_ok (hconvert _)), valueCheck_text,
    Pattern.ofWildcard_surround hkeyword.ne_empty hwildcard]

theorem lowerEquality_asks (hc : c.coercer.IsStandard) (hw : isBlank c.settings.wildcard = false)
    (hkeyword : IsKeyword keyword) (htype : Heuristic.ofType? t.path.terminal = some t.heuristic)
    (hargument : Asks c.settings.wildcard keyword t.path.terminal argument)
    (hterm : t.outcome c.coercer keyword = .term test operand) :
    c.lowerEquality false t.path argument = .ok ⟨t.path, test, operand⟩ := by
  generalize ht : t.path.terminal = terminal at hargument
  cases hargument with
  | literal hfamily => exact lowerEquality_literal hc hkeyword htype (ht ▸ hfamily) hterm
  | candidates hmodel => exact lowerEquality_candidates hc hkeyword ht htype hmodel hterm
  | text hwildcard => exact lowerEquality_surround hc hw hkeyword ht htype hwildcard hterm

/-- Each term of a search has a path to which its own dotted names resolve, and a comparison with
these names compiles to the term: the one with the keyword itself where it is a literal or names no
member, and the one with the keyword between wildcards where text is searched. -/
theorem traverse_restated (c : Compiler) (hc : c.coercer.IsStandard)
    (hw : isBlank c.settings.wildcard = false) {root : Schema} (hroot : Schema.Built root)
    (hnames : root.IsAddressable) (propagate : List String) (keyword : String) :
    ∃ es, c.traverse root propagate keyword = .or es ∧ ∀ e ∈ es, ∃ check, e = .check check ∧
      c.resolve root check.path.dotted = .ok check.path ∧
        ∀ argument, Asks c.settings.wildcard (trim keyword) check.path.terminal argument →
          c.compile root (.test check.path.dotted .eq [argument]) = .ok e := by
  unfold traverse searchTargets
  by_cases hblank : trim keyword = ""
  · exact ⟨[], by simp [hblank, Expr.never], nofun⟩
  refine ⟨_, if_neg (by simpa using hblank), fun e he => ?_⟩
  obtain ⟨t, ht, hterm⟩ := List.mem_filterMap.mp he
  obtain ⟨d, hd, hend⟩ : ∃ d ∈ Schema.chainsFrom c.settings.maxDepth.toNat root propagate,
      d.EndsAt root.name [] t := Chain.exists_endsAt (Schema.endsAt_targetsFrom _ _ _ _ _) ht
  have hresolve : c.resolve root t.path.dotted = .ok t.path :=
    (Schema.mem_chainsFrom.mp hd).resolve_dotted hend hroot hnames
  have htype : Heuristic.ofType? t.path.terminal = some t.heuristic := by
    rw [hend.path]
    exact hend.heuristic
  unfold Target.term? at hterm
  split at hterm
  · rename_i test operand houtcome
    cases hterm
    refine ⟨_, rfl, hresolve, fun argument hargument => ?_⟩
    have hlower := lowerEquality_asks hc hw (isKeyword_trim hblank) htype hargument houtcome
    rw [compile_test hresolve, lower]
    simp [singleArgument, hlower, bind, Except.bind, pure, Except.pure, Except.mapError]
  · cases hterm
  · cases hterm

theorem visits_restated :
    Coercer.standard.IsStandard ∧ Schema.Built visits ∧ visits.IsAddressable ∧
      (traverse ⟨{}, .standard⟩ visits ["guest"] " 7 ").checks.map (·.path.dotted) =
          ["guest.name", "guest.home.town", "hotel.town", "rooms"] ∧
        ∃ es, traverse ⟨{}, .standard⟩ visits ["guest"] " 7 " = .or es ∧ ∀ e ∈ es, ∃ check,
          e = .check check ∧
            resolve ⟨{}, .standard⟩ visits check.path.dotted = .ok check.path ∧
              ∀ argument, Asks '*' (trim " 7 ") check.path.terminal argument →
                compile ⟨{}, .standard⟩ visits (.test check.path.dotted .eq [argument]) =
                  .ok e := by
  have htowns : towns.IsAddressable := .mk (by decide) (by simp [towns, Schema.fields])
  have hguests : guests.IsAddressable :=
    .mk (by decide) (by simp [guests, Schema.fields, htowns])
  have hvisits : visits.IsAddressable :=
    .mk (by decide) (by simp [visits, Schema.fields, htowns, hguests])
  exact ⟨Coercer.isStandard_standard, built_visits, hvisits, by decide,
    traverse_restated ⟨{}, .standard⟩ Coercer.isStandard_standard (by decide) built_visits hvisits
      ["guest"] " 7 "⟩

end Compiler

end RecordFilter
