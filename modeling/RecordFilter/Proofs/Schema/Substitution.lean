import RecordFilter.Proofs.Schema.Canonical
import RecordFilter.Proofs.Schema.Limit

/-!
# Aliases stand for their targets

Wherever a selector meets an alias, the target can be written in its place. The selector comes to
the same, and takes one step less.
-/

namespace RecordFilter

open RecordFilter.Number

theorem intercalate_splice (dot : String) (front : List String) {parts : List String}
    (back : List String) (hparts : parts ≠ []) :
    dot.intercalate (front ++ dot.intercalate parts :: back) =
      dot.intercalate (front ++ (parts ++ back)) := by
  -- Behind the part, and then in front of it.
  have hback : dot.intercalate (dot.intercalate parts :: back) =
      dot.intercalate (parts ++ back) := by
    cases back with
    | nil => rw [List.append_nil, String.intercalate_singleton]
    | cons b back =>
      have hne : b :: back ≠ [] := List.cons_ne_nil b back
      rw [String.intercalate_append_of_ne_nil hparts hne, ← List.singleton_append,
        String.intercalate_append_of_ne_nil (List.cons_ne_nil _ _) hne,
        String.intercalate_singleton]
  cases front with
  | nil => exact hback
  | cons f front =>
    have hne : parts ++ back ≠ [] := List.append_ne_nil_of_left_ne_nil hparts back
    rw [String.intercalate_append_of_ne_nil (List.cons_ne_nil f front) (List.cons_ne_nil _ _),
      String.intercalate_append_of_ne_nil (List.cons_ne_nil f front) hne, hback]

namespace Schema

variable {s t : Schema} {pre parts left rest : List String} {head target selector : String}
  {max : UInt64} {n : Nat} {way : List Field}

theorem Leads.append (h : Leads s pre n way t left) (rest : List String) :
    Leads s (pre ++ rest) n way t (left ++ rest) := by
  induction h with
  | here => exact .here
  | enter hf hkind hinner _ ih => exact .enter hf hkind hinner ih
  | expand hfield halias hparts _ ih =>
    exact .expand hfield halias hparts (List.append_assoc _ _ rest ▸ ih)

theorem walk_alias (hs : Built s) (hpre : Leads s pre n way t [])
    (halias : (head, target) ∈ t.aliases) (hparts : IsSelector target parts) (steps : Nat) :
    walk max selector (steps + 1) s (pre ++ head :: rest) =
      walk max selector steps s (pre ++ (parts ++ rest)) := by
  have ht : Built t := hpre.built hs
  have hne : parts ++ rest ≠ [] := List.append_ne_nil_of_left_ne_nil hparts.split.ne_nil rest
  have hmet : Leads s (pre ++ head :: rest) n way t (head :: rest) := hpre.append _
  have hput : Leads s (pre ++ (parts ++ rest)) n way t (parts ++ rest) := hpre.append _
  rcases Nat.lt_or_ge steps n with hn | hn
  · -- Both walks are over before the place where they differ.
    rw [walk_exceeds hs hmet (List.cons_ne_nil _ _) hn, walk_exceeds hs hput hne hn.le]
  · obtain ⟨room, rfl⟩ := Nat.exists_eq_add_of_le hn
    rw [Nat.add_assoc, walk_leads hs hmet (List.cons_ne_nil _ _), walk_leads hs hput hne,
      walk_expand ht (fun f hf => ht.ne_alias hf halias) halias hparts]

theorem isSelector_splice (hnames : ∀ name ∈ pre ++ rest, IsName name)
    (hparts : IsSelector target parts) :
    IsSelector (".".intercalate (pre ++ target :: rest)) (pre ++ (parts ++ rest)) := by
  have hne : parts ≠ [] := hparts.split.ne_nil
  have hsegments : ∀ name ∈ pre ++ (parts ++ rest), IsName name := by
    obtain ⟨hpre, hrest⟩ := List.forall_mem_append.mp hnames
    exact List.forall_mem_append.mpr ⟨hpre, List.forall_mem_append.mpr ⟨hparts.isName, hrest⟩⟩
  have htext := intercalate_splice "." pre rest hne
  rw [hparts.split.joined] at htext
  rw [htext]
  exact isSelector_intercalate (by simp [hne]) hsegments

/-- A selector with an alias somewhere in it comes to what the selector with the target in its
place comes to with a limit that is less by one. A limit that is too small is each one's own: it is
exceeded, but for the greatest one. The names in front may be those of fields or of other aliases. -/
theorem resolve_alias (hs : Built s) (hnames : ∀ name ∈ pre ++ head :: rest, IsName name)
    (hpre : Leads s pre n way t []) (halias : (head, target) ∈ t.aliases)
    (htarget : "" ∉ dotParts target) {d : UInt64} (hd : d ≠ greatestWord) :
    s.resolve (d + 1) (".".intercalate (pre ++ head :: rest)) =
      (s.resolve d (".".intercalate (pre ++ target :: rest))).mapError
        (·.withLimit (d + 1)) := by
  have hparts : IsSelector target (dotParts target) := ⟨isSplit_dotParts target, htarget⟩
  have hothers : ∀ name ∈ pre ++ rest, IsName name := fun name hname =>
    hnames name ((List.sublist_cons_self head rest).append_left pre |>.mem hname)
  have hmet := isSelector_intercalate (List.append_ne_nil_of_right_ne_nil pre (by simp)) hnames
  have hput := isSelector_splice hothers hparts
  have hne : pre ++ (dotParts target ++ rest) ≠ [] := by simp [hparts.split.ne_nil]
  rw [resolve_eq hmet, resolve_eq hput, toNat_add_one hd, walk_alias hs hpre halias hparts,
    walk_withLimit (d + 1) d _ (".".intercalate (pre ++ target :: rest)) hne]
  cases walk d (".".intercalate (pre ++ target :: rest)) d.toNat s _ <;> rfl

def places : Schema :=
  .mk "Place" [⟨"city", none, .scalar .text, .single, .scalar, none⟩] []

def owners : Schema :=
  .mk "Owner" [⟨"address", none, .record "Place", .single, .embedded, some places⟩]
    [("home", "address"), ("town", "home.city")]

def shopOwner : Field := ⟨"owner", none, .record "Owner", .single, .association, some owners⟩

def shops : Schema := .mk "Shop" [shopOwner] []

theorem built_shops : Built shops :=
  have hplaces : Built places := .of_eq rfl (by simp [places, fields])
  have howners : Built owners := .of_eq rfl (by simp [owners, fields, hplaces])
  .of_eq rfl (by simp [shops, fields, shopOwner, howners])

/-- An alias behind a field, which leads to another alias with something behind it. -/
theorem shops_town :
    Built shops ∧
      (∀ d ≠ greatestWord, shops.resolve (d + 1) "owner.town" =
        (shops.resolve d "owner.home.city").mapError (·.withLimit (d + 1))) ∧
      (∀ d ≠ greatestWord, shops.resolve (d + 1) "owner.home.city" =
        (shops.resolve d "owner.address.city").mapError (·.withLimit (d + 1))) ∧
      (shops.resolve 5 "owner.town").map (·.dotted) = .ok "owner.address.city" := by
  have howner : Leads shops ["owner"] 1 [shopOwner] owners [] :=
    .enter (f := shopOwner) List.mem_cons_self (.inr rfl) rfl .here
  have htown (d : UInt64) := resolve_alias (d := d) built_shops
    (by decide : ∀ name ∈ ["owner"] ++ "town" :: [], IsName name) howner
    (by simp [owners, aliases] : ("town", "home.city") ∈ owners.aliases) (by decide)
  have hhome (d : UInt64) := resolve_alias (d := d) built_shops
    (by decide : ∀ name ∈ ["owner"] ++ "home" :: ["city"], IsName name) howner
    (by simp [owners, aliases] : ("home", "address") ∈ owners.aliases) (by decide)
  exact ⟨built_shops, htown, hhome, rfl⟩

/-- The alias of a ring and its target are one name. At the limit below the greatest it exceeds the
limit, and at the greatest it does not. -/
theorem ring_again_differs :
    Built ring ∧ ("again", "again") ∈ ring.aliases ∧
      ring.resolve (greatestWord - 1) "again" = .error (.depthExceeded (greatestWord - 1)) ∧
        ∀ max, ring.resolve (greatestWord - 1 + 1) "again" ≠ .error (.depthExceeded max) := by
  refine ⟨built_ring, by simp [ring, aliases], ?_, fun max => ?_⟩
  · rw [resolve_ring, PathError.beyond_of_ne (by decide)]
  · rw [resolve_ring, UInt64.sub_add_cancel, PathError.beyond_greatestWord]
    simp

end Schema

end RecordFilter
