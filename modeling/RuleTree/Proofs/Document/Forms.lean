import RuleTree.Document.RuleForm
import RuleTree.Proofs.Document.Nodes
import RuleTree.Proofs.Document.Paths

/-!
# Errors of rule documents

Which errors the form of rule documents finds. A node that is no mapping, has no kind or has an unknown one has this error
and no other. A node of some kind is left to the branch for its kind, and has an error for unknown fields, one for each
field of a wrong form, and the errors of the nodes inside it.
-/

namespace RuleTree.Document.Form

section Errors

variable {root form : Form} {v : Value} {entries : List (Value × Value)} {e : FormError}

/-! ### Rows of forms -/

theorem mem_errorsOfAll {forms : List Form} : e ∈ errorsOfAll root forms v ↔ ∃ f ∈ forms, e ∈ errors root f v := by
  induction forms with
  | nil => simp [errorsOfAll]
  | cons f forms ih => simp [errorsOfAll, ih]

theorem mem_errors_all {forms : List Form} : e ∈ errors root (.all forms) v ↔ ∃ f ∈ forms, e ∈ errors root f v := by
  rw [errors, mem_errorsOfAll]

theorem errorsOfFields_of_some {name : String} {fields : List (String × Form)}
    (h : Value.lookup (.str name) entries = some v) : errorsOfFields root ((name, form) :: fields) entries =
      (errors root form v).map (·.under (.field name)) ++ errorsOfFields root fields entries := by
  rw [errorsOfFields]
  split
  · next u hu =>
    rw [h] at hu
    cases hu
    rfl
  · next hu =>
    rw [h] at hu
    cases hu

theorem errorsOfFields_of_none {name : String} {fields : List (String × Form)}
    (h : Value.lookup (.str name) entries = none) :
    errorsOfFields root ((name, form) :: fields) entries = errorsOfFields root fields entries := by
  rw [errorsOfFields]
  split
  · next u hu =>
    rw [h] at hu
    cases hu
  · rfl

theorem mem_errorsOfFields {fields : List (String × Form)} : e ∈ errorsOfFields root fields entries ↔
    ∃ f ∈ fields, ∃ v, Value.lookup (.str f.1) entries = some v ∧ ∃ d ∈ errors root f.2 v, e = d.under (.field f.1) := by
  induction fields with
  | nil => simp [errorsOfFields]
  | cons f fields ih =>
    obtain ⟨name, form⟩ := f
    rw [List.exists_mem_cons_iff, ← ih]
    cases hv : Value.lookup (.str name) entries with
    | none => simp [errorsOfFields_of_none hv]
    | some v => simp [errorsOfFields_of_some hv, eq_comm]

theorem mem_errorsOfElements {i : Nat} {items : List Value} : e ∈ errorsOfElements root i items ↔
    ∃ j v, items[j]? = some v ∧ ∃ d ∈ errors root root v, e = d.under (.element (i + j)) := by
  induction items generalizing i with
  | nil => simp [errorsOfElements]
  | cons v items ih =>
    rw [errorsOfElements, List.mem_append, ih]
    constructor
    · rintro (h | ⟨j, u, hu, d, hd, rfl⟩)
      · obtain ⟨d, hd, rfl⟩ := List.mem_map.mp h
        exact ⟨0, v, rfl, d, hd, rfl⟩
      · exact ⟨j + 1, u, hu, d, hd, by rw [Nat.add_assoc, Nat.add_comm 1]⟩
    · rintro ⟨j, u, hu, d, hd, rfl⟩
      cases j with
      | zero =>
        obtain rfl : v = u := by simpa using hu
        exact .inl (List.mem_map.mpr ⟨d, hd, rfl⟩)
      | succ j => exact .inr ⟨j, u, hu, d, hd, by rw [Nat.add_assoc, Nat.add_comm 1]⟩

/-! ### Mappings of a kind -/

theorem errors_record_of_not_map {fields : List (String × Form)} (h : ∀ entries, v ≠ .map entries) :
    errors root (record fields) v = [] := by
  cases v with
  | map entries => exact absurd rfl (h entries)
  | _ => simp [record, errors, errorsOfAll]

theorem mem_errors_record {fields : List (String × Form)} : e ∈ errors root (record fields) (.map entries) ↔
    (¬∀ entry ∈ entries, isNamed ("kind" :: fields.map Prod.fst) entry.1 = true) ∧
      e = ⟨[], .unknown ("kind" :: fields.map Prod.fst), .map entries⟩ ∨
    ∃ f ∈ fields, ∃ v, Value.lookup (.str f.1) entries = some v ∧ ∃ d ∈ errors root f.2 v, e = d.under (.field f.1) := by
  have hkind : errors root .any = fun _ => [] := by
    funext v
    rw [errors]
  have hclosed : e ∈ errors root (.closed ("kind" :: fields.map Prod.fst)) (.map entries) ↔
      (¬∀ entry ∈ entries, isNamed ("kind" :: fields.map Prod.fst) entry.1 = true) ∧
        e = ⟨[], .unknown ("kind" :: fields.map Prod.fst), .map entries⟩ := by
    rw [errors]
    split
    · next hall =>
      rw [List.all_eq_true] at hall
      exact ⟨fun h => absurd h List.not_mem_nil, fun h => absurd hall h.1⟩
    · next hall =>
      rw [List.all_eq_true] at hall
      exact ⟨fun h => ⟨hall, List.mem_singleton.mp h⟩, fun h => List.mem_singleton.mpr h.2⟩
  rw [record, mem_errors_all]
  simp only [List.mem_cons, List.not_mem_nil, or_false, exists_eq_or_imp, exists_eq_left]
  rw [errors, hclosed, mem_errorsOfFields]
  simp only [List.mem_cons, exists_eq_or_imp, hkind, List.not_mem_nil, false_and, exists_false, and_false, false_or]
  exact or_comm

/-! ### The kind of a node -/

theorem errors_kindOneOf_of_none {kinds : List String} (h : Value.lookup (.str "kind") entries = none) :
    errors root (.properties [("kind", .oneOf kinds)]) (.map entries) = [] := by
  rw [errors, errorsOfFields_of_none h, errorsOfFields]

theorem errors_kindOneOf_of_some {kinds : List String} (h : Value.lookup (.str "kind") entries = some v) :
    errors root (.properties [("kind", .oneOf kinds)]) (.map entries) =
      if v.str?.any kinds.contains then [] else [⟨[.field "kind"], .oneOf, v⟩] := by
  rw [errors, errorsOfFields_of_some h, errorsOfFields, errors]
  split <;> rfl

theorem errors_has {name : String} : errors root (.has name) (.map entries) =
    if (Value.lookup (.str name) entries).isSome then [] else [⟨[], .required, .map entries⟩] := by
  rw [errors]

theorem errors_whenKind {kinds : List String} : errors root (whenKind kinds form) (.map entries) =
    if ((Value.lookup (.str "kind") entries).bind Value.str?).any kinds.contains then errors root form (.map entries)
    else [] := by
  rw [whenKind, errors, errors, errorsOfAll, errorsOfAll, errorsOfAll, errors_has]
  cases hv : Value.lookup (.str "kind") entries with
  | none => rfl
  | some v =>
    rw [errors_kindOneOf_of_some hv]
    simp only [Option.bind_some]
    by_cases hkind : v.str?.any kinds.contains = true
    · simp [hkind]
    · simp [hkind]

end Errors

/-! ### The form of a kind -/

/-- The types of a field whose form is laid down. -/
def typesOf : String → List FormType
  | "message" => [.string, .null]
  | "name" => [.string, .integer]
  | "regex" => [.string]
  | "rules" => [.array]
  | _ => []

def ofField (name : String) : Form :=
  if name = "rules" then rules else if (typesOf name).isEmpty then .any else .type (typesOf name)

def ofKind (k : RuleKind) : Form := record ((fieldsOf k).map fun name => (name, ofField name))

/-- Of the branches there is one for each kind. -/
theorem filter_branches (k : RuleKind) : ∃ names, branches.filter (fun b => b.1.contains k.name) = [(names, ofKind k)] := by
  cases k with
  | bound b => cases b <;> exact ⟨_, rfl⟩
  | dateBound b => cases b <;> exact ⟨_, rfl⟩
  | container p => cases p <;> exact ⟨_, rfl⟩
  | _ => exact ⟨_, rfl⟩

theorem kinds_eq : kinds = RuleKind.all.map RuleKind.name := rfl

theorem kinds_contains_iff {v : Value} : v.str?.any kinds.contains = true ↔ ∃ k, v = .str (RuleKind.name k) := by
  rw [kinds_eq]
  constructor
  · intro h
    cases v with
    | str s =>
      obtain ⟨k, -, rfl⟩ := List.mem_map.mp (List.contains_iff_mem.mp h)
      exact ⟨k, rfl⟩
    | _ => cases h
  · rintro ⟨k, rfl⟩
    exact List.contains_iff_mem.mpr (List.mem_map_of_mem (RuleKind.mem_all k))

theorem mem_kinds_of_mem_branches : ∀ b ∈ branches, ∀ name ∈ b.1, name ∈ kinds := by
  decide

/-! ### Errors of nodes -/

section Nodes

variable {k : RuleKind} {v : Value} {entries : List (Value × Value)} {e : FormError}

theorem mem_errors_branches {root : Form} :
    e ∈ errors root (.all (branches.map fun b => whenKind b.1 b.2)) (.map entries) ↔
      ∃ b ∈ branches, ((Value.lookup (.str "kind") entries).bind Value.str?).any b.1.contains = true ∧
        e ∈ errors root b.2 (.map entries) := by
  rw [mem_errors_all]
  simp only [List.mem_map, exists_exists_and_eq_and, errors_whenKind]
  refine exists_congr fun b => and_congr_right fun _ => ?_
  split
  · next h => simp [h]
  · next h => simp [h]

theorem mem_errors_rule {root : Form} : e ∈ errors root rule v ↔
    e ∈ errors root (.type [.object]) v ∨ e ∈ errors root (.has "kind") v ∨
      e ∈ errors root (.properties [("kind", .oneOf kinds)]) v ∨
      e ∈ errors root (.all (branches.map fun b => whenKind b.1 b.2)) v := by
  rw [rule, mem_errors_all]
  simp only [List.mem_cons, List.not_mem_nil, or_false, exists_eq_or_imp, exists_eq_left]

theorem record_of_mem_branches {b : List String × Form} (h : b ∈ branches) : ∃ fields, b.2 = record fields := by
  simp only [branches, List.mem_cons, List.not_mem_nil, or_false] at h
  rcases h with rfl | rfl | rfl | rfl | rfl | rfl | rfl | rfl <;> exact ⟨_, rfl⟩

/-- No branch has anything to say of what is no mapping. -/
theorem not_mem_errors_branches {root : Form} (h : ∀ entries, v ≠ .map entries) :
    e ∉ errors root (.all (branches.map fun b => whenKind b.1 b.2)) v := by
  rw [mem_errors_all]
  rintro ⟨f, hf, he⟩
  obtain ⟨b, hb, rfl⟩ := List.mem_map.mp hf
  obtain ⟨fields, hfields⟩ := record_of_mem_branches hb
  rw [whenKind, errors, hfields, errors_record_of_not_map h] at he
  split at he
  · exact List.not_mem_nil he
  · exact List.not_mem_nil he

theorem mem_ruleErrors_of_not_map (h : ∀ entries, v ≠ .map entries) :
    e ∈ ruleErrors v ↔ e = ⟨[], .type [.object], v⟩ := by
  have hbranches : e ∉ errors rule (.all (branches.map fun b => whenKind b.1 b.2)) v := not_mem_errors_branches h
  have htype : errors rule (.type [.object]) v = [⟨[], .type [.object], v⟩] := by
    cases v with
    | map entries => exact absurd rfl (h entries)
    | _ =>
      rw [errors]
      rfl
  have hhas : errors rule (.has "kind") v = [] := by
    cases v with
    | map entries => exact absurd rfl (h entries)
    | _ => simp [errors]
  have hkind : errors rule (.properties [("kind", .oneOf kinds)]) v = [] := by
    cases v with
    | map entries => exact absurd rfl (h entries)
    | _ => simp [errors]
  rw [ruleErrors, mem_errors_rule, htype, hhas, hkind]
  simp [hbranches]

theorem errors_type_object {root : Form} : errors root (.type [.object]) (.map entries) = [] := by
  rw [errors]
  rfl

theorem mem_ruleErrors_of_no_kind (h : Value.lookup (.str "kind") entries = none) :
    e ∈ ruleErrors (.map entries) ↔ e = ⟨[], .required, .map entries⟩ := by
  rw [ruleErrors, mem_errors_rule, mem_errors_branches, errors_type_object, errors_has, errors_kindOneOf_of_none h, h]
  simp

theorem mem_ruleErrors_of_unknown_kind (h : Value.lookup (.str "kind") entries = some v)
    (hv : v.str?.bind RuleKind.ofName? = none) :
    e ∈ ruleErrors (.map entries) ↔ e = ⟨[.field "kind"], .oneOf, v⟩ := by
  have hkind : ¬v.str?.any kinds.contains = true := by
    intro hkind
    obtain ⟨k, rfl⟩ := kinds_contains_iff.mp hkind
    rw [bind_ofName?_eq_some_iff.mpr rfl] at hv
    cases hv
  have hbranch : ¬∃ b ∈ branches, v.str?.any b.1.contains = true ∧ e ∈ errors rule b.2 (.map entries) := by
    rintro ⟨b, hb, hany, -⟩
    cases v with
    | str s =>
      exact hkind (List.contains_iff_mem.mpr (mem_kinds_of_mem_branches b hb s (List.contains_iff_mem.mp hany)))
    | _ => cases hany
  rw [ruleErrors, mem_errors_rule, mem_errors_branches, errors_type_object, errors_has, errors_kindOneOf_of_some h, h,
    if_neg hkind, Option.bind_some]
  simp [hbranch]

/-- A node of some kind has the errors of the form of its kind. -/
theorem mem_ruleErrors_of_kind (h : kindOf entries = .ok k) :
    e ∈ ruleErrors (.map entries) ↔ e ∈ errors rule (ofKind k) (.map entries) := by
  have hv := kindOf_eq_ok_iff.mp h
  have hkind : (Value.str k.name).str?.any kinds.contains = true := kinds_contains_iff.mpr ⟨k, rfl⟩
  obtain ⟨names, hfilter⟩ := filter_branches k
  have hbranch (b : List String × Form) : (b ∈ branches ∧ b.1.contains k.name = true) ↔ b = (names, ofKind k) := by
    have hmem : b ∈ branches.filter (fun b => b.1.contains k.name) ↔ b = (names, ofKind k) := by
      rw [hfilter, List.mem_singleton]
    rwa [List.mem_filter] at hmem
  have hbranches : (∃ b ∈ branches, (Value.str k.name).str?.any b.1.contains = true ∧
      e ∈ errors rule b.2 (.map entries)) ↔ e ∈ errors rule (ofKind k) (.map entries) := by
    constructor
    · rintro ⟨b, hb, hany, he⟩
      obtain rfl := (hbranch b).mp ⟨hb, hany⟩
      exact he
    · intro he
      obtain ⟨hb, hany⟩ := (hbranch _).mpr rfl
      exact ⟨_, hb, hany, he⟩
  rw [ruleErrors, mem_errors_rule, mem_errors_branches, errors_type_object, errors_has, errors_kindOneOf_of_some hv, hv,
    if_pos hkind, Option.bind_some, hbranches]
  simp

/-! ### Errors of fields -/

theorem isNamed_eq_isKnown (key : Value) : isNamed ("kind" :: fieldsOf k) key = isKnown k key := by
  cases key with
  | str s => exact List.contains_cons
  | _ => rfl

theorem mem_errors_ofKind : e ∈ errors rule (ofKind k) (.map entries) ↔
    unknownKeys k entries ≠ [] ∧ e = ⟨[], .unknown ("kind" :: fieldsOf k), .map entries⟩ ∨
    ∃ name ∈ fieldsOf k, ∃ v, Value.lookup (.str name) entries = some v ∧
      ∃ d ∈ errors rule (ofField name) v, e = d.under (.field name) := by
  have hnames : ((fieldsOf k).map fun name => (name, ofField name)).map Prod.fst = fieldsOf k := by
    rw [List.map_map]
    exact List.map_id _
  rw [ofKind, mem_errors_record, hnames, ne_eq, unknownKeys_eq_nil_iff]
  simp only [isNamed_eq_isKnown, List.mem_map, exists_exists_and_eq_and]

theorem holds_eq {g : Field} (hg : g ∈ typedFields) (v : Value) : g.holds v = (typesOf g.name).any (·.holds v) := by
  have hor (b : Bool) : (b || false) = b := Bool.or_false b
  simp only [typedFields, List.mem_cons, List.not_mem_nil, or_false] at hg
  rcases hg with rfl | rfl | rfl | rfl
  · cases v <;> rfl
  · cases v with
    | number n =>
      cases n with
      | float x => exact (hor x.isInteger).symm
      | _ => rfl
    | _ => rfl
  · cases v <;> rfl
  · cases v <;> rfl

theorem wording_typesOf : ∀ g ∈ typedFields, FormType.wording (typesOf g.name) = g.wanted := by
  decide

theorem typesOf_ne_nil : ∀ g ∈ typedFields, typesOf g.name ≠ [] := by
  decide

theorem exists_field_of_typesOf {name : String} (h : typesOf name ≠ []) : ∃ g ∈ typedFields, g.name = name := by
  unfold typesOf at h
  split at h
  · exact ⟨⟨"message", isTextOrNull, "a string"⟩, by simp [typedFields], rfl⟩
  · exact ⟨⟨"name", isName, "a string or an integer"⟩, by simp [typedFields], rfl⟩
  · exact ⟨⟨"regex", isText, "a string"⟩, by simp [typedFields], rfl⟩
  · exact ⟨⟨"rules", isList, "a list"⟩, by simp [typedFields], rfl⟩
  · exact absurd rfl h

/-- A field of a form that is laid down has an error if it is of another form. -/
theorem mem_errors_type {name : String} (h : typesOf name ≠ []) : e ∈ errors rule (.type (typesOf name)) v ↔
    ∃ g ∈ typedFields, g.name = name ∧ g.holds v = false ∧ e = ⟨[], .type (typesOf name), v⟩ := by
  rw [errors]
  cases hany : (typesOf name).any (·.holds v) with
  | true =>
    simp only [if_true, List.not_mem_nil, false_iff]
    rintro ⟨g, hg, rfl, hv, -⟩
    rw [holds_eq hg, hany] at hv
    cases hv
  | false =>
    simp only [Bool.false_eq_true, if_false, List.mem_singleton]
    obtain ⟨g, hg, rfl⟩ := exists_field_of_typesOf h
    constructor
    · rintro rfl
      exact ⟨g, hg, rfl, (holds_eq hg v).trans hany, rfl⟩
    · rintro ⟨-, -, -, -, rfl⟩
      rfl

theorem mem_errors_elements : e ∈ errors rule .elements v ↔
    ∃ items, v = .list items ∧ ∃ j u, items[j]? = some u ∧ ∃ d ∈ ruleErrors u, e = d.under (.element j) := by
  cases v with
  | list items =>
    rw [errors, mem_errorsOfElements]
    simp only [Nat.zero_add, Value.list.injEq, exists_eq_left']
    rfl
  | _ => simp [errors]

theorem mem_errors_ofField {name : String} : e ∈ errors rule (ofField name) v ↔
    (∃ g ∈ typedFields, g.name = name ∧ g.holds v = false ∧ e = ⟨[], .type (typesOf name), v⟩) ∨
    name = "rules" ∧ ∃ items, v = .list items ∧
      ∃ j u, items[j]? = some u ∧ ∃ d ∈ ruleErrors u, e = d.under (.element j) := by
  unfold ofField
  by_cases hname : name = "rules"
  · subst hname
    have htypes : typesOf "rules" ≠ [] := by decide
    rw [if_pos rfl, rules, mem_errors_all]
    simp only [List.mem_cons, List.not_mem_nil, or_false, exists_eq_or_imp, exists_eq_left, true_and]
    exact or_congr (mem_errors_type htypes) mem_errors_elements
  · rw [if_neg hname]
    by_cases htypes : typesOf name = []
    · have hany : (typesOf name).isEmpty = true := List.isEmpty_iff.mpr htypes
      rw [if_pos hany, errors]
      simp only [List.not_mem_nil, hname, false_and, or_false, false_iff]
      rintro ⟨g, hg, rfl, -, -⟩
      exact typesOf_ne_nil g hg htypes
    · have hany : ¬(typesOf name).isEmpty = true := fun h => htypes (List.isEmpty_iff.mp h)
      rw [if_neg hany, mem_errors_type htypes]
      simp only [hname, false_and, or_false]

/-! ### Nodes that are well formed by themselves -/

/-- The errors of a node that is well formed by itself are those of the nodes inside it. -/
theorem mem_ruleErrors_of_wellFormed (h : wellFormedKind entries = .ok k) : e ∈ ruleErrors (.map entries) ↔
    ∃ j u, (rulesOf entries)[j]? = some u ∧ ∃ d ∈ ruleErrors u, e = (d.under (.element j)).under (.field "rules") := by
  obtain ⟨hkind, hfields⟩ := wellFormedKind_eq_ok_iff.mp h
  obtain ⟨hknown, hgood⟩ := fieldFault?_eq_none_iff.mp hfields
  rw [mem_ruleErrors_of_kind hkind, mem_errors_ofKind]
  constructor
  · rintro (⟨hkeys, -⟩ | ⟨name, -, v, hv, d, hd, rfl⟩)
    · exact absurd (unknownKeys_eq_nil_iff.mpr hknown) hkeys
    · rcases mem_errors_ofField.mp hd with ⟨g, hg, rfl, hbad, -⟩ | ⟨rfl, items, rfl, j, u, hu, c, hc, rfl⟩
      · exact absurd ⟨v, hv, hbad⟩ (hgood g hg)
      · rw [rulesOf_of_lookup hv]
        exact ⟨j, u, hu, c, hc, rfl⟩
  · rintro ⟨j, u, hu, d, hd, rfl⟩
    cases hv : Value.lookup (.str "rules") entries with
    | none =>
      rw [rulesOf_of_none hv] at hu
      cases hu
    | some v =>
      have hlist := isList_of_lookup h hv
      cases v with
      | list items =>
        rw [rulesOf_of_lookup hv] at hu
        have hname : isKnown k (.str "rules") = true := hknown _ (mem_of_lookup_str hv)
        have hmem : "rules" ∈ fieldsOf k := by simpa [isKnown] using hname
        refine .inr ⟨"rules", hmem, .list items, hv, d.under (.element j), ?_, rfl⟩
        exact mem_errors_ofField.mpr (.inr ⟨rfl, items, rfl, j, u, hu, d, hd, rfl⟩)
      | _ => cases hlist

/-- The paths of errors go to fields and elements by turns. -/
theorem alternates_of_mem_ruleErrors (v : Value) : ∀ e ∈ ruleErrors v, Alternates e.path := by
  induction v using node_induct with
  | other v hv =>
    intro e he
    rw [(mem_ruleErrors_of_not_map hv).mp he]
    exact .here
  | map entries ih =>
    intro e he
    cases hkind : kindOf entries with
    | error f =>
      rcases kindOf_eq_error_iff.mp hkind with ⟨hnone, -⟩ | ⟨v, hv, hunknown, -⟩
      · rw [(mem_ruleErrors_of_no_kind hnone).mp he]
        exact .here
      · rw [(mem_ruleErrors_of_unknown_kind hv hunknown).mp he]
        exact .field "kind"
    | ok k =>
      rw [mem_ruleErrors_of_kind hkind, mem_errors_ofKind] at he
      rcases he with ⟨-, rfl⟩ | ⟨name, -, v, hv, d, hd, rfl⟩
      · exact .here
      · rcases mem_errors_ofField.mp hd with ⟨g, -, rfl, -, rfl⟩ | ⟨rfl, items, rfl, j, u, hu, c, hc, rfl⟩
        · exact .field g.name
        · refine .inside "rules" j (ih u ?_ c hc)
          rw [rulesOf_of_lookup hv]
          exact List.mem_of_getElem? hu

end Nodes

end RuleTree.Document.Form
