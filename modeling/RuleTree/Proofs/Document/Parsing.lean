import RuleTree.Proofs.Build.Nodes
import RuleTree.Proofs.Document.Forms

/-!
# Parsing is reading

Parsing finds all errors of a document, sorts them and builds the tree only if there are none; reading looks at each node
before those inside it and ends at the first that is wrong. They give the same tree or the same error, and parsing is never
stuck.
-/

namespace RuleTree.Document

open Form (ruleErrors mem_ruleErrors_of_not_map mem_ruleErrors_of_no_kind mem_ruleErrors_of_unknown_kind
  mem_ruleErrors_of_kind mem_ruleErrors_of_wellFormed mem_errors_ofKind mem_errors_ofField typesOf wording_typesOf)

/-! ### Building -/

section Building

variable {k : RuleKind} {v : Value} {entries : List (Value × Value)} {t : Tree}

theorem kindValue_of_kind (h : kindOf entries = .ok k) : kindValue (.map entries) = .str k.name := by
  have hproperty : kindValue (.map entries) = (Value.lookup (.str "kind") entries).getD .null := rfl
  rw [hproperty, kindOf_eq_ok_iff.mp h]
  rfl

theorem hasRules_of_known (hknown : ∀ e ∈ entries, isKnown k e.1 = true) (h : Value.lookup (.str "rules") entries = some v) :
    hasRules k = true := by
  have hname : (false || (fieldsOf k).contains "rules") = true := hknown _ (mem_of_lookup_str h)
  rwa [Bool.false_or] at hname

/-- A node that is well formed by itself gives the rule of its fields, with the rules of the nodes inside it. -/
theorem build_of_wellFormed (h : wellFormedKind entries = .ok k) : build (.map entries) =
    (buildAll (rulesOf entries)).map (treeOf k fun name => Value.property (.text name) entries) := by
  obtain ⟨hkind, hfields⟩ := wellFormedKind_eq_ok_iff.mp h
  obtain ⟨hknown, -⟩ := fieldFault?_eq_none_iff.mp hfields
  have hname : (Value.property (.text "kind") entries).str?.bind RuleKind.ofName? = some k :=
    bind_ofName?_eq_some_iff.mpr (kindValue_of_kind hkind)
  have hall : (entries.all fun e => isNamed ("kind" :: fieldsOf k) e.1) = true := by
    rw [List.all_eq_true]
    intro e he
    rw [Form.isNamed_eq_isKnown]
    exact hknown e he
  rw [build, hname]
  simp only [hall, if_true]
  have hnone (hv : Value.lookup (.str "rules") entries = none) : buildAll (rulesOf entries) = .ok [] := by
    rw [rulesOf_of_none hv, buildAll]
  split
  · split
    · next hv =>
      rw [hnone hv]
      rfl
    · next items hv =>
      rw [rulesOf_of_lookup hv]
      cases buildAll items <;> rfl
    · next items hv => cases isList_of_lookup h hv
    · next v hnotList hnotTuple hv =>
      have hlist := isList_of_lookup h hv
      cases v with
      | list items => exact absurd rfl (hnotList items)
      | _ => cases hlist
  · next hrules =>
    cases hv : Value.lookup (.str "rules") entries with
    | none =>
      rw [hnone hv]
      rfl
    | some v => exact absurd (hasRules_of_known hknown hv) hrules

theorem buildAll_eq_ok {vs : List Value} {ts : List Tree} (h : List.Forall₂ (fun v t => build v = .ok t) vs ts) :
    buildAll vs = .ok ts := by
  induction h with
  | nil => rw [buildAll]
  | cons hv _ ih =>
    rw [buildAll, hv, ih]
    rfl

/-- What is read has no errors, and is built. -/
theorem parsed_of_read (v : Value) : ∀ t, read v = .ok t → (∀ e, e ∉ ruleErrors v) ∧ build v = .ok t := by
  induction v using node_induct with
  | other v hv =>
    intro t ht
    rw [read_of_not_map hv] at ht
    cases ht
  | map entries ih =>
    intro t ht
    cases hkind : wellFormedKind entries with
    | error f =>
      rw [read_of_fault hkind] at ht
      cases ht
    | ok k =>
      rw [read_of_wellFormed hkind] at ht
      obtain ⟨ts, hts, rfl⟩ := map_eq_ok_iff.mp ht
      have hrow := readItems_eq_ok_iff.mp hts
      constructor
      · intro e he
        obtain ⟨j, u, hu, d, hd, -⟩ := (mem_ruleErrors_of_wellFormed hkind).mp he
        have hmem := List.mem_of_getElem? hu
        obtain ⟨s, -, hs⟩ := exists_right_of_forall₂ hrow hmem
        exact (ih u hmem s hs).1 d hd
      · have hbuilt : List.Forall₂ (fun v t => build v = .ok t) (rulesOf entries) ts :=
          forall₂_imp_of_mem hrow fun u hu s hs => (ih u hu s hs).2
        rw [build_of_wellFormed hkind, buildAll_eq_ok hbuilt]
        rfl

end Building

/-! ### Errors in words -/

section Words

variable {k : RuleKind} {v : Value} {entries : List (Value × Value)} {e : FormError}

theorem describe_unknown (h : kindOf entries = .ok k) :
    describe (.unknown ("kind" :: fieldsOf k)) v (.map entries) [] =
      .ok (.unknownProperties k (unknownKeys k entries)) := by
  simp only [describe, faultOfKind, kindValue_of_kind h, Value.str?, Option.bind_some, RuleKind.ofName?_name,
    Form.isNamed_eq_isKnown]
  rfl

theorem describe_type {name : String} {wanted : List FormType} (h : kindOf entries = .ok k) :
    describe (.type wanted) v (.map entries) [.field name] =
      .ok (.fieldType k name (FormType.wording wanted)) := by
  simp only [describe, faultOfKind, kindValue_of_kind h, Value.str?, Option.bind_some, RuleKind.ofName?_name]

theorem locate_field {fault : FormFault} {node : Value} {name : String} :
    locate fault v node [.field name] = (describe fault v node [.field name]).map fun fault => { fault } := by
  rw [locate]
  simp

end Words

/-! ### The first error of a node -/

section First

variable {k : RuleKind} {v : Value} {entries : List (Value × Value)} {f : SchemaFault} {e m : FormError}
  {errors : List FormError}

theorem first_of_only (h : ∀ e, e ∈ errors ↔ e = m) : First m errors :=
  ⟨(h m).mpr rfl, fun e he => .inl ((h e).mp he)⟩

theorem typedFields_sorted : typedFields.Pairwise fun g h => g.name < h.name := by
  decide

theorem typedFields_not_kind : ∀ g ∈ typedFields, g.name ≠ "kind" := by
  decide

theorem typedFields_rules : ∀ g ∈ typedFields, g.name = "rules" ∨ g.name < "rules" := by
  decide

theorem before_field {a b : String} {p q : List Segment} (h : a < b) : before (.field a :: p) (.field b :: q) = true :=
  before_cons_of_lt (decide_eq_true h)

/-- Unknown fields are the first error, as it is one of the node. -/
theorem first_unknown (hkind : kindOf entries = .ok k) (hkeys : unknownKeys k entries ≠ []) :
    First ⟨[], .unknown ("kind" :: fieldsOf k), .map entries⟩ (ruleErrors (.map entries)) := by
  constructor
  · rw [mem_ruleErrors_of_kind hkind, mem_errors_ofKind]
    exact .inl ⟨hkeys, rfl⟩
  · intro e he
    rw [mem_ruleErrors_of_kind hkind, mem_errors_ofKind] at he
    rcases he with ⟨-, rfl⟩ | ⟨name, -, v, -, d, -, rfl⟩
    · exact .inl rfl
    · exact .inr rfl

/-- The first field of a wrong form is the first error, as the names of the fields are in order. -/
theorem first_type {front back : List Field} {g : Field} (hkind : kindOf entries = .ok k)
    (hkeys : unknownKeys k entries = []) (htyped : typedFields = front ++ g :: back)
    (hfront : ∀ h ∈ front, ¬BadField entries h) (hv : Value.lookup (.str g.name) entries = some v)
    (hbad : g.holds v = false) :
    First ⟨[.field g.name], .type (typesOf g.name), v⟩ (ruleErrors (.map entries)) := by
  have hg : g ∈ typedFields := by rw [htyped]; simp
  constructor
  · have hname := unknownKeys_eq_nil_iff.mp hkeys _ (mem_of_lookup_str hv)
    have hmem : g.name ∈ fieldsOf k := by
      rcases Bool.or_eq_true_iff.mp hname with heq | hmem
      · exact absurd (beq_iff_eq.mp heq) (typedFields_not_kind g hg)
      · exact List.contains_iff_mem.mp hmem
    rw [mem_ruleErrors_of_kind hkind, mem_errors_ofKind]
    refine .inr ⟨g.name, hmem, v, hv, ⟨[], .type (typesOf g.name), v⟩, ?_, rfl⟩
    exact mem_errors_ofField.mpr (.inl ⟨g, hg, rfl, hbad, rfl⟩)
  · intro e he
    rw [mem_ruleErrors_of_kind hkind, mem_errors_ofKind] at he
    rcases he with ⟨hne, -⟩ | ⟨name, -, u, hu, d, hd, rfl⟩
    · exact absurd hkeys hne
    rcases mem_errors_ofField.mp hd with ⟨h, hh, rfl, hbadh, rfl⟩ | ⟨rfl, items, rfl, j, w, -, c, -, rfl⟩
    · rw [htyped, List.mem_append, List.mem_cons] at hh
      rcases hh with hh | rfl | hh
      · exact absurd ⟨u, hu, hbadh⟩ (hfront h hh)
      · rw [hv] at hu
        cases hu
        exact .inl rfl
      · -- fields are looked at in the order of their names, which is the order of the paths
        have hsorted := typedFields_sorted
        rw [htyped, List.pairwise_append] at hsorted
        exact .inr (before_field (List.rel_of_pairwise_cons hsorted.2.1 hh))
    · rcases typedFields_rules g hg with hname | hlt
      · rw [hname, hu] at hv
        cases hv
        have hholds := Form.holds_eq hg (.list items)
        rw [hname, hbad] at hholds
        cases hholds
      · exact .inr (before_field hlt)

/-- The first error inside the first node that is not read is the first of all errors. -/
theorem first_inside {front back : List Value} {u : Value} (h : wellFormedKind entries = .ok k)
    (hrules : rulesOf entries = front ++ u :: back) (hfront : ∀ w ∈ front, ∃ t, read w = .ok t)
    (hm : First m (ruleErrors u)) :
    First ((m.under (.element front.length)).under (.field "rules")) (ruleErrors (.map entries)) := by
  obtain ⟨hmem, hfirst⟩ := hm
  constructor
  · have hget : (rulesOf entries)[front.length]? = some u := by rw [hrules]; simp
    exact (mem_ruleErrors_of_wellFormed h).mpr ⟨front.length, u, hget, m, hmem, rfl⟩
  · intro e he
    obtain ⟨j, w, hw, d, hd, rfl⟩ := (mem_ruleErrors_of_wellFormed h).mp he
    rw [hrules] at hw
    -- the nodes in front are read, so they have no errors, and errors of the nodes behind have a greater index
    rcases Nat.lt_trichotomy j front.length with hj | rfl | hj
    · rw [List.getElem?_append_left hj] at hw
      obtain ⟨t, ht⟩ := hfront w (List.mem_of_getElem? hw)
      exact absurd hd ((parsed_of_read w t ht).1 d)
    · have hsame : u = w := by simpa using hw
      subst hsame
      rcases hfirst d hd with rfl | hbefore
      · exact .inl rfl
      · exact .inr (before_cons _ (before_cons _ hbefore))
    · exact .inr (before_cons _ (before_cons_of_lt (decide_eq_true hj)))

theorem locate_inside {j : Nat} {u : Value} {d : SchemaError} (h : wellFormedKind entries = .ok k)
    (hget : (rulesOf entries)[j]? = some u) (hm : locate m.fault m.value u m.path = .ok d) :
    locate m.fault m.value (.map entries) (.field "rules" :: .element j :: m.path) =
      .ok (d.within { kind := k.name, index := some (1 + j : Nat) }) := by
  obtain ⟨hkind, -⟩ := wellFormedKind_eq_ok_iff.mp h
  obtain ⟨items, hitems, hrules⟩ := lookup_of_mem_rulesOf (List.mem_of_getElem? hget)
  have hindex : (j : Int) + 1 = (1 + j : Nat) := by omega
  rw [hrules] at hget
  simp only [locate, hitems, hget, hm, kindValue_of_kind hkind, hindex]
  rfl

theorem located_of_fault (h : wellFormedKind entries = .error f) :
    ∃ m, First m (ruleErrors (.map entries)) ∧ locate m.fault m.value (.map entries) m.path = .ok { fault := f } := by
  rcases wellFormedKind_eq_error_iff.mp h with hkind | ⟨k, hkind, hfield⟩
  · rcases kindOf_eq_error_iff.mp hkind with ⟨hnone, rfl⟩ | ⟨v, hv, hunknown, rfl⟩
    · exact ⟨_, first_of_only fun e => mem_ruleErrors_of_no_kind hnone, rfl⟩
    · exact ⟨_, first_of_only fun e => mem_ruleErrors_of_unknown_kind hv hunknown, rfl⟩
  · rcases fieldFault?_eq_some_iff.mp hfield with ⟨hkeys, rfl⟩ | ⟨hkeys, front, g, back, htyped, hfront, ⟨v, hv, hbad⟩, rfl⟩
    · refine ⟨_, first_unknown hkind hkeys, ?_⟩
      rw [locate, describe_unknown hkind]
      · rfl
      · simp
    · refine ⟨_, first_type hkind hkeys htyped hfront hv hbad, ?_⟩
      have hg : g ∈ typedFields := by rw [htyped]; simp
      rw [locate_field, describe_type hkind, wording_typesOf g hg]
      rfl

theorem located_of_read (v : Value) : ∀ d, read v = .error d →
    ∃ m, First m (ruleErrors v) ∧ locate m.fault m.value v m.path = .ok d := by
  induction v using node_induct with
  | other v hv =>
    intro d hd
    rw [read_of_not_map hv] at hd
    cases hd
    exact ⟨_, first_of_only fun e => mem_ruleErrors_of_not_map hv, rfl⟩
  | map entries ih =>
    intro d hd
    cases hkind : wellFormedKind entries with
    | error f =>
      rw [read_of_fault hkind] at hd
      cases hd
      exact located_of_fault hkind
    | ok k =>
      rw [read_of_wellFormed hkind] at hd
      obtain ⟨front, u, back, c, hrules, hfront, hu, rfl⟩ := readItems_eq_error_iff.mp (map_eq_error_iff.mp hd)
      have hget : (rulesOf entries)[front.length]? = some u := by rw [hrules]; simp
      obtain ⟨m, hfirst, hlocate⟩ := ih u (List.mem_of_getElem? hget) c hu
      exact ⟨_, first_inside hkind hrules hfront hfirst, locate_inside hkind hget hlocate⟩

end First

/-- Parsing gives what reading gives, if all errors can be told, and is never stuck. -/
theorem parse_eq_read (v : Value) :
    parse v = if (ruleErrors v).all FormError.isWritable then (read v).mapError .schema else .error .unwritable := by
  have hpaths := Form.alternates_of_mem_ruleErrors v
  rw [parse]
  by_cases hwritable : (ruleErrors v).all FormError.isWritable = true
  · simp only [hwritable, if_true]
    cases hv : read v with
    | ok t =>
      obtain ⟨hnone, hbuild⟩ := parsed_of_read v t hv
      have herrors : ruleErrors v = [] := List.eq_nil_iff_forall_not_mem.mpr hnone
      rw [herrors, sortErrors_nil]
      simp only [hbuild]
      rfl
    | error d =>
      obtain ⟨m, hfirst, hlocate⟩ := located_of_read v d hv
      obtain ⟨rest, hsort⟩ := sortErrors_first hpaths hfirst
      rw [hsort]
      simp only [hlocate]
      rfl
  · simp only [hwritable, if_false, Bool.false_eq_true]

theorem parse_eq_ok_iff {v : Value} {t : Tree} : parse v = .ok t ↔ read v = .ok t := by
  rw [parse_eq_read]
  cases hv : read v with
  | ok s =>
    have hnone := (parsed_of_read v s hv).1
    rw [List.eq_nil_iff_forall_not_mem.mpr hnone]
    simp [Except.mapError]
  | error d =>
    constructor
    · intro h
      split at h <;> cases h
    · intro h
      cases h

theorem parse_eq_error_iff {v : Value} {fault : ParseFault} : parse v = .error fault ↔
    (∃ e ∈ ruleErrors v, e.isWritable = false) ∧ fault = .unwritable ∨
      (∀ e ∈ ruleErrors v, e.isWritable = true) ∧ ∃ e, read v = .error e ∧ fault = .schema e := by
  rw [parse_eq_read, ← List.all_eq_true]
  cases hall : (ruleErrors v).all FormError.isWritable with
  | true =>
    have hnone : ¬∃ e ∈ ruleErrors v, e.isWritable = false := by
      rintro ⟨e, he, hw⟩
      rw [List.all_eq_true.mp hall e he] at hw
      cases hw
    simp only [hnone, if_true, false_and, false_or, true_and]
    cases read v with
    | ok s => simp [Except.mapError]
    | error d => simp [Except.mapError, eq_comm]
  | false =>
    have hsome : ∃ e ∈ ruleErrors v, e.isWritable = false := by
      obtain ⟨e, he, hw⟩ := List.all_eq_false.mp hall
      exact ⟨e, he, Bool.eq_false_iff.mpr hw⟩
    simp only [hsome, Bool.false_eq_true, if_false, Except.error.injEq, true_and, false_and, or_false]
    exact eq_comm

theorem parse_eq_schema_iff {v : Value} {e : SchemaError} : parse v = .error (.schema e) ↔
    (∀ d ∈ ruleErrors v, d.isWritable = true) ∧ read v = .error e := by
  rw [parse_eq_error_iff]
  simp

end RuleTree.Document
