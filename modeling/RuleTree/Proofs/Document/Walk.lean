import RuleTree.Proofs.Document.Language

/-!
# The first bad node

The nodes of a document are walked through in the order in which they are written, each before those inside it. Main result:
the error of a document is about the first node with a fault of its own; its path is the way to this node, and of the faults
of the node the one that takes precedence is told.
-/

namespace RuleTree.Document

/-! ### Walking through a document -/

/-- What is found inside one of the rules of a node, as seen from the node. -/
def inside (kind : String) (index : Nat) (x : List Step × Value) : List Step × Value :=
  ({ kind, index := some index } :: x.1, x.2)

mutual

/-- The nodes of a document, each with the way to it: the kind of every node on the way, as it is written, and which of the
rules of this node is taken. -/
def walk : Value → List (List Step × Value)
  | .map entries => ([], .map entries) :: walkRow (kindValue (.map entries)).display 1 (rulesOf entries)
  | v => [([], v)]
termination_by v => sizeOf v
decreasing_by exact sizeOf_rulesOf_lt entries

/-- The nodes of a row of documents, which count from an index inside a node of some kind. -/
def walkRow (kind : String) (index : Nat) : List Value → List (List Step × Value)
  | [] => []
  | v :: vs => (walk v).map (inside kind index) ++ walkRow kind (index + 1) vs
termination_by vs => sizeOf vs

end

/-! ### Faults of a node -/

/-- The faults that a node has by itself. -/
inductive Offends : Value → SchemaFault → Prop
  | notMapping {v : Value} (h : ∀ entries, v ≠ .map entries) : Offends v (.notRule v.typeName)
  | noKind {entries : List (Value × Value)} (h : Value.lookup (.str "kind") entries = none) :
      Offends (.map entries) .missingKind
  | unknownKind {entries : List (Value × Value)} {v : Value} (h : Value.lookup (.str "kind") entries = some v)
      (unknown : ∀ k : RuleKind, v ≠ .str k.name) : Offends (.map entries) (.unexpected v.display)
  | unknownKeys {entries : List (Value × Value)} {k : RuleKind}
      (kind : Value.lookup (.str "kind") entries = some (.str k.name))
      (unknown : ∃ e ∈ entries, ∀ name ∈ "kind" :: fieldsOf k, e.1 ≠ .str name) :
      Offends (.map entries) (.unknownProperties k (unknownKeys k entries))
  | field {entries : List (Value × Value)} {k : RuleKind} {g : Field} {v : Value}
      (kind : Value.lookup (.str "kind") entries = some (.str k.name)) (typed : g ∈ typedFields)
      (h : Value.lookup (.str g.name) entries = some v) (wrong : ¬Allows g.name v) :
      Offends (.map entries) (.fieldType k g.name g.wanted)

def LocallyBad (v : Value) : Prop := ∃ f, Offends v f

/-- Which faults are told before others: those of a node as a whole, then those of its fields in order. -/
def precedence : SchemaFault → Nat
  | .unexpected _ => 1
  | .fieldType _ "message" _ => 2
  | .fieldType _ "name" _ => 3
  | .fieldType _ "regex" _ => 4
  | .fieldType _ "rules" _ => 5
  | _ => 0

section Faults

variable {k : RuleKind} {v : Value} {entries : List (Value × Value)} {f : SchemaFault}

theorem not_locallyBad_of_wellFormed (h : wellFormedKind entries = .ok k) : ¬LocallyBad (.map entries) := by
  obtain ⟨hkind, hknown, hallowed⟩ := wellFormedKind_eq_ok_iff_allows.mp h
  rintro ⟨f, hf⟩
  cases hf with
  | notMapping hmap => exact hmap entries rfl
  | noKind hnone =>
    rw [hkind] at hnone
    cases hnone
  | unknownKind hv hunknown =>
    rw [hkind] at hv
    cases hv
    exact hunknown k rfl
  | unknownKeys hk hunknown =>
    obtain rfl := kind_unique hkind hk
    obtain ⟨e, he, hnot⟩ := hunknown
    obtain ⟨name, hname, hkey⟩ := hknown e he
    exact hnot name hname hkey
  | field hk hg hv hwrong => exact hwrong (hallowed _ _ hv)

theorem typedFields_precedence (k : RuleKind) : typedFields.Pairwise fun g h =>
    precedence (.fieldType k g.name g.wanted) ≤ precedence (.fieldType k h.name h.wanted) := by
  simp [typedFields, precedence]

/-- With an unknown kind a node has no other fault. -/
theorem precedence_unexpected (h : Value.lookup (.str "kind") entries = some v) (hv : ∀ k : RuleKind, v ≠ .str k.name) :
    ∀ f, Offends (.map entries) f → precedence (.unexpected v.display) ≤ precedence f := by
  intro f hf
  cases hf with
  | notMapping hmap => exact absurd rfl (hmap entries)
  | noKind hnone =>
    rw [h] at hnone
    cases hnone
  | unknownKind => exact Nat.le_refl 1
  | unknownKeys hkind =>
    rw [h] at hkind
    exact absurd (Option.some.inj hkind) (hv _)
  | field hkind =>
    rw [h] at hkind
    exact absurd (Option.some.inj hkind) (hv _)

/-- Without unknown fields, the faults of a node are those of fields from the first bad one on. -/
theorem precedence_fieldType {front back : List Field} {g : Field} (hkind : kindOf entries = .ok k)
    (hkeys : unknownKeys k entries = []) (htyped : typedFields = front ++ g :: back)
    (hfront : ∀ h ∈ front, ¬BadField entries h) :
    ∀ f, Offends (.map entries) f → precedence (.fieldType k g.name g.wanted) ≤ precedence f := by
  have hlookup := kindOf_eq_ok_iff.mp hkind
  intro f hf
  cases hf with
  | notMapping hmap => exact absurd rfl (hmap entries)
  | noKind hnone =>
    rw [hlookup] at hnone
    cases hnone
  | unknownKind hv hunknown =>
    rw [hlookup] at hv
    exact absurd (Option.some.inj hv).symm (hunknown k)
  | unknownKeys hk hunknown =>
    obtain rfl := kind_unique hlookup hk
    obtain ⟨e, he, hnot⟩ := hunknown
    obtain ⟨name, hname, hkey⟩ := isKnown_iff.mp (unknownKeys_eq_nil_iff.mp hkeys e he)
    exact absurd hkey (hnot name hname)
  | field hk hh hv hwrong =>
    obtain rfl := kind_unique hlookup hk
    have hbad := (badField_iff hh).mpr ⟨_, hv, hwrong⟩
    have hsorted := typedFields_precedence k
    rw [htyped, List.pairwise_append] at hsorted
    rw [htyped, List.mem_append, List.mem_cons] at hh
    rcases hh with hh | rfl | hh
    · exact absurd hbad (hfront _ hh)
    · exact Nat.le_refl _
    · exact List.rel_of_pairwise_cons hsorted.2.1 hh

/-- The fault that is told of a node is one of its faults, and none takes precedence over it. -/
theorem offends_of_fault (h : wellFormedKind entries = .error f) :
    Offends (.map entries) f ∧ ∀ g, Offends (.map entries) g → precedence f ≤ precedence g := by
  rcases wellFormedKind_eq_error_iff.mp h with hkind | ⟨k, hkind, hfield⟩
  · rcases kindOf_eq_error_iff.mp hkind with ⟨hnone, rfl⟩ | ⟨v, hv, hunknown, rfl⟩
    · exact ⟨.noKind hnone, fun _ _ => Nat.zero_le _⟩
    · have hname (k : RuleKind) : v ≠ .str k.name := by
        intro hk
        rw [bind_ofName?_eq_some_iff.mpr hk] at hunknown
        cases hunknown
      exact ⟨.unknownKind hv hname, precedence_unexpected hv hname⟩
  · have hlookup := kindOf_eq_ok_iff.mp hkind
    rcases fieldFault?_eq_some_iff.mp hfield with ⟨hkeys, rfl⟩ | ⟨hkeys, front, g, back, htyped, hfront, hbad, rfl⟩
    · refine ⟨.unknownKeys hlookup ?_, fun _ _ => Nat.zero_le _⟩
      by_contra hnone
      refine hkeys (unknownKeys_eq_nil_iff.mpr fun e he => isKnown_iff.mpr ?_)
      by_contra hnot
      exact hnone ⟨e, he, fun name hname hkey => hnot ⟨name, hname, hkey⟩⟩
    · have hg : g ∈ typedFields := by rw [htyped]; simp
      obtain ⟨v, hv, hwrong⟩ := (badField_iff hg).mp hbad
      exact ⟨.field hlookup hg hv hwrong, precedence_fieldType hkind hkeys htyped hfront⟩

end Faults

/-! ### The walk of documents that are read -/

section Walk

variable {v : Value} {entries : List (Value × Value)}

theorem walk_of_not_map (h : ∀ entries, v ≠ .map entries) : walk v = [([], v)] := by
  cases v with
  | map entries => exact absurd rfl (h entries)
  | _ => rw [walk]; simp

theorem walkRow_append {kind : String} {i : Nat} {vs ws : List Value} :
    walkRow kind i (vs ++ ws) = walkRow kind i vs ++ walkRow kind (i + vs.length) ws := by
  induction vs generalizing i with
  | nil => simp [walkRow]
  | cons v vs ih =>
    rw [List.cons_append, walkRow, walkRow, ih, List.append_assoc, List.length_cons, Nat.add_assoc i 1, Nat.add_comm 1]

theorem mem_walkRow {kind : String} {i : Nat} {vs : List Value} {x : List Step × Value} (h : x ∈ walkRow kind i vs) :
    ∃ v ∈ vs, ∃ y ∈ walk v, x.2 = y.2 := by
  induction vs generalizing i with
  | nil =>
    rw [walkRow] at h
    exact absurd h List.not_mem_nil
  | cons v vs ih =>
    rw [walkRow, List.mem_append] at h
    rcases h with h | h
    · obtain ⟨y, hy, rfl⟩ := List.mem_map.mp h
      exact ⟨v, List.mem_cons_self, y, hy, rfl⟩
    · obtain ⟨u, hu, y, hy, hxy⟩ := ih h
      exact ⟨u, List.mem_cons_of_mem _ hu, y, hy, hxy⟩

/-- In a document that is read no node is bad. -/
theorem not_locallyBad_of_read (v : Value) : ∀ t, read v = .ok t → ∀ x ∈ walk v, ¬LocallyBad x.2 := by
  induction v using node_induct with
  | other v hv =>
    intro t ht
    rw [read_of_not_map hv] at ht
    cases ht
  | map entries ih =>
    intro t ht x hx
    cases hwell : wellFormedKind entries with
    | error f =>
      rw [read_of_fault hwell] at ht
      cases ht
    | ok k =>
      rw [read_of_wellFormed hwell] at ht
      obtain ⟨ts, hts, -⟩ := map_eq_ok_iff.mp ht
      rw [walk] at hx
      rcases List.mem_cons.mp hx with rfl | hx
      · exact not_locallyBad_of_wellFormed hwell
      · obtain ⟨u, hu, y, hy, hxy⟩ := mem_walkRow hx
        obtain ⟨s, -, hs⟩ := exists_right_of_forall₂ (readItems_eq_ok_iff.mp hts) hu
        rw [hxy]
        exact ih u hu s hs y hy

/-- The error of a document is about the first bad node of the walk. -/
theorem first_bad_of_read_error (v : Value) : ∀ e, read v = .error e →
    ∃ front n back, walk v = front ++ (e.path, n) :: back ∧ (∀ x ∈ front, ¬LocallyBad x.2) ∧
      Offends n e.fault ∧ ∀ f, Offends n f → precedence e.fault ≤ precedence f := by
  induction v using node_induct with
  | other v hv =>
    intro e he
    rw [read_of_not_map hv] at he
    cases he
    exact ⟨[], v, [], walk_of_not_map hv, by simp, .notMapping hv, fun f _ => Nat.zero_le _⟩
  | map entries ih =>
    intro e he
    cases hwell : wellFormedKind entries with
    | error f =>
      rw [read_of_fault hwell] at he
      cases he
      obtain ⟨hoffends, hfirst⟩ := offends_of_fault hwell
      exact ⟨[], .map entries, _, by rw [walk]; rfl, by simp, hoffends, hfirst⟩
    | ok k =>
      rw [read_of_wellFormed hwell] at he
      obtain ⟨front, u, back, d, hrules, hfront, hu, rfl⟩ := readItems_eq_error_iff.mp (map_eq_error_iff.mp he)
      obtain ⟨inner, n, outer, hwalk, hinner, hoffends, hfirst⟩ := ih u (by rw [hrules]; simp) d hu
      obtain ⟨hkind, -⟩ := wellFormedKind_eq_ok_iff.mp hwell
      have hname : (kindValue (.map entries)).display = k.name := by rw [kindValue_of_kind hkind, Value.display_str]
      refine ⟨([], .map entries) :: (walkRow k.name 1 front ++ inner.map (inside k.name (1 + front.length))), n,
        outer.map (inside k.name (1 + front.length)) ++ walkRow k.name (1 + front.length + 1) back, ?_, ?_, hoffends,
        hfirst⟩
      · rw [walk, hname, hrules, walkRow_append, walkRow, hwalk, List.map_append, List.map_cons]
        simp only [List.cons_append, List.append_assoc]
        rfl
      · intro x hx
        -- before the bad node come this node, the whole of the rules in front, and the front of the walk of its own rule
        rcases List.mem_cons.mp hx with rfl | hx
        · exact not_locallyBad_of_wellFormed hwell
        rcases List.mem_append.mp hx with hx | hx
        · obtain ⟨w, hw, y, hy, hxy⟩ := mem_walkRow hx
          obtain ⟨t, ht⟩ := hfront w hw
          rw [hxy]
          exact not_locallyBad_of_read w t ht y hy
        · obtain ⟨y, hy, rfl⟩ := List.mem_map.mp hx
          exact hinner y hy

end Walk

/-- A document that is not parsed has a bad node. The path of its error is the way to the first one of the walk, and the
fault is the one of this node that takes precedence. -/
theorem error_leads_to_first_bad_node {v : Value} {e : SchemaError} (h : parse v = .error (.schema e)) :
    ∃ front n back, walk v = front ++ (e.path, n) :: back ∧ (∀ x ∈ front, ¬LocallyBad x.2) ∧
      Offends n e.fault ∧ ∀ f, Offends n f → precedence e.fault ≤ precedence f := by
  exact first_bad_of_read_error v e (parse_eq_schema_iff.mp h).2

/-- A message of a wrong form deep inside the first rule, and unknown fields of the second. -/
theorem error_leads_to_first_bad_node_age :
    ∃ (v : Value) (e : SchemaError),
      v = .ofFields [("kind", .str "object"), ("rules", .list [
        .ofFields [("kind", .str "prop"), ("name", .str "age"), ("rules", .list [
          .ofFields [("kind", .str "number"), ("rules", .list [
            .ofFields [("kind", .str "min"), ("value", .number (.int 0))],
            .ofFields [("message", .number (.int 5)), ("kind", .str "max")]])]])],
        .ofFields [("kind", .str "prop"), ("nam", .str "size")]])] ∧
      e.path = [{ kind := "object", index := some 1 }, { kind := "prop", index := some 1 },
        { kind := "number", index := some 2 }] ∧
      e.fault = .fieldType (.bound .max) "message" "a string" ∧ parse v = .error (.schema e) ∧
      ∃ front n back, walk v = front ++ (e.path, n) :: back ∧ (∀ x ∈ front, ¬LocallyBad x.2) ∧
        Offends n e.fault ∧ ∀ f, Offends n f → precedence e.fault ≤ precedence f := by
  have h : parse (.ofFields [("kind", .str "object"), ("rules", .list [
        .ofFields [("kind", .str "prop"), ("name", .str "age"), ("rules", .list [
          .ofFields [("kind", .str "number"), ("rules", .list [
            .ofFields [("kind", .str "min"), ("value", .number (.int 0))],
            .ofFields [("message", .number (.int 5)), ("kind", .str "max")]])]])],
        .ofFields [("kind", .str "prop"), ("nam", .str "size")]])]) =
      .error (.schema ⟨.fieldType (.bound .max) "message" "a string", [{ kind := "object", index := some 1 },
        { kind := "prop", index := some 1 }, { kind := "number", index := some 2 }]⟩) := by
    rw [parse_of_isWritable (by decide)]
    with_unfolding_all rfl
  exact ⟨_, _, rfl, rfl, rfl, h, error_leads_to_first_bad_node h⟩

end RuleTree.Document
