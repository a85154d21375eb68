import RuleTree.Proofs.Document.Parsing
import RuleTree.Proofs.Number.Decimal

/-!
# The language of rule documents

Which documents write which rule trees, said field by field: the kind, the fields that the kind has, what they may hold, and
the tree that has them all. Main result: parsing gives the tree that a document writes, and an error of the document if it
writes none and its errors can be told.
-/

namespace RuleTree

/-! ### Fields of trees -/

def Check.field? : Check → String → Option Value
  | .equal v, "value" => some v
  | .bound _ v, "value" => some v
  | .range min _, "min" => some min
  | .range _ max, "max" => some max
  | .pattern regex, "regex" => some regex
  | .dateBound _ v, "value" => some v
  | .between first _, "begin" => some first
  | .between _ last, "end" => some last
  | _, _ => none

def Group.field? : Group → String → Option Value
  | .prop name, "name" => some name
  | .required message, "message" => some message
  | _, _ => none

namespace Tree

/-- The value of a field of a rule, other than its row of children. -/
def field? : Tree → String → Option Value
  | .check _ message, "message" => some message
  | .check c _, name => c.field? name
  | .group g _ _, name => g.field? name
  | _, _ => none

/-- The row of children of a rule that has one. -/
def row? : Tree → Option (Row × List Tree)
  | .group _ row ts => some (row, ts)
  | _ => none

end Tree

namespace Document

section Trees

variable {k : RuleKind} {field : String → Value} {ts : List Tree} {t : Tree}

theorem field?_treeOf : ∀ name ∈ fieldsOf k, name ≠ "rules" → (treeOf k field ts).field? name = some (field name) := by
  cases k <;> simp [fieldsOf, treeOf, Tree.field?, Check.field?, Group.field?]

theorem row?_treeOf (h : "rules" ∈ fieldsOf k) : (treeOf k field ts).row? = some (.fixed, ts) := by
  cases k <;> first | rfl | simp [fieldsOf] at h

/-- A rule is known by its kind, its fields and its row. -/
theorem eq_treeOf (hk : t.kind? = some k)
    (hfields : ∀ name ∈ fieldsOf k, name ≠ "rules" → t.field? name = some (field name))
    (hrow : "rules" ∈ fieldsOf k → t.row? = some (.fixed, ts)) : t = treeOf k field ts := by
  cases t with
  | stray v => cases hk
  | unlisted g v =>
    have hrules : "rules" ∈ fieldsOf k := by
      cases g <;> cases hk <;> simp [fieldsOf]
    cases hrow hrules
  | check c m =>
    cases c <;> cases hk <;> simp [fieldsOf, Tree.field?, Check.field?] at hfields <;> simp [treeOf, hfields]
  | group g row us =>
    have hrules : "rules" ∈ fieldsOf k := by
      cases g <;> cases hk <;> simp [fieldsOf]
    cases hrow hrules
    cases g <;> cases hk <;> simp [fieldsOf, Tree.field?, Group.field?] at hfields <;> simp [treeOf, hfields]

end Trees

/-! ### Documents and what they write -/

/-- What a field may hold, by its name. Whole numbers are names in whatever form they are written. -/
def Allows : String → Value → Prop
  | "message", v => v = .null ∨ ∃ s, v = .str s
  | "name", v =>
    (∃ s, v = .str s) ∨ (∃ i, v = .number (.int i)) ∨ ∃ x : Binary64, v = .number (.float x) ∧ x.isInteger = true
  | "regex", v => ∃ s, v = .str s
  | "rules", v => ∃ items, v = .list items
  | _, _ => True

/-- A document that writes a tree: a mapping with a known kind, with fields that the kind has and that hold what they may,
and with documents as its rules. The tree has the same kind and fields, an absent field being null, and the trees of the
rules in a row. -/
inductive Writes : Value → Tree → Prop
  | node {entries : List (Value × Value)} {k : RuleKind} {items : List Value} {t : Tree} {ts : List Tree}
      (kind : Value.lookup (.str "kind") entries = some (.str k.name))
      (known : ∀ e ∈ entries, ∃ name ∈ "kind" :: fieldsOf k, e.1 = .str name)
      (allowed : ∀ name v, Value.lookup (.str name) entries = some v → Allows name v)
      (rules : Value.lookup (.str "rules") entries = some (.list items) ∨
        Value.lookup (.str "rules") entries = none ∧ items = [])
      (children : List.Forall₂ Writes items ts)
      (same : t.kind? = some k)
      (fields : ∀ name ∈ fieldsOf k, name ≠ "rules" →
        t.field? name = some ((Value.lookup (.str name) entries).getD .null))
      (row : "rules" ∈ fieldsOf k → t.row? = some (.fixed, ts)) : Writes (.map entries) t

section Language

variable {k : RuleKind} {v : Value} {entries : List (Value × Value)} {t : Tree}

theorem isKnown_iff {key : Value} : isKnown k key = true ↔ ∃ name ∈ "kind" :: fieldsOf k, key = .str name := by
  cases key with
  | str s => simp [isKnown]
  | _ => simp [isKnown]

theorem holds_iff_allows {g : Field} (hg : g ∈ typedFields) : g.holds v = true ↔ Allows g.name v := by
  simp only [typedFields, List.mem_cons, List.not_mem_nil, or_false] at hg
  rcases hg with rfl | rfl | rfl | rfl
  · cases v <;> simp [isTextOrNull, Allows]
  · cases v with
    | number n => cases n <;> simp [isName, Allows]
    | _ => simp [isName, Allows]
  · cases v <;> simp [isText, Allows]
  · cases v <;> simp [isList, Allows]

theorem allows_of_untyped {name : String} (h : ∀ g ∈ typedFields, g.name ≠ name) : Allows name v := by
  unfold Allows
  split
  · exact absurd rfl (h ⟨"message", isTextOrNull, "a string"⟩ (by simp [typedFields]))
  · exact absurd rfl (h ⟨"name", isName, "a string or an integer"⟩ (by simp [typedFields]))
  · exact absurd rfl (h ⟨"regex", isText, "a string"⟩ (by simp [typedFields]))
  · exact absurd rfl (h ⟨"rules", isList, "a list"⟩ (by simp [typedFields]))
  · trivial

theorem badField_iff {g : Field} (hg : g ∈ typedFields) :
    BadField entries g ↔ ∃ v, Value.lookup (.str g.name) entries = some v ∧ ¬Allows g.name v := by
  unfold BadField
  refine exists_congr fun v => and_congr_right fun _ => ?_
  rw [← holds_iff_allows hg, Bool.not_eq_true]

theorem no_badField_iff : (∀ g ∈ typedFields, ¬BadField entries g) ↔
    ∀ name v, Value.lookup (.str name) entries = some v → Allows name v := by
  constructor
  · intro h name v hv
    by_cases hname : ∃ g ∈ typedFields, g.name = name
    · obtain ⟨g, hg, rfl⟩ := hname
      by_contra hnot
      exact h g hg ((badField_iff hg).mpr ⟨v, hv, hnot⟩)
    · exact allows_of_untyped fun g hg heq => hname ⟨g, hg, heq⟩
  · intro h g hg hbad
    obtain ⟨v, hv, hnot⟩ := (badField_iff hg).mp hbad
    exact hnot (h g.name v hv)

theorem wellFormedKind_eq_ok_iff_allows : wellFormedKind entries = .ok k ↔
    Value.lookup (.str "kind") entries = some (.str k.name) ∧
    (∀ e ∈ entries, ∃ name ∈ "kind" :: fieldsOf k, e.1 = .str name) ∧
    ∀ name v, Value.lookup (.str name) entries = some v → Allows name v := by
  rw [wellFormedKind_eq_ok_iff, kindOf_eq_ok_iff, fieldFault?_eq_none_iff, no_badField_iff]
  simp only [isKnown_iff]

theorem lookup_rules (h : ∀ v, Value.lookup (.str "rules") entries = some v → Allows "rules" v) :
    Value.lookup (.str "rules") entries = some (.list (rulesOf entries)) ∨
      Value.lookup (.str "rules") entries = none ∧ rulesOf entries = [] := by
  cases hv : Value.lookup (.str "rules") entries with
  | none => exact .inr ⟨rfl, rulesOf_of_none hv⟩
  | some v =>
    obtain ⟨items, rfl⟩ := h v hv
    exact .inl (by rw [rulesOf_of_lookup hv])

theorem rulesOf_eq {items : List Value} (h : Value.lookup (.str "rules") entries = some (.list items) ∨
    Value.lookup (.str "rules") entries = none ∧ items = []) : rulesOf entries = items := by
  rcases h with hlist | ⟨hnone, rfl⟩
  · exact rulesOf_of_lookup hlist
  · exact rulesOf_of_none hnone

/-- Reading gives the trees that documents write. -/
theorem read_eq_ok_iff (v : Value) : ∀ t, read v = .ok t ↔ Writes v t := by
  induction v using node_induct with
  | other v hv =>
    intro t
    constructor
    · intro ht
      rw [read_of_not_map hv] at ht
      cases ht
    · intro ht
      cases ht with
      | node => exact absurd rfl (hv _)
  | map entries ih =>
    intro t
    constructor
    · intro ht
      cases hwell : wellFormedKind entries with
      | error f =>
        rw [read_of_fault hwell] at ht
        cases ht
      | ok k =>
        rw [read_of_wellFormed hwell] at ht
        obtain ⟨ts, hts, rfl⟩ := map_eq_ok_iff.mp ht
        obtain ⟨hkind, hknown, hallowed⟩ := wellFormedKind_eq_ok_iff_allows.mp hwell
        have hchildren : List.Forall₂ Writes (rulesOf entries) ts :=
          forall₂_imp_of_mem (readItems_eq_ok_iff.mp hts) fun u hu s hs => (ih u hu s).mp hs
        have hrules := lookup_rules fun u hu => hallowed "rules" u hu
        exact .node hkind hknown hallowed hrules hchildren (kind?_treeOf _ _ _) field?_treeOf row?_treeOf
    · intro ht
      cases ht with
      | node hkind hknown hallowed hrules hchildren hk hfields hrow =>
        have hwell := wellFormedKind_eq_ok_iff_allows.mpr ⟨hkind, hknown, hallowed⟩
        obtain rfl := rulesOf_eq hrules
        have hread : List.Forall₂ (fun v t => read v = .ok t) (rulesOf entries) _ :=
          forall₂_imp_of_mem hchildren fun u hu s hs => (ih u hu s).mpr hs
        rw [read_of_wellFormed hwell, readItems_eq_ok_iff.mpr hread, eq_treeOf hk hfields hrow]
        rfl

theorem parse_eq_ok_iff_writes : parse v = .ok t ↔ Writes v t := parse_eq_ok_iff.trans (read_eq_ok_iff v t)

theorem parse_ne_stuck {cause : Stuck} : parse v ≠ .error (.stuck cause) := by
  intro h
  rcases parse_eq_error_iff.mp h with ⟨-, hfault⟩ | ⟨-, e, -, hfault⟩
  · cases hfault
  · cases hfault

end Language

/-! ### Documents whose errors cannot be told -/

/-- A document with an error that shows an integer of too many digits: at a node that is no mapping, in an unknown kind, in an
unknown key or in a field of another form, at the node itself or inside its rules. -/
inductive Untellable : Value → Prop
  | node {v : Value} (other : ∀ entries, v ≠ .map entries) (hidden : v.isWritable = false) : Untellable v
  | kind {entries : List (Value × Value)} {v : Value} (kind : Value.lookup (.str "kind") entries = some v)
      (unknown : ∀ k : RuleKind, v ≠ .str k.name) (hidden : v.isWritable = false) : Untellable (.map entries)
  | key {entries : List (Value × Value)} {k : RuleKind} {e : Value × Value}
      (kind : Value.lookup (.str "kind") entries = some (.str k.name)) (mem : e ∈ entries)
      (unknown : ∀ name ∈ "kind" :: fieldsOf k, e.1 ≠ .str name) (hidden : e.1.isWritable = false) : Untellable (.map entries)
  | field {entries : List (Value × Value)} {k : RuleKind} {name : String} {v : Value}
      (kind : Value.lookup (.str "kind") entries = some (.str k.name)) (known : name ∈ fieldsOf k)
      (field : Value.lookup (.str name) entries = some v) (wrong : ¬Allows name v) (hidden : v.isWritable = false) :
      Untellable (.map entries)
  | rule {entries : List (Value × Value)} {k : RuleKind} {items : List Value} {v : Value}
      (kind : Value.lookup (.str "kind") entries = some (.str k.name)) (known : "rules" ∈ fieldsOf k)
      (rules : Value.lookup (.str "rules") entries = some (.list items)) (mem : v ∈ items) (inside : Untellable v) :
      Untellable (.map entries)

section Untellable

variable {k : RuleKind} {v : Value} {entries : List (Value × Value)} {name : String}

@[simp] theorem isWritable_under (e : FormError) (s : Segment) : (e.under s).isWritable = e.isWritable := rfl

theorem isWritable_unknown_iff : FormError.isWritable ⟨[], .unknown ("kind" :: fieldsOf k), .map entries⟩ = false ↔
    ∃ e ∈ entries, isKnown k e.1 = false ∧ e.1.isWritable = false := by
  simp only [FormError.isWritable, List.all_eq_false, Form.isNamed_eq_isKnown, Bool.not_eq_true, Bool.or_eq_false_iff]

theorem exists_unwritable_of_kind (h : kindOf entries = .ok k) :
    (∃ e ∈ Form.ruleErrors (.map entries), e.isWritable = false) ↔
      (∃ e ∈ entries, isKnown k e.1 = false ∧ e.1.isWritable = false) ∨
        ∃ name ∈ fieldsOf k, ∃ v, Value.lookup (.str name) entries = some v ∧
          ∃ d ∈ Form.errors Form.rule (Form.ofField name) v, d.isWritable = false := by
  simp only [Form.mem_ruleErrors_of_kind h, Form.mem_errors_ofKind]
  constructor
  · rintro ⟨e, ⟨-, rfl⟩ | ⟨name, hname, v, hv, d, hd, rfl⟩, hw⟩
    · exact .inl (isWritable_unknown_iff.mp hw)
    · exact .inr ⟨name, hname, v, hv, d, hd, hw⟩
  · rintro (⟨e, he, hunknown, hw⟩ | ⟨name, hname, v, hv, d, hd, hw⟩)
    · have hkeys : unknownKeys k entries ≠ [] := by
        rw [Ne, unknownKeys_eq_nil_iff]
        intro hall
        cases hunknown.symm.trans (hall e he)
      exact ⟨_, .inl ⟨hkeys, rfl⟩, isWritable_unknown_iff.mpr ⟨e, he, hunknown, hw⟩⟩
    · exact ⟨_, .inr ⟨name, hname, v, hv, d, hd, rfl⟩, hw⟩

/-- A field whose form is laid down has an error if it holds something else, and the rules have the errors inside them. -/
theorem untellable_field_iff : (∃ e ∈ Form.errors Form.rule (Form.ofField name) v, e.isWritable = false) ↔
    ¬Allows name v ∧ v.isWritable = false ∨
      name = "rules" ∧ ∃ items, v = .list items ∧ ∃ u ∈ items, ∃ d ∈ Form.ruleErrors u, d.isWritable = false := by
  constructor
  · rintro ⟨e, he, hw⟩
    rcases Form.mem_errors_ofField.mp he with ⟨g, hg, rfl, hbad, rfl⟩ | ⟨hrules, items, hitems, j, u, hu, d, hd, rfl⟩
    · exact .inl ⟨fun hallows => Bool.eq_false_iff.mp hbad ((holds_iff_allows hg).mpr hallows), hw⟩
    · exact .inr ⟨hrules, items, hitems, u, List.mem_of_getElem? hu, d, hd, hw⟩
  · rintro (⟨hnot, hw⟩ | ⟨hrules, items, hitems, u, hu, d, hd, hw⟩)
    · by_cases hname : ∃ g ∈ typedFields, g.name = name
      · obtain ⟨g, hg, rfl⟩ := hname
        have hbad : g.holds v = false := Bool.eq_false_iff.mpr fun hholds => hnot ((holds_iff_allows hg).mp hholds)
        exact ⟨⟨[], .type (Form.typesOf g.name), v⟩, Form.mem_errors_ofField.mpr (.inl ⟨g, hg, rfl, hbad, rfl⟩), hw⟩
      · exact absurd (allows_of_untyped fun g hg heq => hname ⟨g, hg, heq⟩) hnot
    · obtain ⟨j, hj⟩ := List.mem_iff_getElem?.mp hu
      exact ⟨d.under (.element j), Form.mem_errors_ofField.mpr (.inr ⟨hrules, items, hitems, j, u, hj, d, hd, rfl⟩), hw⟩

/-- The errors of a document that cannot be told are at its nodes. -/
theorem exists_unwritable_iff (v : Value) : (∃ e ∈ Form.ruleErrors v, e.isWritable = false) ↔ Untellable v := by
  induction v using node_induct with
  | other v hv =>
    simp only [Form.mem_ruleErrors_of_not_map hv, exists_eq_left]
    constructor
    · exact fun hw => .node hv hw
    · intro h
      cases h with
      | node _ hw => exact hw
      | _ => exact absurd rfl (hv _)
  | map entries ih =>
    cases hkind : kindOf entries with
    | error f =>
      rcases kindOf_eq_error_iff.mp hkind with ⟨hnone, -⟩ | ⟨v, hv, hunknown, -⟩
      · simp only [Form.mem_ruleErrors_of_no_kind hnone, exists_eq_left]
        constructor
        · intro hw
          cases hw
        · intro h
          cases h with
          | node other => exact absurd rfl (other _)
          | kind hk => cases hnone.symm.trans hk
          | key hk => cases hnone.symm.trans hk
          | field hk => cases hnone.symm.trans hk
          | rule hk => cases hnone.symm.trans hk
      · have hnot (k : RuleKind) : v ≠ .str k.name := by
          rintro rfl
          rw [bind_ofName?_eq_some_iff.mpr rfl] at hunknown
          cases hunknown
        simp only [Form.mem_ruleErrors_of_unknown_kind hv hunknown, exists_eq_left]
        constructor
        · exact fun hw => .kind hv hnot hw
        · intro h
          have hsame {u : Value} (hu : Value.lookup (.str "kind") entries = some u) : v = u := Option.some.inj (hv.symm.trans hu)
          cases h with
          | node other => exact absurd rfl (other _)
          | kind hk _ hw => exact (hsame hk) ▸ hw
          | key hk => exact absurd (hsame hk) (hnot _)
          | field hk => exact absurd (hsame hk) (hnot _)
          | rule hk => exact absurd (hsame hk) (hnot _)
    | ok k =>
      have hv := kindOf_eq_ok_iff.mp hkind
      have hkey (key : Value) : isKnown k key = false ↔ ∀ name ∈ "kind" :: fieldsOf k, key ≠ .str name := by
        rw [← Bool.not_eq_true, isKnown_iff]
        push Not
        rfl
      rw [exists_unwritable_of_kind hkind]
      simp only [hkey, untellable_field_iff]
      constructor
      · rintro (⟨e, he, hunknown, hw⟩ | ⟨name, hname, v, hfield, ⟨hnot, hw⟩ | ⟨rfl, items, rfl, u, hu, hd⟩⟩)
        · exact .key hv he hunknown hw
        · exact .field hv hname hfield hnot hw
        · exact .rule hv hname hfield hu ((ih u (rulesOf_of_lookup hfield ▸ hu)).mp hd)
      · intro h
        have hsame {j : RuleKind} (hj : Value.lookup (.str "kind") entries = some (.str j.name)) : j = k := kind_unique hj hv
        cases h with
        | node other => exact absurd rfl (other _)
        | kind hk hnot => exact absurd (Option.some.inj (hk.symm.trans hv)) (hnot k)
        | key hk he hunknown hw =>
          obtain rfl := hsame hk
          exact .inl ⟨_, he, hunknown, hw⟩
        | field hk hname hfield hnot hw =>
          obtain rfl := hsame hk
          exact .inr ⟨_, hname, _, hfield, .inl ⟨hnot, hw⟩⟩
        | rule hk hname hfield hu hinside =>
          obtain rfl := hsame hk
          exact .inr ⟨_, hname, _, hfield, .inr ⟨rfl, _, rfl, _, hu, (ih _ (rulesOf_of_lookup hfield ▸ hu)).mpr hinside⟩⟩

theorem isWritable_of_mem {items : List Value} (h : Value.areWritable items = true) (hv : v ∈ items) : v.isWritable = true := by
  induction items with
  | nil => cases hv
  | cons u items ih =>
    obtain ⟨hu, hitems⟩ := Bool.and_eq_true_iff.mp h
    rcases List.mem_cons.mp hv with rfl | hv
    · exact hu
    · exact ih hitems hv

theorem isWritable_of_mem_entries {e : Value × Value} (h : Value.entriesAreWritable entries = true) (he : e ∈ entries) :
    e.1.isWritable = true ∧ e.2.isWritable = true := by
  induction entries with
  | nil => cases he
  | cons d entries ih =>
    obtain ⟨hd, hentries⟩ := Bool.and_eq_true_iff.mp h
    rcases List.mem_cons.mp he with rfl | he
    · exact Bool.and_eq_true_iff.mp hd
    · exact ih hentries he

/-- The errors of a document that can be written can be told. -/
theorem not_untellable_of_isWritable (h : v.isWritable = true) : ¬Untellable v := by
  intro huntellable
  induction huntellable with
  | node _ hw => cases hw.symm.trans h
  | kind hk _ hw => cases hw.symm.trans (isWritable_of_mem_entries h (mem_of_lookup_str hk)).2
  | key _ he _ hw => cases hw.symm.trans (isWritable_of_mem_entries h he).1
  | field _ _ hfield _ hw => cases hw.symm.trans (isWritable_of_mem_entries h (mem_of_lookup_str hfield)).2
  | rule _ _ hrules hu _ ih => exact ih (isWritable_of_mem (isWritable_of_mem_entries h (mem_of_lookup_str hrules)).2 hu)

theorem parse_of_isWritable (h : v.isWritable = true) : parse v = (read v).mapError .schema := by
  have hall : (Form.ruleErrors v).all FormError.isWritable = true := by
    rw [List.all_eq_true]
    intro e he
    by_contra hne
    exact not_untellable_of_isWritable h ((exists_unwritable_iff v).mp ⟨e, he, Bool.eq_false_iff.mpr hne⟩)
  rw [parse_eq_read, if_pos hall]

theorem parse_eq_unwritable_iff : parse v = .error .unwritable ↔ Untellable v := by
  rw [parse_eq_error_iff, exists_unwritable_iff]
  simp

end Untellable

/-- Parsing accepts the documents that write a tree, and gives this tree. Any other document has an error that is told, unless
an error of it cannot be told, and nothing else can happen. -/
theorem parse_language (v : Value) : (∀ t, parse v = .ok t ↔ Writes v t) ∧
    ((∃ e, parse v = .error (.schema e)) ↔ (¬∃ t, Writes v t) ∧ ¬Untellable v) ∧
    (parse v = .error .unwritable ↔ Untellable v) ∧ ∀ cause, parse v ≠ .error (.stuck cause) := by
  have htold : (∀ e ∈ Form.ruleErrors v, e.isWritable = true) ↔ ¬Untellable v := by
    rw [← exists_unwritable_iff]
    push Not
    simp only [Bool.not_eq_false]
  refine ⟨fun t => parse_eq_ok_iff_writes, ?_, parse_eq_unwritable_iff, fun _ => parse_ne_stuck⟩
  simp only [parse_eq_schema_iff, htold, ← read_eq_ok_iff]
  cases read v with
  | ok t => simp
  | error e => simp

/-- A message that is a number of too many digits: the error of the document is not told. -/
theorem untellable_not_refused :
    ∃ v : Value, v = .map [(.str "kind", .str "equal"), (.str "message", .number (.int Decimal.leastUnwritable))] ∧
      (¬∃ t, Writes v t) ∧ parse v = .error .unwritable := by
  let message : Value := .number (.int Decimal.leastUnwritable)
  let v : Value := .map [(.str "kind", .str "equal"), (.str "message", message)]
  have hmessage : ¬Allows "message" message := by
    simp [Allows, message]
  have hhidden : message.isWritable = false := Decimal.isWritable_leastUnwritable
  have huntellable : Untellable v := .field (k := .equal) rfl (by decide) rfl hmessage hhidden
  have hparse : parse v = .error .unwritable := parse_eq_unwritable_iff.mpr huntellable
  refine ⟨v, rfl, ?_, hparse⟩
  rintro ⟨t, ht⟩
  cases (parse_eq_ok_iff_writes.mpr ht).symm.trans hparse

end Document

end RuleTree
