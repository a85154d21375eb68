import Mathlib.Data.List.Forall2
import RuleTree.Document.Form
import RuleTree.Document.Reader
import RuleTree.Proofs.Build.Faults

/-!
# Nodes of rule documents

A node is a mapping with the nodes of its list of rules inside it. What it says about a node by itself that it is well
formed, and what it says about a row of nodes that it is read: each of them is, or the first that is not is where reading
ends.
-/

namespace RuleTree.Document

/-! ### Inside a node -/

/-- The nodes inside a mapping. -/
def rulesOf (entries : List (Value × Value)) : List Value :=
  match Value.lookup (.str "rules") entries with
  | some (.list items) => items
  | _ => []

section Inside

variable {entries : List (Value × Value)} {items : List Value}

/-- A text is a key only to itself. -/
theorem mem_of_lookup_str {name : String} {v : Value} (h : Value.lookup (.str name) entries = some v) :
    (.str name, v) ∈ entries := by
  obtain ⟨entry, hfind, rfl⟩ := Option.map_eq_some_iff.mp h
  have hmem := List.mem_of_find?_eq_some hfind
  have hkey := List.find?_some hfind
  obtain ⟨key, v⟩ := entry
  cases key with
  | str s =>
    have hs : (name == s) = true := hkey
    rw [beq_iff_eq.mp hs]
    exact hmem
  | _ => cases hkey

theorem rulesOf_of_lookup (h : Value.lookup (.str "rules") entries = some (.list items)) : rulesOf entries = items := by
  rw [rulesOf, h]

theorem lookup_of_mem_rulesOf {v : Value} (h : v ∈ rulesOf entries) :
    ∃ items, Value.lookup (.str "rules") entries = some (.list items) ∧ rulesOf entries = items := by
  unfold rulesOf at h ⊢
  split at h
  · next items hitems => exact ⟨items, hitems, rfl⟩
  · exact absurd h List.not_mem_nil

theorem rulesOf_of_none (h : Value.lookup (.str "rules") entries = none) : rulesOf entries = [] := by
  rw [rulesOf, h]

theorem sizeOf_rulesOf_lt (entries : List (Value × Value)) : sizeOf (rulesOf entries) < sizeOf (Value.map entries) := by
  have hmap : sizeOf (Value.map entries) = 1 + sizeOf entries := Value.map.sizeOf_spec entries
  unfold rulesOf
  split
  · next items h =>
    have hlist : sizeOf (Value.list items) = 1 + sizeOf items := Value.list.sizeOf_spec items
    have hlt := sizeOf_lookup_lt h
    omega
  · have hnil : sizeOf ([] : List Value) = 1 := rfl
    have hpos : 1 ≤ sizeOf entries := by
      cases entries with
      | nil => exact Nat.le_refl 1
      | cons entry rest =>
        rw [List.cons.sizeOf_spec]
        omega
    omega

/-- Induction over documents: what holds of the nodes inside a mapping holds of the mapping. -/
theorem node_induct {P : Value → Prop} (other : ∀ v, (∀ entries, v ≠ .map entries) → P v)
    (map : ∀ entries, (∀ v ∈ rulesOf entries, P v) → P (.map entries)) (v : Value) : P v := by
  induction hn : sizeOf v using Nat.strongRecOn generalizing v with
  | ind n ih =>
    by_cases hmap : ∃ entries, v = .map entries
    · obtain ⟨entries, rfl⟩ := hmap
      refine map entries fun u hu => ih (sizeOf u) ?_ u rfl
      have hmem : sizeOf u < sizeOf (rulesOf entries) := List.sizeOf_lt_of_mem hu
      have hrules := sizeOf_rulesOf_lt entries
      omega
    · exact other v fun entries h => hmap ⟨entries, h⟩

end Inside

/-! ### Nodes by themselves -/

section Node

variable {k : RuleKind} {entries : List (Value × Value)} {f : SchemaFault}

theorem ofName?_eq_some_iff {s : String} : RuleKind.ofName? s = some k ↔ s = k.name := by
  constructor
  · intro h
    have hname := List.find?_some h
    exact (of_decide_eq_true hname).symm
  · rintro rfl
    exact RuleKind.ofName?_name k

theorem bind_ofName?_eq_some_iff {v : Value} : v.str?.bind RuleKind.ofName? = some k ↔ v = .str k.name := by
  constructor
  · intro h
    obtain ⟨s, hs, hk⟩ := Option.bind_eq_some_iff.mp h
    cases v with
    | str t =>
      cases hs
      rw [ofName?_eq_some_iff.mp hk]
    | _ => cases hs
  · rintro rfl
    exact RuleKind.ofName?_name k

theorem kindOf_eq_ok_iff : kindOf entries = .ok k ↔ Value.lookup (.str "kind") entries = some (.str k.name) := by
  unfold kindOf
  cases hv : Value.lookup (.str "kind") entries with
  | none => simp
  | some v =>
    simp only [Option.some.injEq, ← bind_ofName?_eq_some_iff]
    cases v.str?.bind RuleKind.ofName? with
    | none => simp
    | some j => simp

theorem kind_unique {j : RuleKind} (hj : Value.lookup (.str "kind") entries = some (.str j.name))
    (hk : Value.lookup (.str "kind") entries = some (.str k.name)) : j = k := by
  rw [hj] at hk
  exact RuleKind.name_injective (Value.str.inj (Option.some.inj hk))

theorem kindOf_eq_error_iff : kindOf entries = .error f ↔
    Value.lookup (.str "kind") entries = none ∧ f = .missingKind ∨
      ∃ v, Value.lookup (.str "kind") entries = some v ∧ v.str?.bind RuleKind.ofName? = none ∧ f = .unexpected v.display := by
  unfold kindOf
  cases hv : Value.lookup (.str "kind") entries with
  | none => simp [eq_comm]
  | some v =>
    simp only [Option.some.injEq, exists_eq_left', reduceCtorEq, false_and, false_or]
    cases v.str?.bind RuleKind.ofName? with
    | none => simp [eq_comm]
    | some j => simp

theorem unknownKeys_eq_nil_iff : unknownKeys k entries = [] ↔ ∀ e ∈ entries, isKnown k e.1 = true := by
  have hlength : (unknownKeys k entries).length = (entries.filter fun e => !isKnown k e.1).length := by
    rw [unknownKeys, List.length_mergeSort, List.length_map]
  rw [← List.length_eq_zero_iff, hlength, List.length_eq_zero_iff, List.filter_eq_nil_iff]
  simp

/-- Whether a mapping has a field of another form than the one laid down. -/
def BadField (entries : List (Value × Value)) (g : Field) : Prop :=
  ∃ v, Value.lookup (.str g.name) entries = some v ∧ g.holds v = false

def typeFault? (k : RuleKind) (entries : List (Value × Value)) (g : Field) : Option SchemaFault :=
  match Value.lookup (.str g.name) entries with
  | some v => if g.holds v then none else some (.fieldType k g.name g.wanted)
  | none => none

theorem typeFault?_eq_none_iff {g : Field} : typeFault? k entries g = none ↔ ¬BadField entries g := by
  unfold typeFault? BadField
  cases Value.lookup (.str g.name) entries with
  | none => simp
  | some v => simp

theorem typeFault?_eq_some_iff {g : Field} :
    typeFault? k entries g = some f ↔ BadField entries g ∧ f = .fieldType k g.name g.wanted := by
  unfold typeFault? BadField
  cases Value.lookup (.str g.name) entries with
  | none => simp
  | some v =>
    simp only [Option.some.injEq, exists_eq_left']
    cases g.holds v with
    | true => simp
    | false =>
      simp only [Bool.false_eq_true, if_false, Option.some.injEq, true_and]
      exact eq_comm

theorem fieldFault?_of_unknown (h : unknownKeys k entries ≠ []) :
    fieldFault? k entries = some (.unknownProperties k (unknownKeys k entries)) := by
  unfold fieldFault?
  cases hkeys : unknownKeys k entries with
  | nil => exact absurd hkeys h
  | cons name names => rfl

theorem fieldFault?_of_known (h : unknownKeys k entries = []) :
    fieldFault? k entries = typedFields.findSome? (typeFault? k entries) := by
  rw [fieldFault?, h]
  rfl

theorem fieldFault?_eq_none_iff : fieldFault? k entries = none ↔
    (∀ e ∈ entries, isKnown k e.1 = true) ∧ ∀ g ∈ typedFields, ¬BadField entries g := by
  rw [← unknownKeys_eq_nil_iff]
  by_cases hkeys : unknownKeys k entries = []
  · rw [fieldFault?_of_known hkeys]
    simp only [hkeys, List.findSome?_eq_none_iff, typeFault?_eq_none_iff, true_and]
  · simp [fieldFault?_of_unknown hkeys, hkeys]

/-- Unknown fields are told first, then the first field of a wrong form. -/
theorem fieldFault?_eq_some_iff : fieldFault? k entries = some f ↔
    unknownKeys k entries ≠ [] ∧ f = .unknownProperties k (unknownKeys k entries) ∨
    unknownKeys k entries = [] ∧ ∃ front g back, typedFields = front ++ g :: back ∧
      (∀ h ∈ front, ¬BadField entries h) ∧ BadField entries g ∧ f = .fieldType k g.name g.wanted := by
  by_cases hkeys : unknownKeys k entries = []
  · rw [fieldFault?_of_known hkeys]
    simp only [hkeys, List.findSome?_eq_some_iff, typeFault?_eq_none_iff, typeFault?_eq_some_iff, ne_eq,
      not_true_eq_false, false_and, true_and, false_or]
    constructor
    · rintro ⟨front, g, back, htyped, ⟨hg, rfl⟩, hfront⟩
      exact ⟨front, g, back, htyped, hfront, hg, rfl⟩
    · rintro ⟨front, g, back, htyped, hfront, hg, rfl⟩
      exact ⟨front, g, back, htyped, ⟨hg, rfl⟩, hfront⟩
  · simp [fieldFault?_of_unknown hkeys, hkeys, eq_comm]

theorem wellFormedKind_eq_ok_iff : wellFormedKind entries = .ok k ↔
    kindOf entries = .ok k ∧ fieldFault? k entries = none := by
  rw [wellFormedKind]
  cases hk : kindOf entries with
  | error g => simp
  | ok j =>
    simp only [Except.ok.injEq]
    cases hf : fieldFault? j entries with
    | none =>
      constructor
      · intro h
        cases h
        exact ⟨rfl, hf⟩
      · rintro ⟨rfl, -⟩
        rfl
    | some g =>
      constructor
      · intro h
        cases h
      · rintro ⟨rfl, h⟩
        rw [hf] at h
        cases h

theorem wellFormedKind_eq_error_iff : wellFormedKind entries = .error f ↔
    kindOf entries = .error f ∨ ∃ k, kindOf entries = .ok k ∧ fieldFault? k entries = some f := by
  rw [wellFormedKind]
  cases hk : kindOf entries with
  | error g => simp
  | ok j =>
    cases hf : fieldFault? j entries with
    | none => simp [hf]
    | some g => simp [hf]

end Node

/-! ### Reading -/

section Reading

variable {k : RuleKind} {entries : List (Value × Value)} {f : SchemaFault} {e : SchemaError}

theorem read_of_not_map {v : Value} (h : ∀ entries, v ≠ .map entries) :
    read v = .error { fault := .notRule v.typeName } := by
  cases v with
  | map entries => exact absurd rfl (h entries)
  | _ => rfl

theorem read_of_fault (h : wellFormedKind entries = .error f) : read (.map entries) = .error { fault := f } := by
  rw [read, h]

theorem readRules_eq (h : ∀ v, Value.lookup (.str "rules") entries = some v → isList v = true) :
    readRules k entries = readItems k 1 (rulesOf entries) := by
  induction entries with
  | nil => rfl
  | cons entry entries ih =>
    obtain ⟨key, v⟩ := entry
    have hlookup : Value.lookup (.str "rules") ((key, v) :: entries) =
        if Value.eqv (.str "rules") key then some v else Value.lookup (.str "rules") entries := by
      unfold Value.lookup
      rw [List.find?_cons]
      cases Value.eqv (.str "rules") key <;> rfl
    cases hkey : Value.eqv (.str "rules") key with
    | true =>
      rw [hlookup, hkey, if_pos rfl] at h
      have hv := h v rfl
      obtain rfl : key = .str "rules" := by
        cases key with
        | str s =>
          have hs : ("rules" == s) = true := hkey
          rw [beq_iff_eq.mp hs]
        | _ => cases hkey
      cases v with
      | list items =>
        rw [rulesOf_of_lookup (by rw [hlookup, hkey, if_pos rfl]), readRules]
      | _ => cases hv
    | false =>
      rw [hlookup, hkey, if_neg (by simp)] at h
      have hrules : rulesOf ((key, v) :: entries) = rulesOf entries := by
        unfold rulesOf
        rw [hlookup, hkey, if_neg (by simp)]
      rw [hrules, ← ih h, readRules]
      intro items hentry
      obtain ⟨rfl, -⟩ := Prod.mk.inj hentry
      cases hkey

theorem isList_of_lookup (h : wellFormedKind entries = .ok k) {v : Value}
    (hv : Value.lookup (.str "rules") entries = some v) : isList v = true := by
  obtain ⟨-, hfields⟩ := wellFormedKind_eq_ok_iff.mp h
  cases hlist : isList v with
  | true => rfl
  | false =>
    have hrules : (⟨"rules", isList, "a list"⟩ : Field) ∈ typedFields := by simp [typedFields]
    exact absurd ⟨v, hv, hlist⟩ ((fieldFault?_eq_none_iff.mp hfields).2 _ hrules)

/-- The rule of a well formed node has the fields of the node, and as children those of the nodes inside it. -/
theorem read_of_wellFormed (h : wellFormedKind entries = .ok k) : read (.map entries) =
    (readItems k 1 (rulesOf entries)).map (treeOf k fun name => Value.property (.text name) entries) := by
  rw [read, h]
  simp only [readRules_eq fun v hv => isList_of_lookup h hv]
  cases readItems k 1 (rulesOf entries) <;> rfl

theorem readItems_cons_eq_ok_iff {i : Nat} {v : Value} {vs : List Value} {ts : List Tree} :
    readItems k i (v :: vs) = .ok ts ↔ ∃ t us, read v = .ok t ∧ readItems k (i + 1) vs = .ok us ∧ ts = t :: us := by
  rw [readItems]
  constructor
  · intro h
    obtain ⟨t, ht, h⟩ := bind_eq_ok_iff.mp h
    obtain ⟨us, hus, h⟩ := bind_eq_ok_iff.mp h
    cases hv : read v with
    | error d =>
      rw [hv] at ht
      cases ht
    | ok u =>
      rw [hv] at ht
      cases ht
      exact ⟨t, us, rfl, hus, (pure_eq_ok_iff.mp h).symm⟩
  · rintro ⟨t, us, hv, hus, rfl⟩
    rw [hv, hus]
    rfl

/-- A row is read if each of its nodes is. -/
theorem readItems_eq_ok_iff {i : Nat} {vs : List Value} {ts : List Tree} :
    readItems k i vs = .ok ts ↔ List.Forall₂ (fun v t => read v = .ok t) vs ts := by
  induction vs generalizing i ts with
  | nil =>
    rw [readItems, List.forall₂_nil_left_iff, Except.ok.injEq, eq_comm]
  | cons v vs ih =>
    rw [readItems_cons_eq_ok_iff, List.forall₂_cons_left_iff]
    simp only [ih]

/-- Reading a row ends at the first of its nodes that is not read. -/
theorem readItems_eq_error_iff {i : Nat} {vs : List Value} : readItems k i vs = .error e ↔
    ∃ front v back d, vs = front ++ v :: back ∧ (∀ u ∈ front, ∃ t, read u = .ok t) ∧ read v = .error d ∧
      e = d.within { kind := k.name, index := some (i + front.length : Nat) } := by
  induction vs generalizing i with
  | nil => simp [readItems]
  | cons v vs ih =>
    rw [readItems]
    constructor
    · intro h
      cases hv : read v with
      | error d =>
        rw [hv] at h
        cases h
        exact ⟨[], v, vs, d, rfl, by simp, hv, rfl⟩
      | ok t =>
        rw [hv] at h
        obtain h | ⟨_, -, h⟩ := bind_eq_error_iff.mp h
        · cases h
        obtain h | ⟨_, -, h⟩ := bind_eq_error_iff.mp h
        · obtain ⟨front, u, back, d, rfl, hfront, hu, rfl⟩ := ih.mp h
          refine ⟨v :: front, u, back, d, rfl, ?_, hu, ?_⟩
          · intro w hw
            rcases List.mem_cons.mp hw with rfl | hw
            · exact ⟨t, hv⟩
            · exact hfront w hw
          · have hlength : i + (v :: front).length = i + 1 + front.length := by
              rw [List.length_cons]
              omega
            rw [hlength]
        · exact absurd h pure_ne_error
    · rintro ⟨front, u, back, d, hrow, hfront, hu, rfl⟩
      cases front with
      | nil =>
        obtain ⟨rfl, rfl⟩ := List.cons.inj hrow
        rw [hu]
        rfl
      | cons w front =>
        obtain ⟨rfl, rfl⟩ := List.cons.inj hrow
        obtain ⟨t, ht⟩ := hfront v List.mem_cons_self
        have hlength : i + (v :: front).length = i + 1 + front.length := by
          rw [List.length_cons]
          omega
        have hrest := (ih (i := i + 1)).mpr
          ⟨front, u, back, d, rfl, fun w hw => hfront w (List.mem_cons_of_mem _ hw), hu, by rw [hlength]⟩
        rw [ht, hrest]
        rfl

end Reading

end RuleTree.Document
