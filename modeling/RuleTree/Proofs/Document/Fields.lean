import RuleTree.Document.Reader
import RuleTree.Document.Writer

/-!
# Mappings of named fields

What the reader finds in a mapping that was made of named fields: the kind, each field under its name, and no fault if every
field is one of the kind and of the form laid down for it.
-/

namespace RuleTree.Document

def entriesOf (fields : List (String × Value)) : List (Value × Value) := fields.map fun f => (.str f.1, f.2)

theorem ofFields_eq (fields : List (String × Value)) : Value.ofFields fields = .map (entriesOf fields) := rfl

section Fields

variable {k : RuleKind} {fields rest : List (String × Value)}

theorem lookup_entriesOf (name : String) (fields : List (String × Value)) :
    Value.lookup (.str name) (entriesOf fields) = fields.lookup name := by
  induction fields with
  | nil => rfl
  | cons f fields ih =>
    have hkey : Value.eqv (.str name) (.str f.1) = (name == f.1) := rfl
    have hcons : Value.lookup (.str name) (entriesOf (f :: fields)) =
        if name == f.1 then some f.2 else Value.lookup (.str name) (entriesOf fields) := by
      unfold Value.lookup entriesOf
      rw [List.map_cons, List.find?_cons, hkey]
      cases name == f.1 <;> rfl
    rw [hcons, List.lookup_cons, ih]
    cases name == f.1 <;> rfl

theorem property_entriesOf (name : String) (fields : List (String × Value)) :
    Value.property (.text name) (entriesOf fields) = (fields.lookup name).getD .null := by
  unfold Value.property Key.toValue
  rw [lookup_entriesOf]

theorem kindOf_entriesOf : kindOf (entriesOf (kindField (some k) :: rest)) = .ok k := by
  have hname := RuleKind.ofName?_name k
  have hlookup : Value.lookup (.str "kind") (entriesOf (kindField (some k) :: rest)) = some (.str k.name) := by
    rw [lookup_entriesOf, kindField, List.lookup_cons_self]
    rfl
  rw [kindOf, hlookup]
  simp only [Value.str?, Option.bind_some, hname]

theorem unknownKeys_entriesOf (h : ∀ f ∈ fields, f.1 = "kind" ∨ f.1 ∈ fieldsOf k) :
    unknownKeys k (entriesOf fields) = [] := by
  have hfilter : (entriesOf fields).filter (fun e => !isKnown k e.1) = [] := by
    rw [List.filter_eq_nil_iff]
    intro e he
    obtain ⟨f, hf, rfl⟩ := List.mem_map.mp he
    have hknown : isKnown k (.str f.1) = true := by
      simp only [isKnown, Bool.or_eq_true, beq_iff_eq, List.contains_iff_mem]
      exact h f hf
    simp [hknown]
  rw [unknownKeys, hfilter]
  exact List.mergeSort_nil

theorem mem_of_lookup {name : String} {v : Value} (h : fields.lookup name = some v) : (name, v) ∈ fields := by
  induction fields with
  | nil => cases h
  | cons f fields ih =>
    rw [List.lookup_cons] at h
    cases hname : name == f.1 with
    | true =>
      rw [hname] at h
      obtain rfl := beq_iff_eq.mp hname
      obtain rfl := Option.some.inj h
      exact List.mem_cons_self
    | false =>
      rw [hname] at h
      exact List.mem_cons_of_mem _ (ih h)

theorem wellFormedKind_entriesOf (hknown : ∀ f ∈ rest, f.1 ∈ fieldsOf k)
    (htyped : ∀ f ∈ rest, ∀ g ∈ typedFields, g.name = f.1 → g.holds f.2 = true) :
    wellFormedKind (entriesOf (kindField (some k) :: rest)) = .ok k := by
  have hunknown : unknownKeys k (entriesOf (kindField (some k) :: rest)) = [] := by
    refine unknownKeys_entriesOf fun f hf => ?_
    rcases List.mem_cons.mp hf with rfl | hf
    · exact .inl rfl
    · exact .inr (hknown f hf)
  have hfault : fieldFault? k (entriesOf (kindField (some k) :: rest)) = none := by
    rw [fieldFault?, hunknown]
    simp only [List.findSome?_eq_none_iff, lookup_entriesOf]
    intro f hf
    have hkind : (f.name == "kind") = false := by
      revert hf f
      decide
    have hlookup : (kindField (some k) :: rest).lookup f.name = rest.lookup f.name := by
      rw [kindField, List.lookup_cons, hkind]
    rw [hlookup]
    cases hv : rest.lookup f.name with
    | none => rfl
    | some v => simp [htyped (f.name, v) (mem_of_lookup hv) f hf rfl]
  simp only [wellFormedKind, kindOf_entriesOf, hfault]

theorem readRules_cons {f : String × Value} (h : f.1 ≠ "rules") :
    readRules k (entriesOf (f :: fields)) = readRules k (entriesOf fields) := by
  unfold entriesOf
  rw [List.map_cons, readRules]
  intro items hrules
  obtain ⟨hkey, -⟩ := Prod.mk.inj hrules
  exact h (Value.str.inj hkey)

/-- Without a field of rules there are no children. -/
theorem readRules_of_not_mem (h : ∀ f ∈ fields, f.1 ≠ "rules") : readRules k (entriesOf fields) = .ok [] := by
  induction fields with
  | nil => rfl
  | cons f fields ih =>
    rw [readRules_cons (h f List.mem_cons_self)]
    exact ih fun f hf => h f (List.mem_cons_of_mem _ hf)

theorem readRules_entriesOf {items : List Value} :
    readRules k (entriesOf (kindField (some k) :: ("rules", .list items) :: rest)) = readItems k 1 items := by
  have hkind : (kindField (some k)).1 ≠ "rules" := by
    intro h
    exact absurd h (by simp [kindField])
  rw [readRules_cons hkind]
  unfold entriesOf
  rw [List.map_cons, readRules]

end Fields

end RuleTree.Document
