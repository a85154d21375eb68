import RuleTree.Proofs.Value.Genuine

/-!
# Operands

Running a validator compares instants, numbers and lengths. Of a genuine value, whatever is compared exists: checks look at the
kind first, and the kind of a genuine value tells its form.
-/

namespace RuleTree

namespace Value

theorem exists_stamp_of_kind {v : Value} (hv : v.Genuine) (hk : v.kind = .primitive .date) :
    ∃ s, v.stamp? = some s := by
  cases v with
  | date d => exact ⟨d.stamp, stamp?_date d⟩
  | moment m => exact ⟨m.withZone.stamp, rfl⟩
  | foreign n => exact absurd hk (kind_foreign_ne hv .date)
  | _ => cases hk

theorem exists_number_of_kind {v : Value} (hv : v.Genuine) (hk : v.kind = .primitive .number) :
    ∃ n, v = .number n := by
  cases v with
  | number n => exact ⟨n, rfl⟩
  | foreign n => exact absurd hk (kind_foreign_ne hv .number)
  | _ => cases hk

theorem exists_length_of_kind {v : Value} (hv : v.Genuine)
    (hk : v.kind = .primitive .string ∨ v.kind = .primitive .array) : ∃ n, v.length? = some n := by
  cases v with
  | str s => exact ⟨s.length, rfl⟩
  | list vs => exact ⟨vs.length, rfl⟩
  | tuple vs => exact ⟨vs.length, rfl⟩
  | foreign n =>
    rcases hk with hk | hk
    · exact absurd hk (kind_foreign_ne hv .string)
    · exact absurd hk (kind_foreign_ne hv .array)
  | _ => rcases hk with hk | hk <;> cases hk

end Value

/-- Whether a value has what a bound is about. -/
def Subject.Applies (s : Subject) (v : Value) : Prop :=
  match s with
  | .number => ∃ n, v = .number n
  | _ => ∃ n, v.length? = some n

theorem Subject.applies_of_kind {s : Subject} {v : Value} (hv : v.Genuine) (hk : v.kind = .primitive s.primitive) :
    s.Applies v := by
  cases s with
  | number => exact Value.exists_number_of_kind hv hk
  | stringLength => exact Value.exists_length_of_kind hv (.inl hk)
  | arrayLength => exact Value.exists_length_of_kind hv (.inr hk)

namespace Validator

mutual

/-- Every operand that running a validator on a value asks for exists: the instant of what passes for a date, the number or
the length of what passes for a number, a text or a row. -/
def Supports : Validator → Value → Prop
  | .equal _ _ _, _ => True
  | .equalMoment _ _ _, v => v.kind = .primitive .date → ∃ s, v.stamp? = some s
  | .bound _ subject _ _, v => v.kind = .primitive subject.primitive → subject.Applies v
  | .range _ _ _, v => v.kind = .primitive .number → ∃ n, v = .number n
  | .pattern _ _ _, _ => True
  | .dateBound _ _ _ _, v => v.kind = .primitive .date → ∃ s, v.stamp? = some s
  | .between _ _ _ _, v => v.kind = .primitive .date → ∃ s, v.stamp? = some s
  | .any alternatives, v => SupportsRow alternatives v
  | .container p checks _, v =>
    (v.kind = .primitive .number → ∃ n, v = .number n) ∧ ∀ seen, receive p v = .ok seen → SupportsRow checks seen
  | .union branches _, v => SupportsBranches branches v
  | .prop key inner, v => ∀ es, v = .map es → inner.Supports (Value.property key es)
  | .item inner, v => ∀ items, v.items? = some items → ∀ w ∈ items, inner.Supports w
  | .required none _, _ => True
  | .required (some inner) _, v => inner.Supports v

def SupportsRow : List Validator → Value → Prop
  | [], _ => True
  | c :: cs, v => c.Supports v ∧ SupportsRow cs v

def SupportsBranches : List (Primitive × Validator) → Value → Prop
  | [], _ => True
  | (_, c) :: bs, v => c.Supports v ∧ SupportsBranches bs v

end

theorem genuine_of_receive {p : Primitive} {v seen : Value} (hv : v.Genuine) (h : receive p v = .ok seen) :
    seen.Genuine := by
  cases (receive_eq_ok_iff hv).mp h with
  | written s m hm => exact trivial
  | _ => exact hv

mutual

theorem supports_of_genuine : ∀ (c : Validator) {v : Value}, v.Genuine → c.Supports v
  | .equal _ _ _, _, _ => trivial
  | .equalMoment _ _ _, _, hv => fun hk => Value.exists_stamp_of_kind hv hk
  | .bound _ _ _ _, _, hv => fun hk => Subject.applies_of_kind hv hk
  | .range _ _ _, _, hv => fun hk => Value.exists_number_of_kind hv hk
  | .pattern _ _ _, _, _ => trivial
  | .dateBound _ _ _ _, _, hv => fun hk => Value.exists_stamp_of_kind hv hk
  | .between _ _ _ _, _, hv => fun hk => Value.exists_stamp_of_kind hv hk
  | .any alternatives, _, hv => supportsRow_of_genuine alternatives hv
  | .container _ checks _, _, hv =>
    ⟨fun hk => Value.exists_number_of_kind hv hk,
      fun _ h => supportsRow_of_genuine checks (genuine_of_receive hv h)⟩
  | .union branches _, _, hv => supportsBranches_of_genuine branches hv
  | .prop key inner, _, hv => by
    intro es h
    subst h
    exact supports_of_genuine inner (Value.genuine_property hv key)
  | .item inner, _, hv => fun _ h w hw => supports_of_genuine inner (Value.genuine_of_items hv h w hw)
  | .required none _, _, _ => trivial
  | .required (some inner) _, _, hv => supports_of_genuine inner hv

theorem supportsRow_of_genuine : ∀ (cs : List Validator) {v : Value}, v.Genuine → SupportsRow cs v
  | [], _, _ => trivial
  | c :: cs, _, hv => ⟨supports_of_genuine c hv, supportsRow_of_genuine cs hv⟩

theorem supportsBranches_of_genuine : ∀ (bs : List (Primitive × Validator)) {v : Value}, v.Genuine →
    SupportsBranches bs v
  | [], _, _ => trivial
  | (_, c) :: bs, _, hv => ⟨supports_of_genuine c hv, supportsBranches_of_genuine bs hv⟩

end

end Validator

end RuleTree
