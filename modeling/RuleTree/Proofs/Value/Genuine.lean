import RuleTree.Validator.Run

/-!
# Genuine values

A foreign value whose type is called like a kind passes for a value of that kind, but has nothing that values of the kind
have. A value is genuine if no such value occurs in it. Of a genuine value the kind tells the form.
-/

namespace RuleTree

theorem Key.toValue_injective {a b : Key} (h : a.toValue = b.toValue) : a = b := by
  cases a <;> cases b <;> cases h <;> rfl

namespace Value

mutual

/-- No foreign value in here is called like a kind that containers ask for. Keys of mappings are only compared. -/
def Genuine : Value → Prop
  | .foreign n => ∀ p : Primitive, n ≠ p.name
  | .list vs => GenuineRow vs
  | .tuple vs => GenuineRow vs
  | .map es => GenuineEntries es
  | _ => True

def GenuineRow : List Value → Prop
  | [] => True
  | v :: vs => v.Genuine ∧ GenuineRow vs

def GenuineEntries : List (Value × Value) → Prop
  | [] => True
  | (_, v) :: es => v.Genuine ∧ GenuineEntries es

end

theorem genuine_of_mem_row {vs : List Value} (h : GenuineRow vs) : ∀ v ∈ vs, v.Genuine := by
  induction vs with
  | nil => simp
  | cons v vs ih =>
    rw [GenuineRow] at h
    intro w hw
    rcases List.mem_cons.mp hw with rfl | hw
    · exact h.1
    · exact ih h.2 w hw

theorem genuine_of_mem_entries {es : List (Value × Value)} (h : GenuineEntries es) : ∀ e ∈ es, e.2.Genuine := by
  induction es with
  | nil => simp
  | cons e es ih =>
    rw [GenuineEntries] at h
    intro f hf
    rcases List.mem_cons.mp hf with rfl | hf
    · exact h.1
    · exact ih h.2 f hf

theorem genuine_of_items {v : Value} {items : List Value} (hv : v.Genuine) (h : v.items? = some items) :
    ∀ w ∈ items, w.Genuine := by
  cases v with
  | list vs =>
    cases h
    exact genuine_of_mem_row hv
  | tuple vs =>
    cases h
    exact genuine_of_mem_row hv
  | _ => cases h

theorem genuine_property {es : List (Value × Value)} (h : (Value.map es).Genuine) (key : Key) :
    (property key es).Genuine := by
  have hes : GenuineEntries es := h
  unfold property lookup
  cases hf : es.find? fun e => eqv key.toValue e.1 with
  | none => exact trivial
  | some e => exact genuine_of_mem_entries hes e (List.mem_of_find?_eq_some hf)

theorem kind_foreign_ne {n : String} (h : (Value.foreign n).Genuine) (p : Primitive) :
    (Value.foreign n).kind ≠ .primitive p := by
  intro hk
  have hn : (Kind.ofName n).name = p.name := congrArg Kind.name hk
  rw [Kind.name_ofName] at hn
  exact h p hn

end Value

/-! ### What containers take -/

/-- Which values a container takes, and what its checks see: dates read texts, numbers are finite. -/
inductive Primitive.Admits : Primitive → Value → Value → Prop
  | object (es : List (Value × Value)) : Admits .object (.map es) (.map es)
  | string (s : String) : Admits .string (.str s) (.str s)
  | number (n : Number) (q : Rat) (h : n.extended? = some (.finite q)) : Admits .number (.number n) (.number n)
  | boolean (b : Bool) : Admits .boolean (.bool b) (.bool b)
  | date (d : CalendarDate) : Admits .date (.date d) (.date d)
  | moment (m : Moment) : Admits .date (.moment m) (.moment m)
  | written (s : String) (m : Moment) (h : Moment.read? s = some m) : Admits .date (.str s) (.moment m)
  | list (vs : List Value) : Admits .array (.list vs) (.list vs)
  | tuple (vs : List Value) : Admits .array (.tuple vs) (.tuple vs)

theorem Number.isFinite_iff {n : Number} : n.isFinite = true ↔ ∃ q, n.extended? = some (.finite q) := by
  cases n with
  | int i => simp [isFinite, extended?]
  | ratio q => simp [isFinite, extended?]
  | float x =>
    unfold isFinite extended?
    by_cases hn : x.isNaN = true
    · have hf : x.isFinite = false := by
        have hx := hn
        simp only [Binary64.isNaN, Bool.and_eq_true, beq_iff_eq] at hx
        simp [Binary64.isFinite, hx.1]
      simp [hn, hf]
    · by_cases hf : x.isFinite = true
      · simp [hn, hf]
      · by_cases hs : x.negative = true
        · simp [hn, hf, hs]
        · simp [hn, hf, hs]

/-- A genuine value of a kind is admitted as it is, unless it is a number without a place among the rationals. -/
theorem Primitive.admits_self {p : Primitive} {v : Value} (hv : v.Genuine) (hk : v.kind = .primitive p)
    (hn : p = .number → v.isFiniteNumber = true) : p.Admits v v := by
  cases v with
  | null => cases hk
  | bool b =>
    cases hk
    exact .boolean b
  | number n =>
    cases hk
    obtain ⟨q, hq⟩ := Number.isFinite_iff.mp (hn rfl)
    exact .number n q hq
  | str s =>
    cases hk
    exact .string s
  | date d =>
    cases hk
    exact .date d
  | moment m =>
    cases hk
    exact .moment m
  | list vs =>
    cases hk
    exact .list vs
  | tuple vs =>
    cases hk
    exact .tuple vs
  | map es =>
    cases hk
    exact .object es
  | foreign n => exact absurd hk (Value.kind_foreign_ne hv p)

namespace Validator

theorem receive_of_kind {p : Primitive} {v : Value} (hk : v.kind = .primitive p) :
    receive p v = if p = .number ∧ v.isFiniteNumber = false then .error (.kind p "invalid number") else .ok v := by
  unfold receive
  split
  · cases hk
  · simp [hk]

theorem receive_of_kind_ne {p : Primitive} {v seen : Value} (hk : v.kind ≠ .primitive p) :
    receive p v = .ok seen ↔ p = .date ∧ ∃ s m, v = .str s ∧ Moment.read? s = some m ∧ seen = .moment m := by
  unfold receive
  split
  · next s =>
    cases hm : Moment.read? s with
    | none => simp [hm]
    | some m =>
      constructor
      · intro h
        cases h
        exact ⟨rfl, s, m, rfl, hm, rfl⟩
      · intro h
        obtain ⟨-, _, m', hs, hm', rfl⟩ := h
        cases hs
        cases hm.symm.trans hm'
        rfl
  · next hns =>
    simp only [bne_iff_ne, ne_eq, hk, not_false_eq_true, if_true, reduceCtorEq, false_iff, not_and, not_exists]
    intro hp s m hs
    subst hp hs
    exact absurd rfl (hns s rfl)

/-- A container takes a genuine value by its form alone. -/
theorem receive_eq_ok_iff {p : Primitive} {v seen : Value} (hv : v.Genuine) :
    receive p v = .ok seen ↔ p.Admits v seen := by
  by_cases hk : v.kind = .primitive p
  · rw [receive_of_kind hk]
    constructor
    · intro h
      split at h
      · cases h
      · next hn =>
        cases h
        exact Primitive.admits_self hv hk fun hp => by simpa [hp] using hn
    · intro h
      cases h with
      | number n q hq =>
        have hf : n.isFinite = true := Number.isFinite_iff.mpr ⟨q, hq⟩
        simp [Value.isFiniteNumber, hf]
      | written s m hm => cases hk
      | _ => rfl
  · rw [receive_of_kind_ne hk]
    constructor
    · intro h
      obtain ⟨rfl, s, m, rfl, hm, rfl⟩ := h
      exact .written s m hm
    · intro h
      cases h with
      | written s m hm => exact ⟨rfl, s, m, rfl, hm, rfl⟩
      | _ => exact absurd rfl hk

end Validator

end RuleTree
