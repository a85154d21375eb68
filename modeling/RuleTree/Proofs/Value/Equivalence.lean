import Mathlib.Data.List.Forall2
import RuleTree.Validator.Run

/-!
# Equivalent values

One datum has many representations: a whole number as an integer, a ratio or a floating-point number, an instant as a date
or on a clock of any zone, a row as a list or a fixed row, a mapping with its entries in any order. Values are equivalent if
they mean the same datum. Everything that a validator looks at in a value is the same in an equivalent value.
-/

namespace RuleTree

namespace Value

/-- Two values mean the same. Numbers are compared by their exact values, dates by their milliseconds, mappings by what is
found at each name. -/
inductive Equivalent : Value → Value → Prop
  | null : Equivalent .null .null
  | bool (b : Bool) : Equivalent (.bool b) (.bool b)
  | str (s : String) : Equivalent (.str s) (.str s)
  | finite {m n : Number} {q : Rat} (hm : m.extended? = some (.finite q)) (hn : n.extended? = some (.finite q)) :
      Equivalent (.number m) (.number n)
  | unbounded {x y : Binary64} (hx : x.isFinite = false) (hy : y.isFinite = false) :
      Equivalent (.number (.float x)) (.number (.float y))
  | date {v w : Value} {stamp : Int} (hv : v.kind = .primitive .date) (hw : w.kind = .primitive .date)
      (hvs : v.stamp? = some stamp) (hws : w.stamp? = some stamp) : Equivalent v w
  | row {v w : Value} {vs ws : List Value} (hv : v.items? = some vs) (hw : w.items? = some ws)
      (h : List.Forall₂ Equivalent vs ws) : Equivalent v w
  | map {es fs : List (Value × Value)} (h : ∀ name, Equivalent (property name es) (property name fs)) :
      Equivalent (.map es) (.map fs)
  | foreign {n : String} (h : ∀ p : Primitive, n ≠ p.name) : Equivalent (.foreign n) (.foreign n)

/-! ### What equivalent values share -/

section Shared

variable {v w : Value}

theorem day_or_moment {stamp : Int} (hk : v.kind = .primitive .date) (hs : v.stamp? = some stamp) :
    (∃ d, v = .date d) ∨ ∃ m, v = .moment m := by
  cases v with
  | date d => exact .inl ⟨d, rfl⟩
  | moment m => exact .inr ⟨m, rfl⟩
  | foreign n => cases hs
  | _ => cases hk

theorem list_or_tuple {vs : List Value} (h : v.items? = some vs) : v = .list vs ∨ v = .tuple vs := by
  cases v with
  | list xs =>
    cases h
    exact .inl rfl
  | tuple xs =>
    cases h
    exact .inr rfl
  | _ => cases h

theorem eq_of_str? {s : String} (h : v.str? = some s) : v = .str s := by
  cases v with
  | str t =>
    cases h
    rfl
  | _ => cases h

theorem isFinite_of_extended? {n : Number} {q : Rat} (h : n.extended? = some (.finite q)) : n.isFinite = true := by
  cases n with
  | float x =>
    by_contra hx
    have hinfinite : x.isFinite = false := Bool.eq_false_iff.mpr hx
    simp only [Number.extended?, hinfinite] at h
    split at h
    · cases h
    · simp only [Bool.false_eq_true, if_false] at h
      split at h <;> cases h
  | _ => rfl

/-- What is seen of a value is shared by equivalent values if of numbers only the finiteness, and of dates, rows and
mappings nothing at all is seen. -/
theorem Equivalent.shared {α : Type} {f : Value → α} (h : Equivalent v w)
    (hnumber : ∀ m n : Number, m.isFinite = n.isFinite → f (.number m) = f (.number n))
    (hdate : ∀ d m, f (.date d) = f (.moment m)) (hrow : ∀ vs ws, f (.list vs) = f (.tuple ws))
    (hmap : ∀ es fs, f (.map es) = f (.map fs)) : f v = f w := by
  cases h with
  | finite hm hn =>
    have hfinite := (isFinite_of_extended? hm).trans (isFinite_of_extended? hn).symm
    exact hnumber _ _ hfinite
  | unbounded hx hy => exact hnumber _ _ (hx.trans hy.symm)
  | date hv hw hvs hws =>
    rcases day_or_moment hv hvs with ⟨d, rfl⟩ | ⟨m, rfl⟩
    · rcases day_or_moment hw hws with ⟨d', rfl⟩ | ⟨m', rfl⟩
      · exact (hdate d d.atMidnight).trans (hdate d' d.atMidnight).symm
      · exact hdate d m'
    · rcases day_or_moment hw hws with ⟨d', rfl⟩ | ⟨m', rfl⟩
      · exact (hdate d' m).symm
      · exact (hdate m.date m).symm.trans (hdate m.date m')
  | @row v w vs ws hv hw _ =>
    rcases list_or_tuple hv with rfl | rfl
    · rcases list_or_tuple hw with rfl | rfl
      · exact (hrow vs []).trans (hrow ws []).symm
      · exact hrow vs ws
    · rcases list_or_tuple hw with rfl | rfl
      · exact (hrow ws vs).symm
      · exact (hrow [] vs).symm.trans (hrow [] ws)
  | map => exact hmap _ _
  | _ => rfl

namespace Equivalent

theorem kind (h : Equivalent v w) : v.kind = w.kind :=
  h.shared (fun _ _ _ => rfl) (fun _ _ => rfl) (fun _ _ => rfl) (fun _ _ => rfl)

theorem str? (h : Equivalent v w) : v.str? = w.str? :=
  h.shared (fun _ _ _ => rfl) (fun _ _ => rfl) (fun _ _ => rfl) (fun _ _ => rfl)

theorem isFiniteNumber (h : Equivalent v w) : v.isFiniteNumber = w.isFiniteNumber :=
  h.shared (fun _ _ hmn => hmn) (fun _ _ => rfl) (fun _ _ => rfl) (fun _ _ => rfl)

theorem stamp? (h : Equivalent v w) : v.stamp? = w.stamp? := by
  cases h with
  | date hv hw hvs hws => exact hvs.trans hws.symm
  | row hv hw _ =>
    rcases list_or_tuple hv with rfl | rfl
    · rcases list_or_tuple hw with rfl | rfl <;> rfl
    · rcases list_or_tuple hw with rfl | rfl <;> rfl
  | _ => rfl

theorem items? (h : Equivalent v w) : Option.Rel (List.Forall₂ Equivalent) v.items? w.items? := by
  cases h with
  | date hv hw hvs hws =>
    have hvi : v.items? = none := by
      rcases day_or_moment hv hvs with ⟨d, rfl⟩ | ⟨m, rfl⟩ <;> rfl
    have hwi : w.items? = none := by
      rcases day_or_moment hw hws with ⟨d, rfl⟩ | ⟨m, rfl⟩ <;> rfl
    rw [hvi, hwi]
    exact .none
  | row hv hw hvw =>
    rw [hv, hw]
    exact .some hvw
  | _ => exact .none

theorem length? (h : Equivalent v w) : v.length? = w.length? := by
  cases h with
  | date hv hw hvs hws =>
    have hvl : v.length? = none := by
      rcases day_or_moment hv hvs with ⟨d, rfl⟩ | ⟨m, rfl⟩ <;> rfl
    have hwl : w.length? = none := by
      rcases day_or_moment hw hws with ⟨d, rfl⟩ | ⟨m, rfl⟩ <;> rfl
    rw [hvl, hwl]
  | @row v w vs ws hv hw hvw =>
    have hlen : vs.length = ws.length := hvw.length_eq
    have hvl : v.length? = some vs.length := by
      rcases list_or_tuple hv with rfl | rfl <;> rfl
    have hwl : w.length? = some ws.length := by
      rcases list_or_tuple hw with rfl | rfl <;> rfl
    rw [hvl, hwl, hlen]
  | _ => rfl

theorem null_iff (h : Equivalent v w) : v = .null ↔ w = .null := by
  have hnull : (v = .null) = (w = .null) :=
    h.shared (f := fun u => u = .null) (fun _ _ _ => by simp) (fun _ _ => by simp) (fun _ _ => by simp) (fun _ _ => by simp)
  rw [hnull]

/-- Both are mappings with equivalent values at every name, or neither is a mapping. -/
theorem map_or_not (h : Equivalent v w) :
    (∃ es fs, v = .map es ∧ w = .map fs ∧ ∀ name, Equivalent (property name es) (property name fs)) ∨
      (∀ es, v ≠ .map es) ∧ ∀ fs, w ≠ .map fs := by
  cases h with
  | map h => exact .inl ⟨_, _, rfl, rfl, h⟩
  | date hv hw =>
    refine .inr ⟨fun es he => ?_, fun fs hf => ?_⟩
    · subst he
      cases hv
    · subst hf
      cases hw
  | row hv hw =>
    refine .inr ⟨fun es he => ?_, fun fs hf => ?_⟩
    · subst he
      cases hv
    · subst hf
      cases hw
  | _ => exact .inr ⟨by simp, by simp⟩

theorem finite_number (h : Equivalent v w) (hv : v.isFiniteNumber = true) :
    ∃ m n, v = .number m ∧ w = .number n ∧ m.extended? = n.extended? := by
  cases h with
  | finite hm hn => exact ⟨_, _, rfl, rfl, hm.trans hn.symm⟩
  | unbounded hx => exact absurd (hx.symm.trans hv) (by decide)
  | date hk _ hs =>
    rcases day_or_moment hk hs with ⟨d, rfl⟩ | ⟨m, rfl⟩ <;> cases hv
  | row hi =>
    rcases list_or_tuple hi with rfl | rfl <;> cases hv
  | _ => cases hv

end Equivalent

end Shared

end Value

end RuleTree
