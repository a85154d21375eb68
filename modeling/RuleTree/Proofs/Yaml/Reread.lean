import RuleTree.Proofs.Json.RoundTrip
import RuleTree.Proofs.Yaml.Assembly
import RuleTree.Proofs.Yaml.Scalars
import RuleTree.Yaml.Reader

/-!
# JSON read as YAML

What YAML reads of the text that JSON writes for a value. Numbers without a point are texts if they have an exponent, texts are
read with the halves of their characters, and nothing is read if a name takes too much room.
-/

namespace RuleTree

open Yaml.Layout (halved maxKey)
open Json (quote)

/-! ### Values read again -/

namespace Value

/-- A name as YAML reads it, if its text is not too long for a key. -/
def rereadKey : Value → Option Value
  | .str name => if (quote name).toList.length ≤ maxKey then some (.str (halved name)) else none
  | k => some k

mutual

/-- What YAML reads of the text that JSON writes for a value. -/
def reread : Value → Option Value
  | .number (.float x) => some (if '.' ∈ (x.format Json.layout).toList then .number (.float x) else .str (x.format Json.layout))
  | .str text => some (.str (halved text))
  | .list vs => (rereadItems vs).map .list
  | .map es => (rereadEntries es).map .map
  | v => some v

def rereadItems : List Value → Option (List Value)
  | [] => some []
  | v :: vs => do return (← reread v) :: (← rereadItems vs)

def rereadEntries : List (Value × Value) → Option (List (Value × Value))
  | [] => some []
  | (k, v) :: es => do
    let key ← rereadKey k
    let value ← reread v
    return (key, value) :: (← rereadEntries es)

end

/-- Whether sixteen bits hold each character of a text. -/
def isNarrow (text : String) : Bool := text.toList.all (·.toNat < 0x10000)

def isPortableKey : Value → Bool
  | .str name => isNarrow name && (quote name).toList.length ≤ maxKey
  | _ => true

mutual

/-- Whether YAML reads the same value as JSON: each floating-point number is written with a point, no text has a character beyond
sixteen bits, and no name is too long for a key. -/
def isPortable : Value → Bool
  | .number (.float x) => (x.format Json.layout).toList.contains '.'
  | .str text => isNarrow text
  | .list vs => arePortable vs
  | .map es => arePortableEntries es
  | _ => true

def arePortable : List Value → Bool
  | [] => true
  | v :: vs => isPortable v && arePortable vs

def arePortableEntries : List (Value × Value) → Bool
  | [] => true
  | (k, v) :: es => isPortableKey k && isPortable v && arePortableEntries es

end

end Value

/-! ### Halves -/

namespace Text

variable {c d : Char} {cs ds : List Char}

theorem halves_eq_singleton (h : c.toNat < 0x10000) : halves c = [c] := if_pos h

theorem length_flatMap_halves (cs : List Char) : cs.length ≤ (cs.flatMap halves).length := by
  induction cs with
  | nil => exact Nat.le_refl 0
  | cons c cs ih =>
    have hpos : 1 ≤ (halves c).length := by
      unfold halves
      split_ifs <;> simp
    rw [List.flatMap_cons, List.length_append, List.length_cons]
    omega

/-- A text is its own row of halves if sixteen bits hold each of its characters. -/
theorem flatMap_halves_eq_self_iff : cs.flatMap halves = cs ↔ ∀ c ∈ cs, c.toNat < 0x10000 := by
  induction cs with
  | nil => simp
  | cons c cs ih =>
    rw [List.flatMap_cons, List.forall_mem_cons]
    by_cases hc : c.toNat < 0x10000
    · rw [halves_eq_singleton hc, List.singleton_append, List.cons_inj_right, ih]
      exact (and_iff_right hc).symm
    · have hlong := length_flatMap_halves cs
      constructor
      · intro heq
        have hlen := congrArg List.length heq
        rw [halves, if_neg hc] at hlen
        simp only [List.length_append, List.length_cons, List.length_nil] at hlen
        omega
      · exact fun h => absurd h.1 hc

/-- The stand-in for a half is beyond sixteen bits. -/
theorem toNat_ofCode_half {n : Nat} (h : isHalf n = true) : (ofCode n).toNat = 0x100000 + n := by
  have hbounds := h
  simp only [isHalf, isHighHalf, isLowHalf, Bool.or_eq_true, Bool.and_eq_true, decide_eq_true_eq] at hbounds
  have hvalid : Nat.isValidChar (0x100000 + n) := .inr (by omega)
  rw [ofCode, if_pos h, Char.ofNat, dif_pos hvalid]
  rfl

theorem toNat_highHalf (c : Char) : (ofCode (highHalf c.toNat)).toNat = 0x100000 + highHalf c.toNat := by
  have hbounds := Json.toNat_bounds c
  exact toNat_ofCode_half (by rw [isHalf, isHighHalf_highHalf _ (by omega), Bool.true_or])

theorem toNat_lowHalf (c : Char) : (ofCode (lowHalf c.toNat)).toNat = 0x100000 + lowHalf c.toNat :=
  toNat_ofCode_half (by rw [isHalf, isLowHalf_lowHalf, Bool.or_true])

/-- No character within sixteen bits stands for a half. -/
theorem ne_highHalf (hc : c.toNat < 0x10000) (d : Char) : c ≠ ofCode (highHalf d.toNat) := by
  rintro rfl
  rw [toNat_highHalf] at hc
  omega

theorem halves_append_injective {xs ys : List Char} (h : halves c ++ xs = halves d ++ ys) : c = d ∧ xs = ys := by
  by_cases hc : c.toNat < 0x10000
  · by_cases hd : d.toNat < 0x10000
    · rw [halves_eq_singleton hc, halves_eq_singleton hd] at h
      exact List.cons.inj h
    · rw [halves_eq_singleton hc, halves, if_neg hd] at h
      exact absurd (List.cons.inj h).1 (ne_highHalf hc d)
  · by_cases hd : d.toNat < 0x10000
    · rw [halves_eq_singleton hd, halves, if_neg hc] at h
      exact absurd (List.cons.inj h).1.symm (ne_highHalf hd c)
    · rw [halves, halves, if_neg hc, if_neg hd] at h
      obtain ⟨hhigh, htail⟩ := List.cons.inj h
      obtain ⟨hlow, hrest⟩ := List.cons.inj htail
      have hhigh := congrArg Char.toNat hhigh
      have hlow := congrArg Char.toNat hlow
      rw [toNat_highHalf, toNat_highHalf] at hhigh
      rw [toNat_lowHalf, toNat_lowHalf] at hlow
      refine ⟨Char.toNat_inj.mp ?_, hrest⟩
      rw [← joinHalves_halves c.toNat (by omega), ← joinHalves_halves d.toNat (by omega), Nat.add_left_cancel hhigh,
        Nat.add_left_cancel hlow]

theorem halves_injective (h : cs.flatMap halves = ds.flatMap halves) : cs = ds := by
  have hne (c : Char) (cs : List Char) : (c :: cs).flatMap halves ≠ [] := by
    have hlong := length_flatMap_halves (c :: cs)
    exact List.ne_nil_of_length_pos (Nat.lt_of_lt_of_le (Nat.succ_pos _) hlong)
  induction cs generalizing ds with
  | nil =>
    cases ds with
    | nil => rfl
    | cons d ds => exact absurd h.symm (hne d ds)
  | cons c cs ih =>
    cases ds with
    | nil => exact absurd h (hne c cs)
    | cons d ds =>
      rw [List.flatMap_cons, List.flatMap_cons] at h
      obtain ⟨rfl, hrest⟩ := halves_append_injective h
      rw [ih hrest]

end Text

namespace Yaml.Layout

theorem halved_eq_self_iff (text : String) : halved text = text ↔ Value.isNarrow text = true := by
  rw [halved, ← String.toList_inj, String.toList_ofList, Text.flatMap_halves_eq_self_iff, Value.isNarrow, List.all_eq_true]
  simp only [decide_eq_true_eq]

theorem halved_injective : Function.Injective halved := by
  intro s t h
  rw [halved, halved] at h
  exact String.toList_inj.mp (Text.halves_injective (String.ofList_injective h))

end Yaml.Layout

/-! ### Portable values -/

namespace Value

open Yaml.Layout (halved_eq_self_iff)

theorem rereadKey_eq_some_iff (k : Value) : rereadKey k = some k ↔ isPortableKey k = true := by
  cases k with
  | str name =>
    rw [rereadKey, isPortableKey, Bool.and_eq_true, decide_eq_true_eq, ← halved_eq_self_iff]
    by_cases hlen : (quote name).toList.length ≤ maxKey
    · rw [if_pos hlen, Option.some.injEq, Value.str.injEq]
      exact (and_iff_left hlen).symm
    · rw [if_neg hlen]
      exact iff_of_false (fun h => Option.some_ne_none _ h.symm) fun h => hlen h.2
  | _ => exact iff_of_true rfl rfl

theorem reread_float (x : Binary64) : (Value.number (.float x)).reread = some (.number (.float x)) ↔
    (Value.number (.float x)).isPortable = true := by
  rw [reread, isPortable, List.contains_iff_mem]
  by_cases hpoint : '.' ∈ (x.format Json.layout).toList
  · exact iff_of_true (by rw [if_pos hpoint]) hpoint
  · refine iff_of_false (fun h => ?_) hpoint
    rw [if_neg hpoint] at h
    cases h

mutual

theorem reread_eq_some_iff (v : Value) : v.reread = some v ↔ v.isPortable = true := by
  cases v with
  | number n =>
    cases n with
    | float x => exact reread_float x
    | _ => exact iff_of_true rfl rfl
  | str text =>
    rw [reread, isPortable, ← halved_eq_self_iff, Option.some.injEq, Value.str.injEq]
  | list vs =>
    rw [reread, isPortable, map_eq_some_of_injective fun _ _ h => Value.list.inj h]
    exact rereadItems_eq_some_iff vs
  | map es =>
    rw [reread, isPortable, map_eq_some_of_injective fun _ _ h => Value.map.inj h]
    exact rereadEntries_eq_some_iff es
  | _ => exact iff_of_true rfl rfl

theorem rereadItems_eq_some_iff (vs : List Value) : rereadItems vs = some vs ↔ arePortable vs = true := by
  cases vs with
  | nil => exact iff_of_true rfl rfl
  | cons v vs =>
    rw [arePortable, Bool.and_eq_true, ← reread_eq_some_iff v, ← rereadItems_eq_some_iff vs, rereadItems]
    cases reread v <;> cases rereadItems vs <;> simp

theorem rereadEntries_eq_some_iff (es : List (Value × Value)) :
    rereadEntries es = some es ↔ arePortableEntries es = true := by
  cases es with
  | nil => exact iff_of_true rfl rfl
  | cons e es =>
    obtain ⟨k, v⟩ := e
    rw [arePortableEntries, Bool.and_eq_true, Bool.and_eq_true, ← rereadKey_eq_some_iff k, ← reread_eq_some_iff v,
      ← rereadEntries_eq_some_iff es, rereadEntries]
    cases rereadKey k <;> cases reread v <;> cases rereadEntries es <;> simp

end

end Value

end RuleTree
