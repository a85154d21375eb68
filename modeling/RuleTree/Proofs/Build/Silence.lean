import RuleTree.Proofs.Build.Nodes
import RuleTree.Proofs.Rule.Grammar
import RuleTree.Proofs.Validator.Agreement
import RuleTree.Rule.Build
import RuleTree.Text.CommonNames

/-!
# Trees without messages

A tree keeps its meaning if all its messages are taken away, and with them the mismatch rules, which are nothing but messages.
What is left has a validator whenever the tree has one, and it decides every value alike.
-/

namespace RuleTree

/-! ### Silent trees -/

def Group.silent : Group → Group
  | .required _ => .required .null
  | g => g

namespace Tree

mutual

/-- A tree without its messages and mismatch rules. -/
def silent : Tree → Tree
  | .stray v => .stray v
  | .check c _ => .check c .null
  | .group g row ts => .group g.silent row (silentRow ts)
  | .unlisted g rules => .unlisted g.silent rules

def silentRow : List Tree → List Tree
  | [] => []
  | t :: ts => if t.isMismatch then silentRow ts else t.silent :: silentRow ts

end

theorem silentRow_eq_map (ts : List Tree) : silentRow ts = (proper ts).map silent := by
  induction ts with
  | nil => rfl
  | cons t ts ih =>
    rw [silentRow]
    cases hm : t.isMismatch with
    | true =>
      obtain ⟨m, rfl⟩ := eq_mismatch_of_isMismatch hm
      rw [if_pos rfl, ih, proper_mismatch]
    | false => rw [if_neg Bool.false_ne_true, ih, proper_cons hm, List.map_cons]

theorem kind?_silent (t : Tree) : t.silent.kind? = t.kind? := by
  cases t with
  | stray v => rfl
  | check c m => rfl
  | group g row ts => cases g <;> rfl
  | unlisted g rules => cases g <;> rfl

theorem isMismatch_silent (t : Tree) : t.silent.isMismatch = t.isMismatch := by
  cases t with
  | check c m => cases c <;> rfl
  | _ => rfl

theorem comprises_silent {g : Group} {t : Tree} {ts : List Tree} (h : t.Comprises g ts) :
    t.silent.Comprises g.silent ((proper ts).map silent) := by
  cases h with
  | group row =>
    rw [silent, silentRow_eq_map]
    apply Comprises.group
  | unlisted => exact .unlisted g.silent

theorem mismatches_silent (ts : List Tree) : mismatches ((proper ts).map silent) = [] := by
  rw [mismatches, List.filterMap_eq_nil_iff]
  intro s hs
  obtain ⟨t, ht, rfl⟩ := List.mem_map.mp hs
  rw [← isMismatch_eq_false_iff, isMismatch_silent]
  exact (mem_proper.mp ht).2

theorem proper_silent (ts : List Tree) : proper ((proper ts).map silent) = (proper ts).map silent :=
  proper_eq_self (mismatches_silent ts)

end Tree

namespace Validator

/-! ### Leaves -/

section Leaves

variable {p : Primitive} {m : Value} {c : Validator}

theorem isMessage_null : IsMessage .null := .inl rfl

theorem ofEqual_silent {v : Value} (h : ofEqual v m (some (.container p)) = .ok c) :
    ∃ d, ofEqual v .null (some (.container p)) = .ok d ∧ DecidesAlike c d := by
  by_cases hp : p = .date
  · subst hp
    obtain ⟨stamp, hs, -, rfl⟩ := ofEqual_date_eq_ok_iff.mp h
    exact ⟨_, ofEqual_date_eq_ok_iff.mpr ⟨stamp, hs, isMessage_null, rfl⟩, fun _ => alike_demand _ _ _ _⟩
  · obtain ⟨hk, hn, hw, -, rfl⟩ := (ofEqual_eq_ok_iff hp).mp h
    exact ⟨_, (ofEqual_eq_ok_iff hp).mpr ⟨hk, hn, hw, isMessage_null, rfl⟩, fun _ => alike_demand _ _ _ _⟩

variable [Text.CharacterNames]

/-- A message is the last thing a leaf looks at, and all it does is to replace the words of a rejection. -/
theorem ofCheck_silent {k : Check} (h : ofCheck k m (some (.container p)) = .ok c) :
    ∃ d, ofCheck k .null (some (.container p)) = .ok d ∧ DecidesAlike c d := by
  cases k with
  | equal v => exact ofEqual_silent h
  | bound b v =>
    obtain ⟨limit, subject, hl, hs, -, rfl⟩ := ofBound_eq_ok_iff.mp h
    exact ⟨_, ofBound_eq_ok_iff.mpr ⟨limit, subject, hl, hs, isMessage_null, rfl⟩, fun _ => alike_demand _ _ _ _⟩
  | range min max =>
    obtain ⟨low, high, hl, hh, hlt, -, rfl⟩ := ofRange_eq_ok_iff.mp h
    exact ⟨_, ofRange_eq_ok_iff.mpr ⟨low, high, hl, hh, hlt, isMessage_null, rfl⟩, fun _ => alike_demand _ _ _ _⟩
  | pattern regex =>
    obtain ⟨literal, q, hs, hq, -, rfl⟩ := ofPattern_eq_ok_iff.mp h
    exact ⟨_, ofPattern_eq_ok_iff.mpr ⟨literal, q, hs, hq, isMessage_null, rfl⟩, fun _ => alike_demand _ _ _ _⟩
  | dateBound b v =>
    obtain ⟨stamp, hs, -, rfl⟩ := ofDateBound_eq_ok_iff.mp h
    exact ⟨_, ofDateBound_eq_ok_iff.mpr ⟨stamp, hs, isMessage_null, rfl⟩, fun _ => alike_demand _ _ _ _⟩
  | between first last =>
    obtain ⟨begins, ends, hb, he, hlt, -, rfl⟩ := ofBetween_eq_ok_iff.mp h
    exact ⟨_, ofBetween_eq_ok_iff.mpr ⟨begins, ends, hb, he, hlt, isMessage_null, rfl⟩,
      fun _ => alike_demand _ _ _ _⟩
  | mismatch => exact absurd h fault_ne_ok
  | kindless name v => exact absurd h fault_ne_ok

end Leaves

/-! ### Trees -/

section Trees

variable {t : Tree} {ts : List Tree}

variable [Text.CharacterNames]

/-- Wherever a tree has a validator, so has its silent form, and the two decide alike. -/
def Silences (t : Tree) : Prop :=
  ∀ {allowed : List RuleKind} {parent : Option RuleKind} {c : Validator} {place : Position},
    ofNode allowed parent t = .ok c → place.Governs allowed parent →
      ∃ d, ofNode allowed parent t.silent = .ok d ∧ DecidesAlike c d

theorem silences_check (k : Check) (m : Value) : Silences (.check k m) := by
  intro allowed parent c place hc hplace
  obtain ⟨⟨j, ha, hk⟩, hd⟩ := ofNode_check_eq_ok_iff.mp hc
  -- A leaf stands in a container: only there are its kinds allowed.
  obtain ⟨p, rfl⟩ := Position.exists_inside (hplace.1 j ha) (RuleKind.not_mem_bindable_of_check hk)
  obtain rfl := hplace.2 p rfl
  obtain ⟨d, hsilent, hagree⟩ := ofCheck_silent hd
  exact ⟨d, ofNode_check_eq_ok_iff.mpr ⟨⟨j, ha, hk⟩, hsilent⟩, hagree⟩

theorem silences_row {allowed : List RuleKind} {parent : Option RuleKind} {place : Position} {cs : List Validator}
    (hplace : place.Governs allowed parent) (ih : ∀ s ∈ ts, Silences s)
    (h : List.Forall₂ (fun s c => ofNode allowed parent s = .ok c) ts cs) :
    ∃ ds, List.Forall₂ (fun s d => ofNode allowed parent s = .ok d) (ts.map Tree.silent) ds ∧
      List.Forall₂ DecidesAlike cs ds := by
  simp only [List.forall₂_map_left_iff]
  apply exists_forall₂_of_forall₂ h
  intro s hs c hc
  exact ih s hs hc hplace

theorem silences_container {p : Primitive} (h : t.Comprises (.container p) ts) (ih : ∀ s ∈ ts, Silences s) :
    Silences t := by
  intro allowed parent c place hc _
  obtain ⟨ha, cs, message, hts, -, rfl⟩ := (ofNode_container_eq_ok_iff h).mp hc
  have hinside : (Position.inside p).Governs (RuleKind.childrenOf p) (some (.container p)) :=
    Position.governs_inside fun _ hk => hk
  obtain ⟨ds, hbuilt, hagree⟩ := silences_row hinside (fun s hs => ih s (Tree.mem_proper.mp hs).1) hts
  refine ⟨.container p ds none, ?_, DecidesAlike.container p message none hagree⟩
  rw [ofNode_container_eq_ok_iff (Tree.comprises_silent h), Tree.proper_silent, Tree.mismatches_silent]
  exact ⟨ha, ds, none, hbuilt, rfl, rfl⟩

theorem silences_union (h : t.Comprises .union ts) (ih : ∀ s ∈ ts, Silences s) : Silences t := by
  intro allowed parent c place hc _
  obtain ⟨ha, bs, message, hts, hnodup, -, hlen, rfl⟩ := (ofNode_union_eq_ok_iff h).mp hc
  obtain ⟨es, hbuilt, hagree⟩ : ∃ es, List.Forall₂ (fun s e => BuildsBranch (Tree.silent s) e) (Tree.proper ts) es ∧
      List.Forall₂ BranchAlike bs es := by
    apply exists_forall₂_of_forall₂ hts
    intro s hs b hb
    obtain ⟨d, hsilent, hagree⟩ := ih s (Tree.mem_proper.mp hs).1 hb.2 Position.governs_branch
    have hkind : s.silent.kind? = some (.container b.1) := by rw [Tree.kind?_silent, hb.1]
    exact ⟨(b.1, d), ⟨hkind, hsilent⟩, rfl, hagree⟩
  refine ⟨.union es none, ?_, DecidesAlike.union message none hagree⟩
  rw [kinds_of_forall₂_branchAlike hagree] at hnodup
  rw [hagree.length_eq] at hlen
  rw [ofNode_union_eq_ok_iff (Tree.comprises_silent h), Tree.proper_silent, Tree.mismatches_silent]
  exact ⟨ha, es, none, List.forall₂_map_left_iff.mpr hbuilt, hnodup, rfl, hlen, rfl⟩

theorem silences_any (h : t.Comprises .any ts) (ih : ∀ s ∈ ts, Silences s) : Silences t := by
  intro allowed parent c place hc _
  obtain ⟨ha, p, cs, rfl, hp, hms, hts, hlen, rfl⟩ := (ofNode_any_eq_ok_iff h).mp hc
  have hinside : (Position.inside p).Governs (RuleKind.alternativesOf p) (some (.container p)) :=
    Position.governs_inside fun _ hk => RuleKind.alternatives_children hk
  obtain ⟨ds, hbuilt, hagree⟩ := silences_row hinside ih hts
  refine ⟨.any ds, ?_, DecidesAlike.any hagree⟩
  rw [hagree.length_eq] at hlen
  have hsilent := Tree.comprises_silent h
  have hnone := Tree.mismatches_silent ts
  rw [Tree.proper_eq_self hms] at hsilent hnone
  exact (ofNode_any_eq_ok_iff hsilent).mpr ⟨ha, p, ds, rfl, hp, hnone, hbuilt, hlen, rfl⟩

/-- What may be bound or wrapped is no mismatch rule, so an only child is still there when messages are gone. -/
theorem comprises_silent_only {g : Group} {s : Tree} {allowed : List RuleKind} {parent : Option RuleKind} {c : Validator}
    (h : t.Comprises g [s]) (hallowed : ∀ k ∈ allowed, k ∈ RuleKind.bindable)
    (hs : ofNode allowed parent s = .ok c) : t.silent.Comprises g.silent [s.silent] := by
  obtain ⟨k, ha, hk⟩ := kind?_of_ofNode_eq_ok hs
  have hmismatch : k ≠ .mismatch := by
    intro heq
    subst heq
    exact absurd (hallowed _ ha) (RuleKind.not_mem_bindable_of_check (c := .mismatch) rfl)
  have hproper : Tree.proper [s] = [s] := Tree.proper_cons (Tree.isMismatch_eq_false_of_kind? hk hmismatch) []
  have hsilent := Tree.comprises_silent h
  rwa [hproper] at hsilent

theorem silences_prop {name : Value} (h : t.Comprises (.prop name) ts) (ih : ∀ s ∈ ts, Silences s) : Silences t := by
  intro allowed parent c place hc _
  obtain ⟨ha, s, key, inner, rfl, hkey, hs, rfl⟩ := (ofNode_prop_eq_ok_iff h).mp hc
  obtain ⟨d, hsilent, hagree⟩ := ih s List.mem_cons_self hs Position.governs_value
  have honly := comprises_silent_only h (fun _ hk => hk) hs
  exact ⟨.prop key d, (ofNode_prop_eq_ok_iff honly).mpr ⟨ha, s.silent, key, d, rfl, hkey, hsilent, rfl⟩,
    DecidesAlike.prop key hagree⟩

theorem silences_item (h : t.Comprises .item ts) (ih : ∀ s ∈ ts, Silences s) : Silences t := by
  intro allowed parent c place hc _
  obtain ⟨ha, s, inner, rfl, hs, rfl⟩ := (ofNode_item_eq_ok_iff h).mp hc
  obtain ⟨d, hsilent, hagree⟩ := ih s List.mem_cons_self hs Position.governs_value
  have honly := comprises_silent_only h (fun _ hk => hk) hs
  exact ⟨.item d, (ofNode_item_eq_ok_iff honly).mpr ⟨ha, s.silent, d, rfl, hsilent, rfl⟩, DecidesAlike.item hagree⟩

theorem silences_required {m : Value} (h : t.Comprises (.required m) ts) (ih : ∀ s ∈ ts, Silences s) :
    Silences t := by
  intro allowed parent c place hc _
  obtain ⟨ha, -, hts⟩ := (ofNode_required_eq_ok_iff h).mp hc
  rcases hts with ⟨rfl, rfl⟩ | ⟨s, inner, rfl, hs, rfl⟩
  · refine ⟨.required none none, ?_, DecidesAlike.required_none _ none⟩
    exact (ofNode_required_eq_ok_iff (Tree.comprises_silent h)).mpr ⟨ha, isMessage_null, .inl ⟨rfl, rfl⟩⟩
  · obtain ⟨d, hsilent, hagree⟩ := ih s List.mem_cons_self hs Position.governs_wrapped
    have honly := comprises_silent_only h (fun _ hk => RuleKind.wrappable_bindable hk) hs
    refine ⟨.required (some d) none, ?_, DecidesAlike.required_some _ none hagree⟩
    exact (ofNode_required_eq_ok_iff honly).mpr ⟨ha, isMessage_null, .inr ⟨s.silent, d, rfl, hsilent, rfl⟩⟩

theorem silences (t : Tree) : Silences t := by
  induction t using built_induct with
  | faulty t h => exact fun hc => absurd hc (h _ _ _)
  | check k m => exact silences_check k m
  | any t ts h ih => exact silences_any h ih
  | union t ts h ih => exact silences_union h ih
  | container p t ts h ih => exact silences_container h ih
  | prop name t ts h ih => exact silences_prop h ih
  | item t ts h ih => exact silences_item h ih
  | required m t ts h ih => exact silences_required h ih

end Trees

/-- Messages have no part in a decision. -/
theorem decides_alike_without_messages [Text.CharacterNames] {t : Tree} {c : Validator} (h : ofTree t = .ok c) :
    ∃ c₀, ofTree t.silent = .ok c₀ ∧ ∀ v, Alike (c.run v) (c₀.run v) :=
  silences t h Position.governs_value

open Text.CommonNames

/-- A union of texts and rows, worded throughout. -/
theorem decides_alike_without_messages_worded :
    ∃ (t : Tree) (c c₀ : Validator),
      t = .union [
        .container .string [.bound .min (.number (.int 2)) (.str "too short"), .mismatch (.str "no text")],
        .container .array [.mismatch (.str "no row"), .item [.required [.container .number []] (.str "a gap")]],
        .mismatch (.str "neither text nor row")] ∧
      t.silent = .union [.container .string [.bound .min (.number (.int 2))],
        .container .array [.item [.required [.container .number []]]]] ∧
      ofTree t = .ok c ∧ ofTree t.silent = .ok c₀ ∧ ∀ v, Alike (c.run v) (c₀.run v) := by
  let t : Tree := .union [
    .container .string [.bound .min (.number (.int 2)) (.str "too short"), .mismatch (.str "no text")],
    .container .array [.mismatch (.str "no row"), .item [.required [.container .number []] (.str "a gap")]],
    .mismatch (.str "neither text nor row")]
  obtain ⟨c, hc⟩ : ∃ c, ofTree t = .ok c := ⟨_, rfl⟩
  obtain ⟨c₀, hsilent, halike⟩ := decides_alike_without_messages hc
  exact ⟨t, c, c₀, rfl, rfl, hc, hsilent, halike⟩

end Validator

end RuleTree
