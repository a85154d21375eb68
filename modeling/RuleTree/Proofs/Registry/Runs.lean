import Mathlib.Data.List.Nodup
import RuleTree.Registry

/-!
# Registries over time

What any number of calls makes of a registry. One call registers the kinds in front of the first that is known or stands
twice in the call, with the builder of the call, and touches nothing else; so whatever a kind has been registered for, it
stays registered for.
-/

namespace RuleTree.Registry

variable {Builder : Type}

/-! ### Looking up -/

theorem get_eq_ok_iff_lookup {r : Registry Builder} {kind : String} {builder : Builder} :
    r.get kind = .ok builder ↔ r.entries.lookup kind = some builder := by
  unfold get
  cases r.entries.lookup kind with
  | none => simp
  | some b => simp

theorem lookup_isSome_iff {entries : List (String × Builder)} {kind : String} :
    (∃ builder, entries.lookup kind = some builder) ↔ kind ∈ entries.map Prod.fst := by
  induction entries with
  | nil => simp
  | cons e entries ih =>
    rw [List.lookup_cons, List.map_cons, List.mem_cons, ← ih]
    by_cases h : kind = e.1
    · simp [h]
    · simp [h, beq_false_of_ne h]

theorem exists_get_iff {r : Registry Builder} {kind : String} :
    (∃ builder, r.get kind = .ok builder) ↔ r.isRegistered kind = true := by
  rw [isRegistered_eq_true_iff, kinds, ← lookup_isSome_iff]
  simp only [get_eq_ok_iff_lookup]

theorem mem_list_iff {r : Registry Builder} {kind : String} : kind ∈ r.list ↔ r.isRegistered kind = true := by
  rw [isRegistered_eq_true_iff, list, (List.mergeSort_perm ..).mem_iff]

theorem list_nodup (r : Registry Builder) : r.list.Nodup := (List.mergeSort_perm ..).nodup_iff.mpr r.distinct

theorem list_sorted (r : Registry Builder) : r.list.Pairwise (· ≤ ·) := by
  have hsorted := @List.pairwise_mergeSort String (fun a b => decide (a ≤ b))
    (fun a b c hab hbc => decide_eq_true (String.le_trans (of_decide_eq_true hab) (of_decide_eq_true hbc)))
    (fun a b => by simpa using String.le_total a b) r.kinds
  exact hsorted.imp of_decide_eq_true

/-! ### One kind -/

theorem get_add {r : Registry Builder} {kind : String} {builder : Builder} (h : r.isRegistered kind = false) (k : String) :
    (r.add kind builder h).get k = if k = kind then .ok builder else r.get k := by
  rw [get, add, List.lookup_cons]
  by_cases hk : k = kind
  · simp [hk]
  · simp [hk, beq_false_of_ne hk, get]

theorem isRegistered_add {r : Registry Builder} {kind : String} {builder : Builder} (h : r.isRegistered kind = false)
    (k : String) : (r.add kind builder h).isRegistered k = true ↔ k = kind ∨ r.isRegistered k = true := by
  rw [isRegistered_eq_true_iff, isRegistered_eq_true_iff, kinds_add, List.mem_cons]

/-- Whether a registry has all that another one has. -/
def Extends (s r : Registry Builder) : Prop := ∀ k b, r.get k = .ok b → s.get k = .ok b

theorem Extends.refl (r : Registry Builder) : Extends r r := fun _ _ h => h

theorem Extends.trans {r s t : Registry Builder} (hts : Extends t s) (hsr : Extends s r) : Extends t r :=
  fun k b h => hts k b (hsr k b h)

theorem extends_add {r : Registry Builder} {kind : String} {builder : Builder} (h : r.isRegistered kind = false) :
    Extends (r.add kind builder h) r := by
  intro k b hk
  have hne : k ≠ kind := by
    rintro rfl
    rw [exists_get_iff.mp ⟨b, hk⟩] at h
    cases h
  rw [get_add, if_neg hne, hk]

/-! ### One call -/

/-- What a call adds: some kinds, new ones without repetitions, each with the builder of the call. -/
structure Adds (r : Registry Builder) (kinds : List String) (builder : Builder) (s : Registry Builder) : Prop where
  nodup : kinds.Nodup
  fresh : ∀ k ∈ kinds, r.isRegistered k = false
  get : ∀ k, s.get k = if k ∈ kinds then .ok builder else r.get k

theorem Adds.nil (r : Registry Builder) (builder : Builder) : Adds r [] builder r :=
  ⟨.nil, List.forall_mem_nil _, fun k => by simp⟩

theorem Adds.cons {r s : Registry Builder} {kind : String} {kinds : List String} {builder : Builder}
    (h : r.isRegistered kind = false) (hs : Adds (r.add kind builder h) kinds builder s) : Adds r (kind :: kinds) builder s where
  nodup := by
    refine List.nodup_cons.mpr ⟨fun hmem => ?_, hs.nodup⟩
    have hnew := hs.fresh kind hmem
    rw [(isRegistered_add h kind).mpr (.inl rfl)] at hnew
    cases hnew
  fresh := by
    refine List.forall_mem_cons.mpr ⟨h, fun k hk => ?_⟩
    rw [← Bool.not_eq_true]
    intro hr
    have hnew := hs.fresh k hk
    rw [(isRegistered_add h k).mpr (.inr hr)] at hnew
    cases hnew
  get := by
    intro k
    rw [hs.get, get_add]
    by_cases hk : k ∈ kinds
    · simp [hk]
    · simp [hk]

theorem Adds.isRegistered_iff {r s : Registry Builder} {kinds : List String} {builder : Builder}
    (h : Adds r kinds builder s) (k : String) : s.isRegistered k = true ↔ r.isRegistered k = true ∨ k ∈ kinds := by
  rw [← exists_get_iff, ← exists_get_iff, h.get]
  by_cases hk : k ∈ kinds
  · simp [hk]
  · simp [hk]

/-- Whether a kind cannot be registered behind others of the same call. -/
def Taken (r : Registry Builder) (before : List String) (kind : String) : Prop :=
  r.isRegistered kind = true ∨ kind ∈ before

/-- A call adds all its kinds, or those in front of the first that is taken, which it tells. -/
theorem register_cases (r : Registry Builder) (kinds : List String) (builder : Builder) :
    ((r.register kinds builder).2 = none ∧ Adds r kinds builder (r.register kinds builder).1) ∨
      ∃ before kind after, kinds = before ++ kind :: after ∧ (r.register kinds builder).2 = some kind ∧
        Taken r before kind ∧ Adds r before builder (r.register kinds builder).1 := by
  induction kinds generalizing r with
  | nil => exact .inl ⟨rfl, .nil r builder⟩
  | cons k ks ih =>
    rw [register]
    split
    · next h =>
      obtain ⟨hnone, hadds⟩ | ⟨before, kind, after, rfl, hsome, htaken, hadds⟩ := ih (r.add k builder h)
      · exact .inl ⟨hnone, hadds.cons h⟩
      · refine .inr ⟨k :: before, kind, after, rfl, hsome, ?_, hadds.cons h⟩
        rw [Taken, isRegistered_add] at htaken
        rw [Taken, List.mem_cons]
        tauto
    · next h =>
      exact .inr ⟨[], k, ks, rfl, rfl, .inl (by simpa using h), .nil r builder⟩

/-- A call extends the registry, whether it fails or not. -/
theorem extends_register (r : Registry Builder) (kinds : List String) (builder : Builder) :
    Extends (r.register kinds builder).1 r := by
  induction kinds generalizing r with
  | nil => exact .refl r
  | cons k ks ih =>
    rw [register]
    split
    · next h => exact (ih _).trans (extends_add h)
    · exact .refl r

/-- A call fails exactly if one of its kinds is taken. -/
theorem register_eq_none_iff (r : Registry Builder) (kinds : List String) (builder : Builder) :
    (r.register kinds builder).2 = none ↔
      ¬∃ before kind after, kinds = before ++ kind :: after ∧ Taken r before kind := by
  obtain ⟨hnone, hadds⟩ | ⟨before, kind, after, hkinds, hsome, htaken, -⟩ := register_cases r kinds builder
  · refine iff_of_true hnone ?_
    rintro ⟨before, kind, after, rfl, hr | hmem⟩
    · have hfresh := hadds.fresh kind (by simp)
      rw [hr] at hfresh
      cases hfresh
    · exact (List.nodup_append.mp hadds.nodup).2.2 kind hmem kind (by simp) rfl
  · rw [hsome]
    exact iff_of_false (by simp) (not_not_intro ⟨before, kind, after, hkinds, htaken⟩)

/-! ### Runs -/

/-- A call: some kinds for a builder. -/
structure Call (Builder : Type) where
  kinds : List String
  builder : Builder

/-- The registry after some calls. Those that fail leave what they have registered. -/
def after (r : Registry Builder) (calls : List (Call Builder)) : Registry Builder :=
  calls.foldl (fun s c => (s.register c.kinds c.builder).1) r

theorem after_append (r : Registry Builder) (before later : List (Call Builder)) :
    r.after (before ++ later) = (r.after before).after later := List.foldl_append

theorem extends_after (r : Registry Builder) (calls : List (Call Builder)) : Extends (r.after calls) r := by
  induction calls generalizing r with
  | nil => exact .refl r
  | cons c calls ih => exact (ih _).trans (extends_register r c.kinds c.builder)

/-- At every moment of a run, whatever came before and comes later: what is registered keeps its builder; the next call adds
all its kinds with its builder, or it fails, exactly if one of them is taken, and adds those in front of the first such kind;
and the three ways to ask for a kind agree. -/
theorem runs_accumulate (r : Registry Builder) (before later : List (Call Builder)) (c : Call Builder) :
    let s := r.after before
    let t := r.after (before ++ [c])
    let failure := (s.register c.kinds c.builder).2
    t = (s.register c.kinds c.builder).1 ∧
    (∀ k b, s.get k = .ok b → (s.after later).get k = .ok b) ∧
    (∀ k, s.isRegistered k = false → t.isRegistered k = true → t.get k = .ok c.builder) ∧
    (failure = none → ∀ k, t.isRegistered k = true ↔ s.isRegistered k = true ∨ k ∈ c.kinds) ∧
    (∀ k, failure = some k → ∃ front rest, c.kinds = front ++ k :: rest ∧ Taken s front k ∧
      (∀ front' j rest', front = front' ++ j :: rest' → ¬Taken s front' j) ∧
      ∀ j, t.isRegistered j = true ↔ s.isRegistered j = true ∨ j ∈ front) ∧
    (failure = none ↔ ¬∃ front k rest, c.kinds = front ++ k :: rest ∧ Taken s front k) ∧
    (∀ k, ((∃ b, s.get k = .ok b) ↔ s.isRegistered k = true) ∧ (s.isRegistered k = true ↔ k ∈ s.list)) ∧
    s.list.Pairwise (· ≤ ·) ∧ s.list.Nodup := by
  intro s t failure
  have ht : t = (s.register c.kinds c.builder).1 := after_append r before [c]
  have hnone := register_eq_none_iff s c.kinds c.builder
  refine ⟨ht, extends_after s later, ?_, ?_, ?_, hnone, fun k => ⟨exists_get_iff, mem_list_iff.symm⟩, list_sorted s,
    list_nodup s⟩
  · intro k hs hk
    obtain ⟨front, hadds⟩ : ∃ front, Adds s front c.builder t := by
      rw [ht]
      obtain ⟨-, hadds⟩ | ⟨front, _, _, -, -, -, hadds⟩ := register_cases s c.kinds c.builder
      · exact ⟨_, hadds⟩
      · exact ⟨_, hadds⟩
    have hmem : k ∈ front := ((hadds.isRegistered_iff k).mp hk).resolve_left (by simp [hs])
    rw [hadds.get, if_pos hmem]
  · intro hfailure
    obtain ⟨-, hadds⟩ | ⟨_, _, _, -, hsome, -⟩ := register_cases s c.kinds c.builder
    · exact ht ▸ hadds.isRegistered_iff
    · cases hfailure.symm.trans hsome
  · intro k hfailure
    obtain ⟨hsuccess, -⟩ | ⟨front, kind, rest, hkinds, hsome, htaken, hadds⟩ := register_cases s c.kinds c.builder
    · cases hsuccess.symm.trans hfailure
    · obtain rfl : kind = k := Option.some.inj (hsome.symm.trans hfailure)
      refine ⟨front, rest, hkinds, htaken, ?_, ht ▸ hadds.isRegistered_iff⟩
      -- What the call has added was not taken where it stood.
      rintro front' j rest' rfl (hr | hmem)
      · have hfresh := hadds.fresh j (by simp)
        rw [hr] at hfresh
        cases hfresh
      · exact (List.nodup_append.mp hadds.nodup).2.2 j hmem j (by simp) rfl

end RuleTree.Registry
