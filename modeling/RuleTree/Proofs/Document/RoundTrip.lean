import RuleTree.Proofs.Document.Fields
import RuleTree.Proofs.Rule.Fields
import RuleTree.Proofs.Rule.Grammar

/-!
# Documents of well formed trees

A well formed tree has a document, and the document is read without fault.
-/

namespace RuleTree.Document

open Validator (IsMessage)

/-! ### Rules with readable fields -/

/-- A leaf of some kind; an expression is a text. -/
def ReadableCheck : Check → Prop
  | .pattern regex => ∃ s, regex = .str s
  | .kindless _ _ => False
  | _ => True

/-- A group of some kind, with a name or a message that documents can hold. -/
def ReadableGroup : Group → Prop
  | .prop name => name.IsName
  | .required message => IsMessage message
  | .kindless _ => False
  | _ => True

theorem kind_of_readableCheck {c : Check} (h : ReadableCheck c) : ∃ k, c.kind? = some k := by
  cases c with
  | kindless name v => exact h.elim
  | _ => exact ⟨_, rfl⟩

theorem kind_of_readableGroup {g : Group} (h : ReadableGroup g) : ∃ k, g.kind? = some k := by
  cases g with
  | kindless name => exact h.elim
  | _ => exact ⟨_, rfl⟩

section Fields

variable {k : RuleKind} {rest : List (String × Value)}

theorem read_entriesOf {rules : List Tree} (hknown : ∀ f ∈ rest, f.1 ∈ fieldsOf k)
    (htyped : ∀ f ∈ rest, ∀ g ∈ typedFields, g.name = f.1 → g.holds f.2 = true)
    (hrules : readRules k (entriesOf (kindField (some k) :: rest)) = .ok rules) :
    read (Value.ofFields (kindField (some k) :: rest)) =
      .ok (treeOf k (fun name => ((kindField (some k) :: rest).lookup name).getD .null) rules) := by
  rw [ofFields_eq, read]
  simp only [wellFormedKind_entriesOf hknown htyped, hrules, property_entriesOf]
  rfl

/-! ### Leaves -/

theorem read_check {c : Check} {m : Value} (hc : ReadableCheck c) (hm : IsMessage m) :
    read (Value.ofFields (kindField c.kind? :: messageField m ++ checkFields c)) = .ok (.check c.reread (written m)) := by
  obtain ⟨k, hk⟩ := kind_of_readableCheck hc
  have hknown : ∀ f ∈ messageField m ++ checkFields c, f.1 ∈ fieldsOf k := by
    rcases hm with rfl | ⟨s, rfl⟩
    · cases c <;> cases hk <;> simp [messageField, checkFields, fieldsOf]
    · cases c <;> cases hk <;> simp [messageField, checkFields, fieldsOf]
  have htyped : ∀ f ∈ messageField m ++ checkFields c, ∀ g ∈ typedFields, g.name = f.1 → g.holds f.2 = true := by
    rcases hm with rfl | ⟨s, rfl⟩
    · cases c with
      | pattern regex =>
        obtain ⟨r, rfl⟩ := hc
        simp [messageField, checkFields, typedFields, written, isText]
      | kindless name v => cases hk
      | _ => simp [messageField, checkFields, typedFields]
    · cases c with
      | pattern regex =>
        obtain ⟨r, rfl⟩ := hc
        simp [messageField, checkFields, typedFields, written, isText, isTextOrNull]
      | kindless name v => cases hk
      | _ => simp [messageField, checkFields, typedFields, written, isTextOrNull]
  have hrules : readRules k (entriesOf (kindField (some k) :: (messageField m ++ checkFields c))) = .ok [] := by
    refine readRules_of_not_mem fun f hf => ?_
    intro hname
    rcases List.mem_cons.mp hf with rfl | hf
    · exact absurd hname (by simp [kindField])
    · have hfield := hknown f hf
      rw [hname] at hfield
      cases c <;> cases hk <;> simp [fieldsOf] at hfield
  rw [hk, List.cons_append, read_entriesOf hknown htyped hrules]
  rcases hm with rfl | ⟨s, rfl⟩
  · cases c <;> cases hk <;>
      simp [treeOf, messageField, checkFields, kindField, Check.reread, List.lookup_cons, written]
  · cases c <;> cases hk <;>
      simp [treeOf, messageField, checkFields, kindField, Check.reread, List.lookup_cons, written]

/-! ### Groups -/

theorem read_groupDocument {g : Group} {items : List Value} {rules : List Tree} (hk : g.kind? = some k)
    (htyped : ∀ f ∈ groupFields g, ∀ h ∈ typedFields, h.name = f.1 → h.holds f.2 = true)
    (hitems : ∀ k, readItems k 1 items = .ok rules) :
    read (groupDocument g items) = .ok (.group g.reread .fixed rules) := by
  have hknown : ∀ f ∈ ("rules", .list items) :: groupFields g, f.1 ∈ fieldsOf k := by
    cases g with
    | required m =>
      cases hk
      cases m <;> simp [groupFields, messageField, fieldsOf]
    | kindless name => cases hk
    | _ =>
      cases hk
      simp [groupFields, fieldsOf]
  have htyped' : ∀ f ∈ ("rules", .list items) :: groupFields g, ∀ h ∈ typedFields, h.name = f.1 → h.holds f.2 = true := by
    refine List.forall_mem_cons.mpr ⟨?_, htyped⟩
    simp [typedFields, isList]
  have hrules : readRules k (entriesOf (kindField (some k) :: ("rules", .list items) :: groupFields g)) = .ok rules := by
    rw [readRules_entriesOf, hitems k]
  rw [groupDocument, hk, read_entriesOf hknown htyped' hrules]
  cases g with
  | required m =>
    cases hk
    cases m <;> simp [treeOf, groupFields, messageField, kindField, Group.reread, List.lookup_cons, written]
  | kindless name => cases hk
  | _ =>
    cases hk
    simp [treeOf, groupFields, kindField, Group.reread, List.lookup_cons]

theorem read_group {g : Group} {items : List Value} {rules : List Tree} (hg : ReadableGroup g)
    (hitems : ∀ k, readItems k 1 items = .ok rules) :
    read (groupDocument g items) = .ok (.group g.reread .fixed rules) := by
  obtain ⟨k, hk⟩ := kind_of_readableGroup hg
  refine read_groupDocument hk ?_ hitems
  cases g with
  | required m =>
    rcases hg with rfl | ⟨s, rfl⟩
    · simp [groupFields, messageField]
    · simp [groupFields, messageField, typedFields, written, isTextOrNull]
  | prop name =>
    rcases hg with ⟨s, rfl, -⟩ | ⟨i, rfl⟩
    · simp [groupFields, typedFields, written, isName]
    · simp [groupFields, typedFields, written, isName]
  | _ => simp [groupFields]

end Fields

/-! ### Trees -/

/-- A tree has a document, and the document is read as the tree with dates as texts and fixed rows. -/
def RoundTrips (t : Tree) : Prop := ∃ d, write t = .ok d ∧ read d = .ok t.reread

theorem roundTrips_row {ts : List Tree} (h : ∀ t ∈ ts, RoundTrips t) :
    ∃ ds, writeItems ts = .ok ds ∧ ∀ k i, readItems k i ds = .ok (ts.map Tree.reread) := by
  induction ts with
  | nil => exact ⟨[], rfl, fun _ _ => rfl⟩
  | cons t ts ih =>
    obtain ⟨d, hwrite, hread⟩ := h t List.mem_cons_self
    obtain ⟨ds, hwrites, hreads⟩ := ih fun s hs => h s (List.mem_cons_of_mem _ hs)
    refine ⟨d :: ds, ?_, fun k i => ?_⟩
    · rw [writeItems, hwrite, hwrites]
      rfl
    · rw [readItems, hread, hreads]
      rfl

theorem roundTrips_check {c : Check} {m : Value} (hc : ReadableCheck c) (hm : IsMessage m) : RoundTrips (.check c m) :=
  ⟨_, rfl, read_check hc hm⟩

theorem roundTrips_group {P : Row → Prop} {g : Group} {t : Tree} {ts : List Tree} (h : t.Comprises g ts)
    (hrows : t.EveryRow P) (hg : ReadableGroup g) (hts : ∀ s ∈ ts, RoundTrips s) : RoundTrips t := by
  cases h with
  | group row =>
    obtain ⟨ds, hwrites, hreads⟩ := roundTrips_row hts
    refine ⟨groupDocument g ds, ?_, ?_⟩
    · rw [write, hwrites]
      rfl
    · rw [read_group hg fun k => hreads k 1, Tree.reread, Tree.rereadRow_eq_map]
  | unlisted => exact hrows.elim

theorem everyRow_of_comprises {P : Row → Prop} {g : Group} {t : Tree} {ts : List Tree} (h : t.Comprises g ts)
    (hrows : t.EveryRow P) : ∀ s ∈ ts, s.EveryRow P := by
  cases h with
  | group row => exact Tree.everyRows_iff.mp hrows.2
  | unlisted => exact hrows.elim

theorem roundTrips_of_mismatchOnce {ts : List Tree} (hm : Tree.MismatchOnce ts)
    (hts : ∀ s ∈ Tree.proper ts, RoundTrips s) : ∀ s ∈ ts, RoundTrips s := by
  intro s hs
  rcases Tree.proper_or_mismatch_of_mem hs with hs | ⟨m, hmem, rfl⟩
  · exact hts s hs
  · exact roundTrips_check trivial (hm.2 m hmem)

theorem roundTrips_of_wellFormed [Text.CharacterNames] {P : Row → Prop} {place : Position} {t : Tree} (h : t.WellFormed place)
    (hrows : t.EveryRow P) : RoundTrips t := by
  induction h with
  | required h hm _ _ ih =>
    exact roundTrips_group h hrows hm fun s hs => ih s hs (everyRow_of_comprises h hrows s hs)
  | wrapped _ ih => exact ih hrows
  | union h hm _ _ _ ih =>
    have hproper : ∀ s ∈ Tree.proper _, RoundTrips s := fun s hs =>
      ih s hs (everyRow_of_comprises h hrows s (Tree.mem_proper.mp hs).1)
    exact roundTrips_group h hrows trivial (roundTrips_of_mismatchOnce hm hproper)
  | branch _ ih => exact ih hrows
  | container h hm _ _ ih =>
    have hproper : ∀ s ∈ Tree.proper _, RoundTrips s := fun s hs =>
      ih s hs (everyRow_of_comprises h hrows s (Tree.mem_proper.mp hs).1)
    exact roundTrips_group h hrows trivial (roundTrips_of_mismatchOnce hm hproper)
  | any h _ _ _ _ ih =>
    exact roundTrips_group h hrows trivial fun s hs => ih s hs (everyRow_of_comprises h hrows s hs)
  | prop h hname _ ih =>
    refine roundTrips_group h hrows hname ?_
    intro s hs
    obtain rfl := List.mem_singleton.mp hs
    exact ih (everyRow_of_comprises h hrows _ hs)
  | item h _ ih =>
    refine roundTrips_group h hrows trivial ?_
    intro s hs
    obtain rfl := List.mem_singleton.mp hs
    exact ih (everyRow_of_comprises h hrows _ hs)
  | @check p c m hc hm =>
    refine roundTrips_check ?_ hm
    cases c with
    | pattern regex =>
      obtain ⟨literal, _, hliteral, -⟩ := hc
      exact ⟨literal, hliteral⟩
    | kindless name v => exact hc.elim
    | _ => exact trivial

end RuleTree.Document
