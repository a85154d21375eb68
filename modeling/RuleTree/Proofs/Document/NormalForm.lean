import RuleTree.Proofs.Document.Language
import RuleTree.Proofs.Document.RoundTrip

/-!
# Normal forms of documents

The document that writes a tree which was itself read from a document. It is read again unless a pattern without an
expression or a property without a name is in it: writing puts a null where the field was left out, and no document may have
a null there. What is read again has the same normal form.
-/

namespace RuleTree

open Validator (IsMessage)

/-! ### Trees that documents write -/

/-- A leaf as documents hold it. An absent expression is null. -/
def Check.Documented : Check → Prop
  | .pattern regex => regex = .null ∨ ∃ s, regex = .str s
  | .kindless _ _ => False
  | _ => True

/-- A group as documents hold it. An absent name is null. -/
def Group.Documented : Group → Prop
  | .prop name => name = .null ∨ Document.Allows "name" name
  | .required message => IsMessage message
  | .kindless _ => False
  | _ => True

namespace Tree

inductive Documented : Tree → Prop
  | check {c : Check} {m : Value} (hc : c.Documented) (hm : IsMessage m) : Documented (.check c m)
  | group {g : Group} {ts : List Tree} (hg : g.Documented) (hts : ∀ t ∈ ts, Documented t) :
      Documented (.group g .fixed ts)

/-- Somewhere in a tree a pattern has no expression or a property has no name. -/
inductive Lacking : Tree → Prop
  | expression (m : Value) : Lacking (.check (.pattern .null) m)
  | name (row : Row) (ts : List Tree) : Lacking (.group (.prop .null) row ts)
  | inside {g : Group} {row : Row} {t : Tree} {ts : List Tree} (ht : t ∈ ts) (h : Lacking t) : Lacking (.group g row ts)

end Tree

namespace Document

theorem documented_treeOf {k : RuleKind} {field : String → Value} {ts : List Tree}
    (hfield : ∀ name, field name = .null ∨ Allows name (field name)) (hts : ∀ t ∈ ts, t.Documented) :
    (treeOf k field ts).Documented := by
  have hm : IsMessage (field "message") := by
    rcases hfield "message" with hnull | hallows
    · exact .inl hnull
    · exact hallows
  cases k with
  | pattern => exact .check (hfield "regex") hm
  | prop => exact .group (hfield "name") hts
  | required => exact .group hm hts
  | any => exact .group trivial hts
  | union => exact .group trivial hts
  | container p => exact .group trivial hts
  | item => exact .group trivial hts
  | _ => exact .check trivial hm

theorem documented_of_writes (v : Value) : ∀ t, Writes v t → t.Documented := by
  induction v using node_induct with
  | other v hv =>
    intro t ht
    cases ht with
    | node => exact absurd rfl (hv _)
  | map entries ih =>
    intro t ht
    cases ht with
    | node hkind hknown hallowed hrules hchildren hk hfields hrow =>
      obtain rfl := rulesOf_eq hrules
      rw [eq_treeOf hk hfields hrow]
      refine documented_treeOf (fun name => ?_) fun s hs => ?_
      · cases hv : Value.lookup (.str name) entries with
        | none => exact .inl rfl
        | some v => exact .inr (hallowed name v hv)
      · obtain ⟨u, hu, hwrites⟩ := exists_left_of_forall₂ hchildren hs
        exact ih u hu s hwrites

/-! ### Writing again -/

theorem written_written (v : Value) : written (written v) = written v := by
  cases v <;> rfl

theorem messageField_written (m : Value) : messageField (written m) = messageField m := by
  cases m <;> rfl

theorem checkFields_reread (c : Check) : checkFields c.reread = checkFields c := by
  cases c with
  | kindless name v =>
    cases v with
    | none => rfl
    | some v => simp only [Check.reread, Option.map_some, checkFields, written_written]
  | mismatch => rfl
  | _ => simp only [Check.reread, checkFields, written_written]

theorem groupDocument_reread (g : Group) (items : List Value) : groupDocument g.reread items = groupDocument g items := by
  have hfields : groupFields g.reread = groupFields g := by
    cases g with
    | prop name => simp only [Group.reread, groupFields, written_written]
    | required m => exact messageField_written m
    | _ => rfl
  rw [groupDocument, groupDocument, Group.kind?_reread, hfields]

/-- A tree with its dates as texts and its rows fixed has the document of the tree. -/
theorem write_reread (t : Tree) : write t.reread = write t := by
  induction t using Tree.induct with
  | stray v => rfl
  | check c m => rw [Tree.reread, write, write, Check.kind?_reread, messageField_written, checkFields_reread]
  | unlisted g rules =>
    rw [Tree.reread, write, write]
    simp only [groupDocument_reread]
  | group g row ts ih =>
    have hitems : writeItems (ts.map Tree.reread) = writeItems ts := by
      clear row g
      induction ts with
      | nil => rfl
      | cons t ts ih' =>
        rw [List.map_cons, writeItems, writeItems, ih t List.mem_cons_self, ih' fun s hs => ih s (List.mem_cons_of_mem _ hs)]
    have hgroup : groupDocument g.reread = groupDocument g := funext (groupDocument_reread g)
    rw [Tree.reread, Tree.rereadRow_eq_map, write, write, hitems, hgroup]

/-! ### Reading the normal form -/

theorem writeItems_eq_ok_iff {ts : List Tree} {ds : List Value} :
    writeItems ts = .ok ds ↔ List.Forall₂ (fun t d => write t = .ok d) ts ds := by
  induction ts generalizing ds with
  | nil => simp [writeItems, eq_comm]
  | cons t ts ih =>
    rw [writeItems, List.forall₂_cons_left_iff]
    simp only [bind_eq_ok_iff, pure_eq_ok_iff, ih]
    constructor
    · intro h'
      obtain ⟨d, hd, ds, hds, rfl⟩ := h'
      exact ⟨d, ds, hd, hds, rfl⟩
    · intro h'
      obtain ⟨d, ds, hd, hds, rfl⟩ := h'
      exact ⟨d, hd, ds, hds, rfl⟩

theorem exists_write {t : Tree} (h : t.Documented) : ∃ n, write t = .ok n := by
  induction h with
  | check hc hm => exact ⟨_, rfl⟩
  | @group g ts _ _ ih =>
    obtain ⟨ds, hds⟩ := exists_forall₂_iff.mpr ih
    rw [write, writeItems_eq_ok_iff.mpr hds]
    exact ⟨groupDocument g ds, rfl⟩

theorem readableCheck_of_documented {c : Check} {m : Value} (hc : c.Documented) (h : ¬(Tree.check c m).Lacking) :
    ReadableCheck c := by
  cases c with
  | pattern regex =>
    rcases hc with rfl | hs
    · exact absurd (.expression m) h
    · exact hs
  | kindless name v => exact hc.elim
  | _ => exact trivial

theorem typed_of_documented {g : Group} {row : Row} {ts : List Tree} (hg : g.Documented)
    (h : ¬(Tree.group g row ts).Lacking) : ∀ f ∈ groupFields g, ∀ t ∈ typedFields, t.name = f.1 → t.holds f.2 = true := by
  cases g with
  | prop name =>
    rcases hg with rfl | hname
    · exact absurd (.name row ts) h
    · have hsame : written name = name := by
        rcases hname with ⟨s, rfl⟩ | ⟨i, rfl⟩ | ⟨x, rfl, -⟩ <;> rfl
      have htyped : (⟨"name", isName, "a string or an integer"⟩ : Field).holds name = true :=
        (holds_iff_allows (by simp [typedFields])).mpr hname
      rw [groupFields, hsame]
      simpa [typedFields] using htyped
  | required m =>
    rcases hg with rfl | ⟨s, rfl⟩
    · simp [groupFields, messageField]
    · simp [groupFields, messageField, typedFields, written, isTextOrNull]
  | kindless name => exact hg.elim
  | _ => simp [groupFields]

theorem roundTrips_of_documented {t : Tree} (h : t.Documented) : ¬t.Lacking → RoundTrips t := by
  induction h with
  | check hc hm => exact fun hl => roundTrips_check (readableCheck_of_documented hc hl) hm
  | @group g ts hg _ ih =>
    intro hl
    obtain ⟨k, hk⟩ : ∃ k, g.kind? = some k := by
      cases g with
      | kindless name => exact hg.elim
      | _ => exact ⟨_, rfl⟩
    obtain ⟨ds, hwrites, hreads⟩ := roundTrips_row fun s hs => ih s hs fun hlacking => hl (.inside hs hlacking)
    refine ⟨groupDocument g ds, ?_, ?_⟩
    · rw [write, hwrites]
      rfl
    · rw [read_groupDocument hk (typed_of_documented hg hl) fun k => hreads k 1, Tree.reread, Tree.rereadRow_eq_map]

theorem everyRow_of_documented {t : Tree} (h : t.Documented) : t.EveryRow (· = .fixed) := by
  induction h with
  | check hc hm => exact trivial
  | group _ _ ih => exact ⟨rfl, Tree.everyRows_iff.mpr ih⟩

/-! ### Normal forms that no tree has -/

theorem lookup_regex (m : Value) : Value.lookup (.str "regex")
    (entriesOf (kindField (some .pattern) :: messageField m ++ checkFields (.pattern .null))) = some .null := by
  rw [lookup_entriesOf]
  cases m <;> rfl

theorem rulesOf_groupDocument (g : Group) (ds : List Value) :
    rulesOf (entriesOf (kindField g.kind? :: ("rules", .list ds) :: groupFields g)) = ds := by
  refine rulesOf_of_lookup ?_
  rw [lookup_entriesOf]
  rfl

/-- In the normal form of a tree that lacks a field, no tree can be read. -/
theorem not_writes_of_lacking {t : Tree} (h : t.Lacking) : ∀ n, write t = .ok n → ∀ t', ¬Writes n t' := by
  induction h with
  | expression m =>
    intro n hn t' ht'
    cases hn
    cases ht' with
    | node _ _ hallowed =>
      obtain ⟨s, hs⟩ := hallowed "regex" .null (lookup_regex m)
      cases hs
  | name row ts =>
    intro n hn t' ht'
    obtain ⟨ds, -, rfl⟩ := map_eq_ok_iff.mp hn
    -- The field of the name is there and holds a null, which is no name of any form.
    cases ht' with
    | node _ _ hallowed =>
      have hlookup : Value.lookup (.str "name")
          (entriesOf (kindField (some .prop) :: ("rules", .list ds) :: groupFields (.prop .null))) = some .null := by
        rw [lookup_entriesOf]
        rfl
      rcases hallowed "name" .null hlookup with ⟨s, hs⟩ | ⟨i, hi⟩ | ⟨x, hx, -⟩
      · cases hs
      · cases hi
      · cases hx
  | @inside g row t ts ht _ ih =>
    intro n hn t' ht'
    obtain ⟨ds, hds, rfl⟩ := map_eq_ok_iff.mp hn
    obtain ⟨d, hd, hwrite⟩ := exists_right_of_forall₂ (writeItems_eq_ok_iff.mp hds) ht
    cases ht' with
    | node _ _ _ hrules hchildren =>
      have hitems := (rulesOf_eq hrules).symm.trans (rulesOf_groupDocument g ds)
      rw [hitems] at hchildren
      obtain ⟨s, -, hs⟩ := exists_right_of_forall₂ hchildren hd
      exact ih d hwrite s hs

/-- The normal form of a document is read exactly if it lacks no field, and then as the tree with dates as texts. -/
theorem normal_form {d : Value} {t : Tree} (h : parse d = .ok t) :
    ∃ n, write t = .ok n ∧ ((∃ t', parse n = .ok t') ↔ ¬t.Lacking) ∧ ∀ t', parse n = .ok t' → t' = t.reread := by
  have hdocumented := documented_of_writes d t (parse_eq_ok_iff_writes.mp h)
  obtain ⟨n, hn⟩ := exists_write hdocumented
  have hread (hl : ¬t.Lacking) : parse n = .ok t.reread := by
    obtain ⟨n', hn', hread⟩ := roundTrips_of_documented hdocumented hl
    cases hn.symm.trans hn'
    exact parse_eq_ok_iff.mpr hread
  have hcomplete {t' : Tree} (ht' : parse n = .ok t') : ¬t.Lacking := by
    intro hl
    exact not_writes_of_lacking hl n hn t' (parse_eq_ok_iff_writes.mp ht')
  refine ⟨n, hn, ⟨?_, fun hl => ⟨t.reread, hread hl⟩⟩, ?_⟩
  · intro h'
    obtain ⟨t', ht'⟩ := h'
    exact hcomplete ht'
  · intro t' ht'
    cases ht'.symm.trans (hread (hcomplete ht'))
    rfl

end Document

end RuleTree
