import RuleTree.Proofs.Build.WellFormed
import RuleTree.Proofs.Document.NormalForm
import RuleTree.Proofs.Json.RoundTrip
import RuleTree.Rule.Build
import RuleTree.Schema
import RuleTree.Text.CommonNames

/-!
# Printing schemas

Which schemas can be printed. The tree of a schema has a document unless some rule has a null for its row of children, and the
document has a JSON text unless some field holds an exact ratio, a value of a foreign type or an integer of too many digits.
The text is read back as the document.
-/

namespace RuleTree

open Document (written)

/-! ### Fields -/

namespace Value

/-- What fields hold when a tree has a validator: no rows, no mappings, no number without a place among the others. -/
def Plain : Value → Prop
  | .list _ => False
  | .tuple _ => False
  | .map _ => False
  | .number n => n.isNumber = true
  | _ => True

/-- Whether a field has a JSON text. -/
def Printable : Value → Prop
  | .number (.int i) => Decimal.isWritable i = true
  | .number (.ratio _) => False
  | .foreign _ => False
  | _ => True

theorem plain_of_isDate {v : Value} (h : v.IsDate) : v.Plain := by
  rcases h with ⟨d, rfl⟩ | ⟨m, rfl⟩ | ⟨s, m, rfl, -⟩ <;> trivial

theorem plain_of_place {v : Value} (h : ∃ x, v.place? = some x) : v.Plain := by
  obtain ⟨x, hx⟩ := h
  cases v with
  | number n => exact Option.isSome_of_eq_some hx
  | _ => cases hx

theorem plain_of_stamp {v : Value} {stamp : Int} (h : v.stamp? = some stamp) : v.Plain := by
  cases v with
  | date d => trivial
  | moment m => trivial
  | str s => trivial
  | _ => cases h

theorem plain_of_isMessage {m : Value} (h : Validator.IsMessage m) : m.Plain := by
  rcases h with rfl | ⟨s, rfl⟩ <;> trivial

theorem plain_of_isName {v : Value} (h : v.IsName) : v.Plain := by
  rcases h with ⟨s, rfl, -⟩ | ⟨i, rfl⟩
  · trivial
  · exact Number.isNumber_int i

theorem plain_of_compares {p : Primitive} {v : Value} (hp : .equal ∈ RuleKind.checksOf p) (h : p.Compares v) : v.Plain := by
  cases p with
  | date => exact plain_of_isDate h
  | number => exact plain_of_place h
  | object => exact absurd hp (by decide)
  | array => exact absurd hp (by decide)
  | string => cases v <;> first | trivial | cases h
  | boolean => cases v <;> first | trivial | cases h

theorem exists_write_written {v : Value} (h : v.Plain) (indent : Option Nat) (level : Nat) :
    (∃ text, Json.write indent level (written v) = .ok text) ↔ v.Printable := by
  have hok : ∀ text, (∃ text', (Except.ok text : Except Json.WriteFault String) = .ok text') := fun text => ⟨text, rfl⟩
  have herror : ∀ fault : Json.WriteFault, ¬∃ text, (Except.error fault : Except Json.WriteFault String) = .ok text := by
    rintro fault ⟨text, htext⟩
    cases htext
  cases v with
  | list vs => exact h.elim
  | tuple vs => exact h.elim
  | map es => exact h.elim
  | foreign n => exact iff_of_false (herror _) not_false
  | number n =>
    cases n with
    | int i =>
      have hwrite : Json.write indent level (written (.number (.int i))) =
          if Decimal.isWritable i then .ok (Decimal.integer i) else .error .unwritable := rfl
      rw [hwrite, Printable]
      split
      · next hi => exact iff_of_true (hok _) hi
      · next hi => exact iff_of_false (herror _) hi
    | ratio q => exact iff_of_false (herror _) not_false
    | float x => exact iff_of_true (hok _) trivial
  | _ => exact iff_of_true (hok _) trivial

theorem readableAtom_written {v : Value} (h : v.Plain) (hprintable : v.Printable) : Json.ReadableAtom (written v) := by
  cases v with
  | list vs => exact h.elim
  | tuple vs => exact h.elim
  | map es => exact h.elim
  | foreign n => exact hprintable.elim
  | number n =>
    cases n with
    | int i =>
      have hdigits : (Decimal.digits i.natAbs).length ≤ Decimal.maxDigits := of_decide_eq_true hprintable
      exact hdigits
    | ratio q => exact hprintable.elim
    | float x =>
      intro hnan
      have hplace : Number.isNumber (.float x) = false := by simp [Number.isNumber, Number.extended?, hnan]
      exact absurd h (by simp [Plain, hplace])
  | _ => trivial

end Value

/-! ### Trees of plain fields -/

namespace Tree

/-- All fields are plain, and all entries are rules; a null may stand for no children. -/
inductive Plain : Tree → Prop
  | check {c : Check} {m : Value} (h : ∀ v ∈ (Tree.check c m).fields, v.Plain) : Plain (.check c m)
  | group {g : Group} {t : Tree} {ts : List Tree} (h : t.Comprises g ts) (hg : ∀ v ∈ g.fields, v.Plain)
      (hts : ∀ s ∈ ts, Plain s) : Plain t

theorem plain_of_check [Text.CharacterNames] {p : Primitive} {c : Check} {m : Value} (hc : c.WellFormed p)
    (hm : Validator.IsMessage m) (hkind : ∃ k ∈ RuleKind.checksOf p, c.kind? = some k) : (Tree.check c m).Plain := by
  refine .check (List.forall_mem_cons.mpr ⟨Value.plain_of_isMessage hm, ?_⟩)
  cases c with
  | equal v =>
    obtain ⟨k, hk, hkind⟩ := hkind
    cases hkind
    simpa [Check.fields] using Value.plain_of_compares hk hc
  | bound b limit => simpa [Check.fields] using Value.plain_of_place hc
  | range min max =>
    obtain ⟨low, high, hlow, hhigh, -⟩ := hc
    simpa [Check.fields] using ⟨Value.plain_of_place ⟨low, hlow⟩, Value.plain_of_place ⟨high, hhigh⟩⟩
  | pattern regex =>
    obtain ⟨literal, _, rfl, -⟩ := hc
    simp [Check.fields, Value.Plain]
  | dateBound b boundary => simpa [Check.fields] using Value.plain_of_isDate hc
  | between first last =>
    obtain ⟨begins, ends, hbegins, hends, -⟩ := hc
    simpa [Check.fields] using ⟨Value.plain_of_stamp hbegins, Value.plain_of_stamp hends⟩
  | mismatch => exact hc.elim
  | kindless name v => exact hc.elim

theorem plain_of_mismatchOnce {ts : List Tree} (hm : MismatchOnce ts) (hts : ∀ s ∈ proper ts, s.Plain) : ∀ s ∈ ts, s.Plain := by
  intro s hs
  rcases proper_or_mismatch_of_mem hs with hs | ⟨m, hmem, rfl⟩
  · exact hts s hs
  · exact .check (List.forall_mem_singleton.mpr (Value.plain_of_isMessage (hm.2 m hmem)))

/-- A tree that is well formed where it stands, inside a container as one of its checks. -/
theorem plain_of_wellFormed [Text.CharacterNames] {place : Position} {t : Tree} (h : t.WellFormed place) :
    (∀ p, place = .inside p → ∃ k ∈ RuleKind.checksOf p, t.kind? = some k) → t.Plain := by
  induction h with
  | required h hm _ _ ih =>
    exact fun _ => .group h (by simpa [Group.fields] using Value.plain_of_isMessage hm) fun s hs =>
      ih s hs fun p hp => absurd hp (Position.wrapped_ne_inside p)
  | wrapped _ ih => exact fun _ => ih fun p hp => absurd hp (Position.wrapped_ne_inside p)
  | union h hm _ _ _ ih =>
    exact fun _ => .group h (by simp [Group.fields]) (plain_of_mismatchOnce hm fun s hs =>
      ih s hs fun p hp => absurd hp (Position.branch_ne_inside p))
  | branch _ ih => exact fun _ => ih fun p hp => absurd hp (Position.branch_ne_inside p)
  | container h hm hkinds _ ih =>
    refine fun _ => .group h (by simp [Group.fields]) (plain_of_mismatchOnce hm fun s hs => ih s hs ?_)
    rintro p ⟨⟩
    exact hkinds s hs
  | any h _ _ hkinds _ ih =>
    refine fun _ => .group h (by simp [Group.fields]) fun s hs => ih s hs ?_
    rintro p ⟨⟩
    obtain ⟨k, hk, hkind⟩ := hkinds s hs
    exact ⟨k, (List.mem_filter.mp hk).1, hkind⟩
  | prop h hname _ ih =>
    refine fun _ => .group h (by simpa [Group.fields] using Value.plain_of_isName hname) (List.forall_mem_singleton.mpr ?_)
    exact ih fun p hp => absurd hp (Position.value_ne_inside p)
  | item h _ ih =>
    refine fun _ => .group h (by simp [Group.fields]) (List.forall_mem_singleton.mpr ?_)
    exact ih fun p hp => absurd hp (Position.value_ne_inside p)
  | check hc hm => exact fun hkind => plain_of_check hc hm (hkind _ rfl)

end Tree

/-! ### Documents -/

namespace Document

section Documents

variable {Q : Value → Prop}

theorem forall_messageField (hnull : Q .null) (m : Value) : (∀ f ∈ messageField m, Q f.2) ↔ Q (written m) := by
  cases m with
  | null => exact iff_of_true (List.forall_mem_nil _) hnull
  | _ => exact List.forall_mem_singleton

/-- What is true of texts and null is true of all fields of a leaf in a document if it is true of its fields as written. -/
theorem forall_checkDocument (hstr : ∀ s, Q (.str s)) (hnull : Q .null) (c : Check) (m : Value) :
    (∀ f ∈ kindField c.kind? :: messageField m ++ checkFields c, Q f.2) ↔ ∀ v ∈ (Tree.check c m).fields, Q (written v) := by
  have hfields : (∀ f ∈ checkFields c, Q f.2) ↔ ∀ v ∈ c.fields, Q (written v) := by
    cases c with
    | kindless name v => cases v <;> simp [checkFields, Check.fields]
    | _ => simp [checkFields, Check.fields]
  rw [Tree.fields, List.cons_append, List.forall_mem_cons, List.forall_mem_cons, List.forall_mem_append,
    forall_messageField hnull, hfields]
  exact and_iff_right (hstr _)

theorem forall_groupDocument (hstr : ∀ s, Q (.str s)) (hnull : Q .null) (g : Group) (ds : List Value) :
    (∀ f ∈ kindField g.kind? :: ("rules", .list ds) :: groupFields g, Q f.2) ↔
      (∀ v ∈ g.fields, Q (written v)) ∧ Q (.list ds) := by
  have hfields : (∀ f ∈ groupFields g, Q f.2) ↔ ∀ v ∈ g.fields, Q (written v) := by
    cases g with
    | required message =>
      rw [groupFields, forall_messageField hnull, Group.fields, List.forall_mem_singleton]
    | _ => simp [groupFields, Group.fields]
  rw [List.forall_mem_cons, List.forall_mem_cons, hfields, and_comm (a := Q (.list ds))]
  exact and_iff_right (hstr _)

end Documents

theorem nodup_checkDocument (c : Check) (m : Value) :
    ((kindField c.kind? :: messageField m ++ checkFields c).map Prod.fst).Nodup := by
  have hmessage : (messageField m).map Prod.fst = [] ∨ (messageField m).map Prod.fst = ["message"] := by
    cases m <;> simp [messageField]
  rw [List.map_append, List.map_cons]
  rcases hmessage with hm | hm <;> rw [hm] <;> cases c with
    | kindless name v => cases v <;> simp [kindField, checkFields]
    | _ => simp [kindField, checkFields]

theorem nodup_groupDocument (g : Group) (ds : List Value) :
    ((kindField g.kind? :: ("rules", .list ds) :: groupFields g).map Prod.fst).Nodup := by
  cases g with
  | required message => cases message <;> simp [kindField, groupFields, messageField]
  | _ => simp [kindField, groupFields]

section Trees

variable {t : Tree}

/-- A tree has a document exactly if every rule with children has a row of them. -/
theorem exists_write_iff (h : t.Plain) : (∃ d, write t = .ok d) ↔ t.EveryRow fun _ => True := by
  induction h with
  | check h => exact iff_of_true ⟨_, rfl⟩ trivial
  | @group g t ts h hg hts ih =>
    cases h with
    | group _ row =>
      have hitems : (∃ d, write (.group g row ts) = .ok d) ↔ ∃ ds, writeItems ts = .ok ds := by
        simp only [write, map_eq_ok_iff]
        constructor
        · rintro ⟨d, ds, hds, -⟩
          exact ⟨ds, hds⟩
        · rintro ⟨ds, hds⟩
          exact ⟨_, ds, hds, rfl⟩
      have hrow : (Tree.group g row ts).EveryRow (fun _ => True) ↔ ∀ s ∈ ts, s.EveryRow fun _ => True := by
        rw [Tree.EveryRow, Tree.everyRows_iff, true_and]
      simp only [hitems, hrow, writeItems_eq_ok_iff, exists_forall₂_iff]
      exact forall₂_congr ih
    | unlisted =>
      refine iff_of_false ?_ not_false
      rintro ⟨d, hd⟩
      cases hd

/-- A document has a text exactly if every field of the tree is printable. -/
theorem exists_text_iff (h : t.Plain) : ∀ {d : Value}, write t = .ok d → ∀ (indent : Option Nat) (level : Nat),
    (∃ text, Json.write indent level d = .ok text) ↔ ∀ v ∈ t.fields, v.Printable := by
  induction h with
  | @check c m h =>
    intro d hd indent level
    cases hd
    rw [Json.exists_write_fields, forall_checkDocument (Q := fun v => ∃ text, Json.write indent (level + 1) v = .ok text)
      (fun s => ⟨_, rfl⟩) ⟨_, rfl⟩]
    exact forall₂_congr fun v hv => Value.exists_write_written (h v hv) indent (level + 1)
  | @group g t ts h hg hts ih =>
    intro d hd indent level
    cases h with
    | unlisted => cases hd
    | group _ row =>
      obtain ⟨ds, hds, rfl⟩ := map_eq_ok_iff.mp hd
      -- The documents of the children stand in a row inside the mapping: two levels further in.
      have hrow : (∀ d ∈ ds, ∃ text, Json.write indent (level + 1 + 1) d = .ok text) ↔ ∀ s ∈ ts, ∀ v ∈ s.fields, v.Printable :=
        (forall_mem_iff_of_forall₂ (writeItems_eq_ok_iff.mp hds) fun s hs d hwrite =>
          ih s hs hwrite indent (level + 1 + 1)).symm
      have hfields : (∀ v ∈ g.fields, ∃ text, Json.write indent (level + 1) (written v) = .ok text) ↔
          ∀ v ∈ g.fields, v.Printable :=
        forall₂_congr fun v hv => Value.exists_write_written (hg v hv) indent (level + 1)
      rw [groupDocument, Json.exists_write_fields,
        forall_groupDocument (Q := fun v => ∃ text, Json.write indent (level + 1) v = .ok text) (fun s => ⟨_, rfl⟩) ⟨_, rfl⟩,
        hfields, Json.exists_write_list, hrow, Tree.fields, List.forall_mem_append]
      refine and_congr_right fun _ => ?_
      constructor
      · intro hprintable v hv
        obtain ⟨s, hs, hv⟩ := Tree.mem_fieldsRow.mp hv
        exact hprintable s hs v hv
      · intro hprintable s hs v hv
        exact hprintable v (Tree.mem_fieldsRow.mpr ⟨s, hs, hv⟩)

/-- The document of a tree with printable fields is one that JSON keeps. -/
theorem nested_of_write (h : t.Plain) : ∀ {d : Value}, write t = .ok d → (∀ v ∈ t.fields, v.Printable) →
    d.Nested Json.ReadableAtom := by
  have hstr : ∀ s, Value.Nested Json.ReadableAtom (.str s) := fun s => .atom trivial
  have hnull : Value.Nested Json.ReadableAtom .null := .atom trivial
  induction h with
  | @check c m h =>
    intro d hd hprintable
    cases hd
    apply Value.Nested.fields (nodup_checkDocument c m)
    rw [forall_checkDocument hstr hnull]
    intro v hv
    exact .atom (Value.readableAtom_written (h v hv) (hprintable v hv))
  | @group g t ts h hg hts ih =>
    intro d hd hprintable
    cases h with
    | unlisted => cases hd
    | group _ row =>
      obtain ⟨ds, hds, rfl⟩ := map_eq_ok_iff.mp hd
      apply Value.Nested.fields (nodup_groupDocument g ds)
      rw [Tree.fields, List.forall_mem_append] at hprintable
      rw [forall_groupDocument hstr hnull]
      constructor
      · exact fun v hv => .atom (Value.readableAtom_written (hg v hv) (hprintable.1 v hv))
      · apply Value.Nested.list
        intro d hd
        obtain ⟨s, hs, hwrite⟩ := exists_left_of_forall₂ (writeItems_eq_ok_iff.mp hds) hd
        exact ih s hs hwrite fun v hv => hprintable.2 v (Tree.mem_fieldsRow.mpr ⟨s, hs, hv⟩)

end Trees

end Document

/-! ### Schemas -/

namespace Schema

variable {t : Tree} {s : Schema}

theorem plain_of_ofTree [Text.CharacterNames] (h : ofTree t = .ok s) : t.Plain := by
  obtain ⟨c, hc, -⟩ := map_eq_ok_iff.mp h
  exact Tree.plain_of_wellFormed (Validator.formed t hc Position.governs_value) fun p hp => absurd hp (Position.value_ne_inside p)

theorem toJson_eq_ok_iff {indent : Option Int} {text : String} :
    s.toJson indent = .ok text ↔ ∃ d, s.toDocument = .ok d ∧ Json.ofValue (indent.map Int.toNat) d = .ok text := by
  unfold toJson
  cases s.toDocument with
  | error fault => simp
  | ok d => cases hd : Json.ofValue (indent.map Int.toNat) d <;> simp [Except.mapError, hd]

/-- A schema has a document exactly if every rule with children has a row of them, and then it has a text, with any
indentation, exactly if every field is printable. The text is read back as the document. -/
theorem printed_and_read_back [Text.CharacterNames] (h : ofTree t = .ok s) :
    ((∃ d, s.toDocument = .ok d) ↔ t.EveryRow fun _ => True) ∧
      ∀ indent, ((∃ text, s.toJson indent = .ok text) ↔ (t.EveryRow fun _ => True) ∧ ∀ v ∈ t.fields, v.Printable) ∧
        ∀ text, s.toJson indent = .ok text → ∃ d, s.toDocument = .ok d ∧ Json.read text.toList = .ok d := by
  have hplain : t.Plain := plain_of_ofTree h
  have hdocument : s.toDocument = Document.write t := congrArg Document.write (tree_of_ofTree h)
  have hexists : (∃ d, s.toDocument = .ok d) ↔ t.EveryRow fun _ => True := by
    rw [hdocument]
    exact Document.exists_write_iff hplain
  refine ⟨hexists, fun indent => ⟨?_, ?_⟩⟩
  · simp only [toJson_eq_ok_iff, ← hexists]
    constructor
    · rintro ⟨text, d, hd, htext⟩
      exact ⟨⟨d, hd⟩, (Document.exists_text_iff hplain (hdocument.symm.trans hd) (indent.map Int.toNat) 0).mp ⟨text, htext⟩⟩
    · rintro ⟨⟨d, hd⟩, hprintable⟩
      obtain ⟨text, htext⟩ := (Document.exists_text_iff hplain (hdocument.symm.trans hd) (indent.map Int.toNat) 0).mpr hprintable
      exact ⟨text, d, hd, htext⟩
  · intro text htext
    obtain ⟨d, hd, htext⟩ := toJson_eq_ok_iff.mp htext
    have hwrite : Document.write t = .ok d := hdocument.symm.trans hd
    have hprintable := (Document.exists_text_iff hplain hwrite (indent.map Int.toNat) 0).mp ⟨text, htext⟩
    exact ⟨d, hd, Json.read_ofValue (Document.nested_of_write hplain hwrite hprintable) htext⟩

open Text.CommonNames

theorem printed_and_read_back_member : ∃ (t : Tree) (s : Schema), t = .container .object [
      .prop (.str "age") [.container .number [.bound .min (.number (.int 18)) (.str "too young")]],
      .prop (.str "since") [.container .date [.dateBound .notAfter (.date ⟨2020, 2, 29, by decide⟩)]]] ∧
    ofTree t = .ok s ∧
      ∀ indent, ∃ text d, s.toJson indent = .ok text ∧ s.toDocument = .ok d ∧ Json.read text.toList = .ok d := by
  let d : Value := .date ⟨2020, 2, 29, by decide⟩
  let t : Tree := .container .object [
    .prop (.str "age") [.container .number [.bound .min (.number (.int 18)) (.str "too young")]],
    .prop (.str "since") [.container .date [.dateBound .notAfter d]]]
  obtain ⟨s, hs⟩ : ∃ s, ofTree t = .ok s := ⟨_, rfl⟩
  have hfields : t.fields = [.str "age", .str "too young", .number (.int 18), .str "since", .null, d] := rfl
  have hprintable : ∀ v ∈ t.fields, v.Printable := by
    have hage : Decimal.isWritable 18 = true := by decide
    rw [hfields]
    simpa [Value.Printable, d] using hage
  have hrows : t.EveryRow fun _ => True :=
    ⟨trivial, ⟨trivial, ⟨trivial, trivial, trivial⟩, trivial⟩, ⟨trivial, ⟨trivial, trivial, trivial⟩, trivial⟩, trivial⟩
  obtain ⟨-, hjson⟩ := printed_and_read_back hs
  refine ⟨t, s, rfl, hs, fun indent => ?_⟩
  obtain ⟨hexists, hread⟩ := hjson indent
  obtain ⟨text, htext⟩ := hexists.mpr ⟨hrows, hprintable⟩
  obtain ⟨doc, hdoc, hback⟩ := hread text htext
  exact ⟨text, doc, htext, hdoc, hback⟩

/-- A bound that is an exact ratio has a document without a text, and a null for no children has no document. -/
theorem not_every_schema_printed :
    (∃ s, ofTree (.container .number [.bound .min (.number (.ratio (1 / 2)))]) = .ok s ∧
      (∃ d, s.toDocument = .ok d) ∧ ∀ indent text, s.toJson indent ≠ .ok text) ∧
    ∃ s, ofTree (.unlisted (.container .string) .null) = .ok s ∧ (∀ d, s.toDocument ≠ .ok d) ∧
      ∀ indent text, s.toJson indent ≠ .ok text := by
  constructor
  · refine ⟨_, rfl, ⟨_, rfl⟩, fun indent text htext => ?_⟩
    obtain ⟨d, hd, htext⟩ := toJson_eq_ok_iff.mp htext
    have hplain : (Tree.container .number [.bound .min (.number (.ratio (1 / 2)))]).Plain := plain_of_ofTree rfl
    exact (Document.exists_text_iff hplain hd (indent.map Int.toNat) 0).mp ⟨text, htext⟩ (.number (.ratio (1 / 2)))
      (by simp [Tree.container, Tree.bound, Tree.fields, Tree.fieldsRow, Check.fields, Group.fields])
  · refine ⟨_, rfl, fun d hd => ?_, fun indent text htext => ?_⟩
    · cases hd
    · obtain ⟨d, hd, -⟩ := toJson_eq_ok_iff.mp htext
      cases hd

end Schema

end RuleTree
