import RuleTree.Proofs.Build.Reread
import RuleTree.Proofs.Build.WellFormed
import RuleTree.Proofs.Document.RoundTrip
import RuleTree.Rule.Build
import RuleTree.Text.CommonNames

/-!
# Validators of documents

A tree that has a validator has a document, and the tree that is read from the document has the same validator, down to limits,
milliseconds, words and order, unless a moment in the tree is on a clock whose distance from universal time is less than a
second: the text of such a moment may be read at another millisecond.
-/

namespace RuleTree.Document

open Validator (ofTree)

theorem faithful_fields_iff {t : Tree} :
    (∀ v ∈ t.fields, v.Faithful) ↔ ∀ m, .moment m ∈ t.fields → m.Faithful := by
  constructor
  · intro h m hm
    exact h (.moment m) hm
  · intro h v hv
    cases v with
    | moment m => exact h m hv
    | _ => exact trivial

theorem reread_validator_iff [Text.CharacterNames] {t : Tree} {c : Validator} (h : ofTree t = .ok c)
    (hrows : t.EveryRow fun _ => True) :
    ∃ d t', write t = .ok d ∧ read d = .ok t' ∧
      (ofTree t' = .ok c ↔ ∀ m, .moment m ∈ t.fields → m.Faithful) ∧
      (t.EveryRow (· = .fixed) → (∀ d, .date d ∉ t.fields) → (∀ m, .moment m ∉ t.fields) → t' = t) := by
  have hplace : Position.value.Governs RuleKind.bindable none := Position.governs_value
  have hwf : t.WellFormed .value := Validator.formed t h hplace
  obtain ⟨d, hwrite, hread⟩ := roundTrips_of_wellFormed hwf hrows
  refine ⟨d, t.reread, hwrite, hread, ?_, ?_⟩
  · rw [← faithful_fields_iff]
    exact Validator.rereads t h hplace
  · intro hfixed hdates hmoments
    refine Tree.reread_eq_self t hfixed fun v hv => Tree.written_eq_self ?_ ?_
    · intro d heq
      subst heq
      exact hdates d hv
    · intro m heq
      subst heq
      exact hmoments m hv

open Text.CommonNames

theorem reread_validator_iff_born :
    ∃ (t : Tree) (c : Validator) (d : Value) (t' : Tree),
      t = .container .object [.prop (.str "born") [.container .date
        [.dateBound .notBefore (.moment ⟨⟨1900, 1, 1, by decide⟩, TimeOfDay.midnight, some ⟨-3600000000, by decide⟩⟩),
          .mismatch (.str "no date")]]] ∧
      ofTree t = .ok c ∧ t.EveryRow (fun _ => True) ∧ write t = .ok d ∧ read d = .ok t' ∧ ofTree t' = .ok c := by
  let m : Moment := ⟨⟨1900, 1, 1, by decide⟩, TimeOfDay.midnight, some ⟨-3600000000, by decide⟩⟩
  let t : Tree := .container .object [.prop (.str "born") [.container .date
    [.dateBound .notBefore (.moment m), .mismatch (.str "no date")]]]
  obtain ⟨c, hc⟩ : ∃ c, ofTree t = .ok c := ⟨_, rfl⟩
  have hrows : t.EveryRow fun _ => True :=
    ⟨trivial, ⟨trivial, ⟨trivial, trivial, trivial, trivial⟩, trivial⟩, trivial⟩
  have hfields : t.fields = [.str "born", .null, .moment m, .str "no date"] := rfl
  obtain ⟨d, t', hwrite, hread, hiff, -⟩ := reread_validator_iff hc hrows
  refine ⟨t, c, d, t', rfl, hc, hrows, hwrite, hread, hiff.mpr ?_⟩
  intro n hn o ho hsmall
  rw [hfields] at hn
  simp only [List.mem_cons, reduceCtorEq, Value.moment.injEq, List.not_mem_nil, or_false, false_or] at hn
  subst hn
  cases ho
  exact absurd hsmall (by decide)

/-- A distance of half a second is lost. -/
theorem half_second_not_kept :
    ∃ (t : Tree) (c : Validator) (d : Value) (t' : Tree),
      t = .container .date [.equal (.moment ⟨⟨1970, 1, 1, by decide⟩, TimeOfDay.midnight, some ⟨500000, by decide⟩⟩)] ∧
      ofTree t = .ok c ∧ t.EveryRow (fun _ => True) ∧ write t = .ok d ∧ read d = .ok t' ∧ ofTree t' ≠ .ok c := by
  let m : Moment := ⟨⟨1970, 1, 1, by decide⟩, TimeOfDay.midnight, some ⟨500000, by decide⟩⟩
  let t : Tree := .container .date [.equal (.moment m)]
  obtain ⟨c, hc⟩ : ∃ c, ofTree t = .ok c := ⟨_, rfl⟩
  have hplace : Position.value.Governs RuleKind.bindable none := Position.governs_value
  have hrows : t.EveryRow fun _ => True := ⟨trivial, trivial, trivial⟩
  have hinstant : m.instant = -500000 := by decide +kernel
  obtain ⟨d, hwrite, hread⟩ := roundTrips_of_wellFormed (Validator.formed t hc hplace) hrows
  refine ⟨t, c, d, t.reread, rfl, hc, hrows, hwrite, hread, ?_⟩
  intro hsame
  have hfaithful : m.Faithful := (Validator.rereads t hc hplace).mp hsame (.moment m) (by
    have hfields : t.fields = [.null, .moment m] := rfl
    rw [hfields]
    exact List.mem_cons_of_mem _ List.mem_cons_self)
  have hstamp := hfaithful _ rfl (by decide)
  rw [hinstant] at hstamp
  exact absurd hstamp (by decide)

end RuleTree.Document
