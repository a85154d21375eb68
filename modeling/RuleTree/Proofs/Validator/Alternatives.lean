import RuleTree.Proofs.Validator.Location
import RuleTree.Rule.Build
import RuleTree.Text.CommonNames

/-!
# Failure of alternatives

What a union and a row of alternatives report when everything they try has failed. A union that has one branch to try
reports the error of the branch as it is. That it never has to put an error with a path into a list rests on the grammar:
two branches are tried only on a text that names a date, and neither of them looks inside the text.
-/

namespace RuleTree.Validator

/-! ### Candidates -/

section Candidates

variable {v : Value} {b : Primitive × Validator} {bs : List (Primitive × Validator)}

/-- Whether a union tries its branch of a kind: the kind is that of the value, or the value is a text that names a date. -/
def Candidate (v : Value) (p : Primitive) : Prop :=
  v.kind = .primitive p ∨ p = .date ∧ ∃ s m, v = .str s ∧ Moment.read? s = some m

theorem offers_iff {p : Primitive} : offers v p = true ↔ Candidate v p := by
  unfold offers Candidate
  cases v with
  | str s => simp [Option.isSome_iff_exists]
  | _ => simp

instance (v : Value) (p : Primitive) : Decidable (Candidate v p) := decidable_of_iff _ offers_iff

/-- The branches that a union tries, in the order of their declaration. -/
def candidates (v : Value) (bs : List (Primitive × Validator)) : List (Primitive × Validator) :=
  bs.filter fun b => Candidate v b.1

theorem mem_candidates : b ∈ candidates v bs ↔ b ∈ bs ∧ Candidate v b.1 := by
  simp [candidates]

theorem candidates_cons_of_candidate (h : Candidate v b.1) : candidates v (b :: bs) = b :: candidates v bs := by
  simp [candidates, h]

theorem candidates_cons_of_not_candidate (h : ¬Candidate v b.1) : candidates v (b :: bs) = candidates v bs := by
  simp [candidates, h]

/-- Two branches of different kinds are tried only on a text, and then they are for dates and for texts. -/
theorem kinds_of_candidates {p q : Primitive} (hne : p ≠ q) (hp : Candidate v p) (hq : Candidate v q) :
    (∃ s, v = .str s) ∧ (p = .date ∧ q = .string ∨ p = .string ∧ q = .date) := by
  rcases hp with hp | ⟨rfl, s, m, rfl, -⟩
  · rcases hq with hq | ⟨rfl, s, m, rfl, -⟩
    · have hpq : Kind.primitive p = .primitive q := hp.symm.trans hq
      exact absurd (Kind.primitive.inj hpq) hne
    · have hstring : p = .string := (Kind.primitive.inj hp).symm
      exact ⟨⟨s, rfl⟩, .inr ⟨hstring, rfl⟩⟩
  · rcases hq with hq | ⟨rfl, -⟩
    · have hstring : q = .string := (Kind.primitive.inj hq).symm
      exact ⟨⟨s, rfl⟩, .inl ⟨rfl, hstring⟩⟩
    · exact absurd rfl hne

/-- A third kind is never tried. -/
theorem length_candidates_le (hnodup : (bs.map Prod.fst).Nodup) : (candidates v bs).length ≤ 2 := by
  have hsub : ((candidates v bs).map Prod.fst).Sublist (bs.map Prod.fst) := List.filter_sublist.map _
  have hkinds : ((candidates v bs).map Prod.fst).Nodup := hnodup.sublist hsub
  match hc : candidates v bs with
  | [] => simp
  | [_] => simp
  | [_, _] => simp
  | b :: c :: d :: rest =>
    have hmem : ∀ x ∈ [b, c, d], Candidate v x.1 := by
      intro x hx
      have hx : x ∈ candidates v bs := by
        rw [hc]
        exact List.mem_append_left rest hx
      exact (mem_candidates.mp hx).2
    rw [hc] at hkinds
    simp only [List.map_cons, List.nodup_cons, List.mem_cons, not_or] at hkinds
    obtain ⟨⟨hbc, hbd, -⟩, ⟨hcd, -⟩, -⟩ := hkinds
    have hb : Candidate v b.1 := hmem b (by simp)
    have hc : Candidate v c.1 := hmem c (by simp)
    have hd : Candidate v d.1 := hmem d (by simp)
    -- Of three kinds, two would be equal: each pair consists of dates and texts.
    have h₁ := (kinds_of_candidates hbc hb hc).2
    have h₂ := (kinds_of_candidates hbd hb hd).2
    rcases h₁ with ⟨hb', hc'⟩ | ⟨hb', hc'⟩
    · rcases h₂ with ⟨-, hd'⟩ | ⟨hb'', -⟩
      · exact absurd (hc'.trans hd'.symm) hcd
      · exact absurd (hb'.symm.trans hb'') (by decide)
    · rcases h₂ with ⟨hb'', -⟩ | ⟨-, hd'⟩
      · exact absurd (hb'.symm.trans hb'') (by decide)
      · exact absurd (hc'.trans hd'.symm) hcd

end Candidates

/-! ### Rows of errors -/

section Errors

variable {v : Value} {e : ValidationError} {es : List ValidationError}

/-- Each of some validators rejects a value, with the error at its place. -/
def Errors (v : Value) (cs : List Validator) (es : List ValidationError) : Prop :=
  List.Forall₂ (fun c f => c.run v = .error (.invalid f)) cs es

theorem exists_errors {cs : List Validator} (h : ∀ c ∈ cs, c.rejects v = true) : ∃ es, Errors v cs es :=
  exists_forall₂_iff.mpr fun c hc => rejects_iff_run_eq_error.mp (h c hc)

/-- The verdicts that are some rejections. -/
def rejections (es : List ValidationError) : List Verdict := es.map fun e => .error (.invalid e)

theorem isRejection_of_mem_rejections {r : Verdict} (h : r ∈ rejections es) : r.isRejection = true := by
  obtain ⟨e, -, rfl⟩ := List.mem_map.mp h
  rfl

theorem failures_rejections (es : List ValidationError) : Verdict.failures (rejections es) = es.map (·.message) := by
  induction es with
  | nil => rfl
  | cons e es ih =>
    rw [List.map_cons, ← ih]
    rfl

theorem runAlternatives_of_errors {cs : List Validator} (h : Errors v cs es) : runAlternatives cs v = rejections es := by
  induction h with
  | nil => exact runAlternatives_nil v
  | cons hc _ ih =>
    rw [runAlternatives, hc, ih]
    rfl

theorem runBranches_of_errors {bs : List (Primitive × Validator)} (h : Errors v ((candidates v bs).map Prod.snd) es) :
    runBranches bs v = rejections es := by
  induction bs generalizing es with
  | nil =>
    cases h
    exact runBranches_nil v
  | cons b bs ih =>
    rw [runBranches]
    by_cases hb : Candidate v b.1
    · rw [if_pos (offers_iff.mpr hb)]
      rw [candidates_cons_of_candidate hb, List.map_cons] at h
      obtain ⟨f, fs, hf, hfs, rfl⟩ := List.forall₂_cons_left_iff.mp h
      rw [hf, ih hfs]
      rfl
    · rw [if_neg fun ho => hb (offers_iff.mp ho)]
      rw [candidates_cons_of_not_candidate hb] at h
      exact ih h

theorem decideAny_errors :
    decideAny (rejections es) = .error (.invalid { cause := .noAlternative (es.map (·.message)) }) := by
  rw [decideAny, Verdict.firstOr_of_forall fun r hr => isRejection_of_mem_rejections hr, failures_rejections]
  rfl

theorem decideUnion_errors {kinds : List Primitive} {mismatch : Option String} (f g : ValidationError) :
    decideUnion kinds mismatch v (rejections (f :: g :: es)) =
      .error (.invalid { cause := .noMatch ((f :: g :: es).map (·.message)) }) := by
  have hdecide : decideUnion kinds mismatch v (rejections (f :: g :: es)) =
      Verdict.firstOr (rejectFor (.noMatch (Verdict.failures (rejections (f :: g :: es))))) (rejections (f :: g :: es)) := rfl
  rw [hdecide, Verdict.firstOr_of_forall fun r hr => isRejection_of_mem_rejections hr, failures_rejections]
  rfl

end Errors

/-! ### Reports -/

/-- What a union reports on a value that it rejects, by the branches that it tries: its own words if there is none, the
error of the branch itself if there is one, and the errors of both, numbered, if there are a branch for dates and one for
texts. -/
inductive UnionReports (bs : List (Primitive × Validator)) (mismatch : Option String) (v : Value) :
    List (Primitive × Validator) → ValidationError → Prop
  | none {e : ValidationError} (hpath : e.path = [])
      (hreason : e.reason = mismatch.getD ("unexpected type: expected one of '" ++
        ", ".intercalate (bs.map fun b => b.1.name) ++ "' but found '" ++ v.kind.name ++ "'")) :
      UnionReports bs mismatch v [] e
  | one {b : Primitive × Validator} {e : ValidationError} (h : b.2.run v = .error (.invalid e)) :
      UnionReports bs mismatch v [b] e
  | both {b c : Primitive × Validator} {e f g : ValidationError} {s : String} (hv : v = .str s)
      (hkinds : b.1 = .date ∧ c.1 = .string ∨ b.1 = .string ∧ c.1 = .date) (hf : b.2.run v = .error (.invalid f))
      (hg : c.2.run v = .error (.invalid g)) (hfpath : f.path = []) (hgpath : g.path = []) (hpath : e.path = [])
      (hreason : e.reason = "no rule matched: [R1. " ++ f.message ++ "; R2. " ++ g.message ++ "]") :
      UnionReports bs mismatch v [b, c] e

/-- What a row of alternatives reports on a value: all of them reject it, and their messages are listed by number. -/
def AnyReports (alternatives : List Validator) (v : Value) (e : ValidationError) : Prop :=
  ∃ failures, Errors v alternatives failures ∧ (∀ a ∈ alternatives, a.accepts v = false) ∧ e.path = [] ∧
    e.reason = "not eligible: (" ++
      ", ".intercalate (failures.mapIdx fun i f => Decimal.natural (i + 1) ++ ". " ++ f.message) ++ ")"

section Texts

theorem numbered_map {α : Type} (mark : String) (text : α → String) (xs : List α) :
    numbered mark (xs.map text) = xs.mapIdx fun i x => mark ++ Decimal.natural (i + 1) ++ ". " ++ text x := by
  refine List.ext_getElem? fun i => ?_
  simp [numbered, Option.map_map, Function.comp_def]

theorem text_noAlternative (es : List ValidationError) :
    (Cause.noAlternative (es.map (·.message))).text = "not eligible: (" ++
      ", ".intercalate (es.mapIdx fun i f => Decimal.natural (i + 1) ++ ". " ++ f.message) ++ ")" := by
  have hempty (i : Nat) : "" ++ Decimal.natural (i + 1) = Decimal.natural (i + 1) := String.empty_append
  have hnumbered := numbered_map "" ValidationError.message es
  simp only [hempty] at hnumbered
  rw [← hnumbered]
  rfl

theorem text_noBranch (bs : List (Primitive × Validator)) (k : Kind) :
    (Cause.noBranch (bs.map Prod.fst) k).text = "unexpected type: expected one of '" ++
      ", ".intercalate (bs.map fun b => b.1.name) ++ "' but found '" ++ k.name ++ "'" := by
  have hnames : bs.map (fun b => b.1.name) = (bs.map Prod.fst).map Primitive.name := by
    rw [List.map_map]
    rfl
  rw [hnames]
  rfl

theorem text_noMatch_pair (a b : String) :
    (Cause.noMatch [a, b]).text = "no rule matched: [R1. " ++ a ++ "; R2. " ++ b ++ "]" := by
  have hfirst : "R" ++ Decimal.natural (0 + 1) ++ ". " = "R1. " := by decide
  have hsecond : "R" ++ Decimal.natural (1 + 1) ++ ". " = "R2. " := by decide
  have hpair : "; ".intercalate (numbered "R" [a, b]) = "R1. " ++ a ++ "; " ++ ("R2. " ++ b) := by
    rw [← hfirst, ← hsecond]
    rfl
  have hfront : "no rule matched: [" ++ ("R1. " ++ a) = "no rule matched: [R1. " ++ a := by
    rw [← String.append_assoc]
    rfl
  have hback : "; " ++ ("R2. " ++ b) = "; R2. " ++ b := by
    rw [← String.append_assoc]
    rfl
  have htext : (Cause.noMatch [a, b]).text = "no rule matched: [" ++ "; ".intercalate (numbered "R" [a, b]) ++ "]" := rfl
  calc (Cause.noMatch [a, b]).text
      = "no rule matched: [" ++ ("R1. " ++ a) ++ ("; " ++ ("R2. " ++ b)) ++ "]" := by
        rw [htext, hpair]
        simp only [String.append_assoc]
    _ = "no rule matched: [R1. " ++ a ++ "; R2. " ++ b ++ "]" := by
        rw [hfront, hback]
        simp only [String.append_assoc]

end Texts

section Reports

variable {allowed : List RuleKind} {parent : Option RuleKind} {t : Tree} {ts : List Tree} {c : Validator} {v : Value}
  {e : ValidationError}

theorem anyReports_of_error {cs : List Validator} (h : (any cs).run v = .error (.invalid e)) : AnyReports cs v e := by
  have hrejected := rejects_any_iff.mp (rejects_iff_run_eq_error.mpr ⟨e, h⟩)
  obtain ⟨es, hes⟩ := exists_errors hrejected
  rw [run, runAlternatives_of_errors hes, decideAny_errors] at h
  cases h
  exact ⟨es, hes, fun a ha => accepts_eq_false_of_rejects (hrejected a ha), rfl, text_noAlternative es⟩

theorem rejected_of_union {bs : List (Primitive × Validator)} {mismatch : Option String}
    (h : (union bs mismatch).run v = .error (.invalid e)) : ∀ d ∈ (candidates v bs).map Prod.snd, d.rejects v = true := by
  intro d hd
  obtain ⟨b, hb, rfl⟩ := List.mem_map.mp hd
  obtain ⟨hmem, hcandidate⟩ := mem_candidates.mp hb
  exact (rejects_union_iff.mp (rejects_iff_run_eq_error.mpr ⟨e, h⟩)).2 b hmem (offers_iff.mpr hcandidate)

theorem run_union_of_errors {bs : List (Primitive × Validator)} {mismatch : Option String}
    {es : List ValidationError} (hv : v ≠ .null) (hes : Errors v ((candidates v bs).map Prod.snd) es) :
    (union bs mismatch).run v = decideUnion (bs.map Prod.fst) mismatch v (rejections es) := by
  rw [run_union hv, runBranches_of_errors hes]

/-- No error of a branch for dates or texts has a path. -/
theorem path_of_branch [Text.CharacterNames] {b : Primitive × Validator} (hb : BuildsBranch t b)
    (hp : RuleKind.hasAlternatives b.1 = true) (he : b.2.run v = .error (.invalid e)) : e.path = [] := by
  obtain ⟨hkind, hbuilt⟩ := hb
  rcases leaf_or_group_of_ofNode_eq_ok hbuilt with ⟨k, m, rfl⟩ | ⟨g, ts, hg⟩
  · cases k <;> cases hkind
  · rw [hg.kind?] at hkind
    cases g with
    | container p =>
      cases hkind
      obtain ⟨-, checks, message, hts, -, hc⟩ := (ofNode_container_eq_ok_iff hg).mp hbuilt
      rw [hc] at he
      rcases run_container_eq_error he with hpath | ⟨seen, -, he⟩
      · exact hpath
      · obtain ⟨_, d, _, rfl, -, hd⟩ := runAll_eq_error he
        obtain ⟨s, -, hs⟩ := exists_left_of_forall₂ hts (List.mem_append_right _ List.mem_cons_self)
        exact path_of_flat hp hs (fun _ hk => hk) hd
    | _ => cases hkind

theorem unionReports_of_error [Text.CharacterNames] {bs : List (Primitive × Validator)} {mismatch : Option String}
    (hbuilt : ∀ b ∈ bs, ∃ s, BuildsBranch s b) (hnodup : (bs.map Prod.fst).Nodup)
    (h : (union bs mismatch).run v = .error (.invalid e)) : UnionReports bs mismatch v (candidates v bs) e := by
  have hv : v ≠ .null := by
    intro hv
    rw [hv, run_union_null] at h
    cases h
  obtain ⟨es, hes⟩ := exists_errors (rejected_of_union h)
  have hlen : (candidates v bs).length ≤ 2 := length_candidates_le hnodup
  have hsub : ((candidates v bs).map Prod.fst).Sublist (bs.map Prod.fst) := List.filter_sublist.map _
  have hkinds : ((candidates v bs).map Prod.fst).Nodup := hnodup.sublist hsub
  have hmem : ∀ b ∈ candidates v bs, (∃ s, BuildsBranch s b) ∧ Candidate v b.1 := fun b hb =>
    ⟨hbuilt b (mem_candidates.mp hb).1, (mem_candidates.mp hb).2⟩
  rw [run_union_of_errors hv hes] at h
  generalize candidates v bs = cs at hes hlen hkinds hmem ⊢
  match cs with
  | [] =>
    cases hes
    cases h
    refine .none rfl ?_
    cases mismatch with
    | none => exact text_noBranch bs v.kind
    | some text => rfl
  | [b] =>
    rw [List.map_cons, List.map_nil] at hes
    obtain ⟨f, fs, hf, hfs, rfl⟩ := List.forall₂_cons_left_iff.mp hes
    cases hfs
    cases h
    exact .one hf
  | [b, d] =>
    rw [List.map_cons, List.map_cons, List.map_nil] at hes
    obtain ⟨f, fs, hf, hfs, rfl⟩ := List.forall₂_cons_left_iff.mp hes
    obtain ⟨g, gs, hg, hgs, rfl⟩ := List.forall₂_cons_left_iff.mp hfs
    cases hgs
    obtain ⟨⟨s, hs⟩, hb⟩ := hmem b (by simp)
    obtain ⟨⟨u, hu⟩, hd⟩ := hmem d (by simp)
    have hne : b.1 ≠ d.1 := by
      simp only [List.map_cons, List.nodup_cons, List.mem_cons, not_or] at hkinds
      exact hkinds.1.1
    obtain ⟨⟨text, rfl⟩, hpair⟩ := kinds_of_candidates hne hb hd
    have hflat : RuleKind.hasAlternatives b.1 = true ∧ RuleKind.hasAlternatives d.1 = true := by
      rcases hpair with ⟨hb, hd⟩ | ⟨hb, hd⟩
      · rw [hb, hd]
        decide
      · rw [hb, hd]
        decide
    rw [decideUnion_errors] at h
    cases h
    exact .both rfl hpair hf hg (path_of_branch hs hflat.1 hf) (path_of_branch hu hflat.2 hg) rfl
      (text_noMatch_pair f.message g.message)
  | _ :: _ :: _ :: _ =>
    simp only [List.length_cons] at hlen
    omega

theorem mismatch_of_builds {allowed : List RuleKind} {ms : List Value} {message : Option String}
    (h : MismatchBuilds allowed false ms message) : message = ms.head?.bind givenMessage := by
  match ms, h with
  | [], h => exact h
  | [m], h =>
    obtain ⟨-, -, -, hm⟩ := mismatchMessage_eq_ok_iff.mp h
    exact hm.symm

end Reports

/-- Wherever a union or a row of alternatives stands and whatever it rejects, its error is the report of what it tries. The
branches and the alternatives are the validators of the children, in their order. -/
theorem failure_reported [Text.CharacterNames] {allowed : List RuleKind} {parent : Option RuleKind} {t : Tree}
    {c : Validator} (h : ofNode allowed parent t = .ok c) :
    (∀ ts, t.Comprises .union ts → ∃ bs mismatch, c = .union bs mismatch ∧
      List.Forall₂ (fun s b => s.kind? = some (.container b.1) ∧ ofTree s = .ok b.2) (Tree.proper ts) bs ∧
      mismatch = (Tree.mismatches ts).head?.bind givenMessage ∧
      ∀ v e, c.run v = .error (.invalid e) → UnionReports bs mismatch v (candidates v bs) e) ∧
    (∀ ts, t.Comprises .any ts → ∃ p alternatives, parent = some (.container p) ∧ c = .any alternatives ∧
      List.Forall₂ (fun s a => ofNode (RuleKind.alternativesOf p) (some (.container p)) s = .ok a) ts alternatives ∧
      ∀ v e, c.run v = .error (.invalid e) → AnyReports alternatives v e) := by
  constructor
  · intro ts hunion
    obtain ⟨-, bs, mismatch, hts, hnodup, hms, -, rfl⟩ := (ofNode_union_eq_ok_iff hunion).mp h
    refine ⟨bs, mismatch, rfl, ?_, mismatch_of_builds hms, fun v e he => ?_⟩
    · refine forall₂_imp_of_mem hts fun s _ b hb => ⟨hb.1, ?_⟩
      exact ofTree_eq_ok_of_bindable hb.2 fun _ hk => RuleKind.values_bindable hk
    · refine unionReports_of_error (fun b hb => ?_) hnodup he
      obtain ⟨s, -, hs⟩ := exists_left_of_forall₂ hts hb
      exact ⟨s, hs⟩
  · intro ts hany
    obtain ⟨-, p, alternatives, hparent, -, -, hts, -, rfl⟩ := (ofNode_any_eq_ok_iff hany).mp h
    exact ⟨p, alternatives, hparent, rfl, hts, fun v e he => anyReports_of_error he⟩

open Text.CommonNames

/-- A text that names a date: as a text too short, as a date too early. -/
theorem failure_reported_early :
    ∃ (t : Tree) (c : Validator) (v : Value) (e : ValidationError),
      t = .union [.container .string [.bound .min (.number (.int 12))],
        .container .date [.dateBound .notBefore (.str "2020-01-01")]] ∧
      v = .str "2019-05-01" ∧ ofTree t = .ok c ∧ c.run v = .error (.invalid e) ∧
      ∃ bs mismatch, c = .union bs mismatch ∧ UnionReports bs mismatch v (candidates v bs) e := by
  let t : Tree := .union [.container .string [.bound .min (.number (.int 12))],
    .container .date [.dateBound .notBefore (.str "2020-01-01")]]
  let v : Value := .str "2019-05-01"
  obtain ⟨c, hc⟩ : ∃ c, ofTree t = .ok c := ⟨_, rfl⟩
  obtain ⟨e, he⟩ : ∃ e, c.run v = .error (.invalid e) := by
    cases hc
    exact ⟨_, rfl⟩
  obtain ⟨bs, mismatch, hunion, -, -, hreports⟩ := (failure_reported hc).1 _ (.group _ _ _)
  exact ⟨t, c, v, e, rfl, rfl, hc, he, bs, mismatch, hunion, hreports v e he⟩

end RuleTree.Validator
