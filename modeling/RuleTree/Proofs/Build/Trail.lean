import RuleTree.Proofs.Build.Nodes
import RuleTree.Proofs.Build.Site
import RuleTree.Rule.Build
import RuleTree.Text.CommonNames

/-!
# Where a fault of building comes from

The path of a fault leads from the root of the tree to one entry. Every step of the path is the step out of the rule that it
leaves, all entries before the one that is taken are in order where they stand, and the fault is one of the entry itself.
-/

namespace RuleTree

namespace Validator

open RuleTree.Tree (Trail)

/-! ### Rows of entries -/

theorem mismatches_concat {s : Tree} (ts : List Tree) :
    Tree.mismatches (ts ++ [s]) = Tree.mismatches ts ++ s.mismatch?.toList := by
  unfold Tree.mismatches
  rw [List.filterMap_append]
  cases hs : s.mismatch? with
  | none => simp [hs]
  | some m => simp [hs]

def seenIn (ts : List Tree) : Bool := !(Tree.mismatches ts).isEmpty

theorem seenIn_eq_false_iff {ts : List Tree} : seenIn ts = false ↔ Tree.mismatches ts = [] := by
  simp [seenIn]

theorem seenIn_concat_mismatch (ts : List Tree) (m : Value) : seenIn (ts ++ [.check .mismatch m]) = true := by
  simp [seenIn, mismatches_concat, Tree.mismatch?]

theorem seenIn_concat {s : Tree} (h : s.isMismatch = false) (ts : List Tree) : seenIn (ts ++ [s]) = seenIn ts := by
  simp [seenIn, mismatches_concat, Tree.isMismatch_eq_false_iff.mp h]

section Names

variable [Text.CharacterNames]

/-- A failure of an entry in a row: of its own, or of the build of a rule. -/
def EntryFails (site : Site) (before : List Tree) (s : Tree) (f : SchemaError) : Prop :=
  (f.path = [] ∧ site.OwnFault before s f.fault) ∨ ofNode site.allowed site.parent s = .error (.schema f)

/-- A row fails at its first entry that is not in order. -/
def RowFails (site : Site) (k : RuleKind) (ts : List Tree) (e : SchemaError) : Prop :=
  ∃ before s after f, ts = before ++ s :: after ∧ site.LegalRow before ∧ EntryFails site before s f ∧
    e = f.within (childStep k (before.length + 1))

theorem entryFails_of_mismatchMessage {site : Site} {before : List Tree} {allowed : List RuleKind} {m : Value}
    {f : SchemaError} (hsite : site.takesMismatch = allowed.contains .mismatch)
    (h : mismatchMessage allowed (seenIn before) m = .error (.schema f)) :
    EntryFails site before (.check .mismatch m) f := by
  have hpath : f.path = [] := (simple_mismatchMessage _ _ _).plain f h
  refine .inl ⟨hpath, ?_⟩
  unfold mismatchMessage ensure at h
  cases hallowed : allowed.contains .mismatch with
  | false =>
    simp only [hallowed] at h
    cases h
    exact .misplaced (hsite.trans hallowed)
  | true =>
    have htakes := hsite.trans hallowed
    cases hseen : seenIn before with
    | true =>
      simp only [hallowed, hseen] at h
      cases h
      refine .repeated htakes fun hnone => ?_
      rw [seenIn_eq_false_iff.mpr hnone] at hseen
      cases hseen
    | false =>
      simp only [hallowed, hseen] at h
      have h : messageOf .mismatch m = .error (.schema f) := h
      have hm : ¬IsMessage m := fun hm => by
        have hok := messageOf_eq_ok_iff (k := .mismatch).mpr ⟨hm, rfl⟩
        rw [h] at hok
        cases hok
      have hfault : f.fault = .messageNotText .mismatch := by
        cases m with
        | null => cases h
        | str s => cases h
        | _ =>
          cases h
          rfl
      rw [hfault]
      exact .message htakes (seenIn_eq_false_iff.mp hseen) hm

theorem legal_of_mismatchMessage (site : Site) {before : List Tree} {allowed : List RuleKind} {m : Value}
    {message : Option String} (hsite : site.takesMismatch = allowed.contains .mismatch)
    (h : mismatchMessage allowed (seenIn before) m = .ok message) : site.Legal before (.check .mismatch m) := by
  obtain ⟨hallowed, hseen, hm, -⟩ := mismatchMessage_eq_ok_iff.mp h
  have htakes : site.takesMismatch = true := hsite.trans (List.contains_iff_mem.mpr hallowed)
  exact .inr ⟨htakes, seenIn_eq_false_iff.mp hseen, m, rfl, hm⟩

theorem RowFails.of_entry {site : Site} {k : RuleKind} {before ts : List Tree} {s : Tree} {f : SchemaError}
    (hbefore : site.LegalRow before) (hs : EntryFails site before s f) :
    RowFails site k (before ++ s :: ts) (f.within (childStep k (before.length + 1))) :=
  ⟨before, s, ts, f, rfl, hbefore, hs, rfl⟩

/-- Checks: behind entries that are in order, the first that is not is where the build fails. -/
theorem rowFails_of_ofChildren {allowed : List RuleKind} {parent : Option RuleKind} {owner : RuleKind}
    (before : List Tree) {ts : List Tree} {e : SchemaError} (hbefore : (Site.ofKinds allowed parent).LegalRow before)
    (h : ofChildren allowed parent owner (before.length + 1) (seenIn before) ts = .error (.schema e)) :
    RowFails (.ofKinds allowed parent) owner (before ++ ts) e := by
  induction ts generalizing before e with
  | nil =>
    rw [ofChildren_nil] at h
    cases h
  | cons t ts ih =>
    have hlength (s : Tree) : (before ++ [s]).length + 1 = before.length + 1 + 1 := by simp
    have happend : before ++ t :: ts = before ++ [t] ++ ts := by simp
    cases hm : t.isMismatch with
    | true =>
      obtain ⟨m, rfl⟩ := Tree.eq_mismatch_of_isMismatch hm
      rw [ofChildren] at h
      rcases bind_eq_error_iff.mp h with h | ⟨message, hmessage, h⟩
      · obtain ⟨f, hf, rfl⟩ := exists_of_within_eq_error h
        exact .of_entry hbefore (entryFails_of_mismatchMessage rfl hf)
      · have hlegal := legal_of_mismatchMessage (.ofKinds allowed parent) rfl (within_eq_ok_iff.mp hmessage)
        rcases bind_eq_error_iff.mp h with h | ⟨_, -, h⟩
        · rw [happend]
          refine ih _ (Site.legalRow_concat hbefore hlegal) ?_
          rw [hlength, seenIn_concat_mismatch]
          exact h
        · exact absurd h pure_ne_error
    | false =>
      rw [ofChildren_cons hm] at h
      rcases bind_eq_error_iff.mp h with h | ⟨c, hc, h⟩
      · obtain ⟨f, hf, rfl⟩ := exists_of_within_eq_error h
        exact .of_entry hbefore (.inr hf)
      · have hlegal : (Site.ofKinds allowed parent).Legal before t :=
          .inl ⟨c, within_eq_ok_iff.mp hc, fun hd => by cases hd⟩
        rcases bind_eq_error_iff.mp h with h | ⟨_, -, h⟩
        · rw [happend]
          refine ih _ (Site.legalRow_concat hbefore hlegal) ?_
          rw [hlength, seenIn_concat hm]
          exact h
        · exact absurd h pure_ne_error

/-- Branches: the kinds declared so far are those of the entries before. -/
theorem rowFails_of_ofUnion (before : List Tree) {ts : List Tree} (declared : List Primitive) {e : SchemaError}
    (hbefore : Site.branches.LegalRow before)
    (hdeclared : ∀ p, p ∈ declared ↔ some (.container p) ∈ before.map Tree.kind?)
    (h : ofUnion (before.length + 1) (seenIn before) declared ts = .error (.schema e)) :
    RowFails .branches .union (before ++ ts) e := by
  induction ts generalizing before declared e with
  | nil =>
    rw [ofUnion_nil] at h
    cases h
  | cons t ts ih =>
    have hlength (s : Tree) : (before ++ [s]).length + 1 = before.length + 1 + 1 := by simp
    have happend : before ++ t :: ts = before ++ [t] ++ ts := by simp
    cases hm : t.isMismatch with
    | true =>
      obtain ⟨m, rfl⟩ := Tree.eq_mismatch_of_isMismatch hm
      rw [ofUnion] at h
      rcases bind_eq_error_iff.mp h with h | ⟨message, hmessage, h⟩
      · obtain ⟨f, hf, rfl⟩ := exists_of_within_eq_error h
        exact .of_entry hbefore (entryFails_of_mismatchMessage rfl hf)
      · have hlegal := legal_of_mismatchMessage .branches rfl (within_eq_ok_iff.mp hmessage)
        rcases bind_eq_error_iff.mp h with h | ⟨_, -, h⟩
        · rw [happend]
          refine ih _ declared (Site.legalRow_concat hbefore hlegal) ?_ ?_
          · simp [hdeclared, Tree.kind?, Check.kind?]
          · rw [hlength, seenIn_concat_mismatch]
            exact h
        · exact absurd h pure_ne_error
    | false =>
      cases hbuild : ofNode RuleKind.values (some .union) t with
      | error b =>
        rw [ofUnion_of_error hm hbuild] at h
        obtain ⟨f, hf, rfl⟩ := exists_of_within_eq_error h
        cases hf
        exact .of_entry hbefore (.inr hbuild)
      | ok c =>
        obtain ⟨k, hk, hkind⟩ := kind?_of_ofNode_eq_ok hbuild
        obtain ⟨p, rfl⟩ := RuleKind.mem_values.mp hk
        rw [ofUnion_cons hkind, hbuild] at h
        have h : (within (childStep .union (before.length + 1)) (ensure (!declared.contains p) (.duplicateType p)) >>=
            fun _ => ofUnion (before.length + 1 + 1) (seenIn before) (p :: declared) ts >>= fun rest =>
              pure ((p, c) :: rest.1, rest.2)) = .error (.schema e) := h
        cases hp : declared.contains p with
        | true =>
          rw [hp] at h
          cases h
          have hmem := (hdeclared p).mp (List.contains_iff_mem.mp hp)
          exact .of_entry (f := { fault := .duplicateType p }) hbefore (.inl ⟨rfl, .duplicate rfl hbuild hkind hmem⟩)
        | false =>
          rw [hp] at h
          have hnot : t.kind? ∉ before.map Tree.kind? := by
            rw [hkind, ← hdeclared, ← List.contains_iff_mem, hp]
            simp
          have hlegal : Site.branches.Legal before t := .inl ⟨c, hbuild, fun _ => hnot⟩
          rcases bind_eq_error_iff.mp h with h | ⟨_, -, h⟩
          · cases h
          rcases bind_eq_error_iff.mp h with h | ⟨_, -, h⟩
          · rw [happend]
            refine ih _ (p :: declared) (Site.legalRow_concat hbefore hlegal) ?_ ?_
            · intro q
              rw [List.mem_cons, List.map_append, List.mem_append, hdeclared q]
              simp [hkind, or_comm]
            · rw [hlength, seenIn_concat hm]
              exact h
          · exact absurd h pure_ne_error

/-! ### Trees -/

/-- Every fault of a tree, wherever the tree stands, leads to an entry whose own fault it is. -/
def Traced (t : Tree) : Prop :=
  ∀ (site : Site) (before : List Tree) {e : SchemaError}, ofNode site.allowed site.parent t = .error (.schema e) →
    ∃ last bs s, Trail site before t e.path last bs s ∧ last.OwnFault bs s e.fault

section Trees

variable {t : Tree} {ts : List Tree} {site : Site} {before : List Tree} {e : SchemaError}

theorem trail_of_path_eq_nil (h : ofNode site.allowed site.parent t = .error (.schema e)) (hpath : e.path = []) :
    ∃ last bs s, Trail site before t e.path last bs s ∧ last.OwnFault bs s e.fault := by
  obtain ⟨f, path⟩ := e
  obtain rfl : path = [] := hpath
  exact ⟨site, before, t, .here, .node h⟩

theorem trail_of_rowFails {g : Group} {k : RuleKind} {inner : Site} (h : t.Comprises g ts) (hk : g.kind? = some k)
    (hsite : Site.ofRow? site.parent g = some inner) (hrow : RowFails inner k ts e) (ih : ∀ s ∈ ts, Traced s) :
    ∃ last bs s, Trail site before t e.path last bs s ∧ last.OwnFault bs s e.fault := by
  obtain ⟨row, s, after, f, rfl, hlegal, hentry, rfl⟩ := hrow
  rcases hentry with ⟨hpath, hown⟩ | hs
  · refine ⟨inner, row, s, ?_, hown⟩
    rw [SchemaError.path_within, hpath]
    exact .entry h hk hsite hlegal .here
  · obtain ⟨last, bs, u, htrail, hown⟩ := ih s (by simp) inner row hs
    exact ⟨last, bs, u, .entry h hk hsite hlegal htrail, hown⟩

theorem traced_container {p : Primitive} (h : t.Comprises (.container p) ts) (ih : ∀ s ∈ ts, Traced s) : Traced t := by
  intro site before e he
  by_cases hpath : e.path = []
  · exact trail_of_path_eq_nil he hpath
  rw [ofNode_of_comprises h, ofNode] at he
  obtain ⟨_, -, he⟩ := error_behind (simple_gate _ _) hpath he
  have hrow := error_before (fun _ => simple_pure _) hpath he
  exact trail_of_rowFails h rfl rfl (rowFails_of_ofChildren [] (Site.legalRow_nil _) hrow) ih

theorem traced_union (h : t.Comprises .union ts) (ih : ∀ s ∈ ts, Traced s) : Traced t := by
  intro site before e he
  by_cases hpath : e.path = []
  · exact trail_of_path_eq_nil he hpath
  rw [ofNode_of_comprises h, ofNode] at he
  obtain ⟨_, -, he⟩ := error_behind (simple_gate _ _) hpath he
  have hrow := error_before (fun _ => simple_ofBranches _ _) hpath he
  have hnone : ∀ p, p ∈ [] ↔ some (.container p) ∈ ([] : List Tree).map Tree.kind? := by simp
  exact trail_of_rowFails h rfl rfl (rowFails_of_ofUnion [] [] (Site.legalRow_nil _) hnone hrow) ih

theorem traced_any (h : t.Comprises .any ts) (ih : ∀ s ∈ ts, Traced s) : Traced t := by
  intro site before e he
  by_cases hpath : e.path = []
  · exact trail_of_path_eq_nil he hpath
  rw [ofNode_of_comprises h, ofNode] at he
  obtain ⟨_, -, he⟩ := error_behind (simple_gate _ _) hpath he
  obtain ⟨kinds, hkinds, he⟩ := error_behind (simple_alternativesIn _) hpath he
  have hrow := error_before (fun _ => simple_ofAlternatives _) hpath he
  obtain ⟨p, hparent, hp, rfl⟩ := alternativesIn_eq_ok_iff.mp hkinds
  have hsite : Site.ofRow? site.parent .any = some (.ofKinds (RuleKind.alternativesOf p) site.parent) := by
    simp [Site.ofRow?, hparent, hp]
  exact trail_of_rowFails h rfl hsite (rowFails_of_ofChildren [] (Site.legalRow_nil _) hrow) ih

theorem traced_prop {name : Value} (h : t.Comprises (.prop name) ts) (ih : ∀ s ∈ ts, Traced s) : Traced t := by
  intro site before e he
  by_cases hpath : e.path = []
  · exact trail_of_path_eq_nil he hpath
  rw [ofNode_of_comprises h] at he
  match ts with
  | [s] =>
    rw [ofNode] at he
    obtain ⟨_, -, he⟩ := error_behind (simple_gate _ _) hpath he
    obtain ⟨_, -, he⟩ := error_behind (simple_ensure _ _) hpath he
    obtain ⟨key, hkey, he⟩ := error_behind (simple_propName _) hpath he
    have hchild := error_before (fun _ => simple_pure _) hpath he
    obtain ⟨f, hf, rfl⟩ := exists_of_within_eq_error hchild
    obtain ⟨rfl, -⟩ := propName_eq_ok_iff.mp hkey
    obtain ⟨last, bs, u, htrail, hown⟩ := ih s List.mem_cons_self (.bound .prop) [] hf
    exact ⟨last, bs, u, .property h htrail, hown⟩
  | [] =>
    rw [ofNode] at he
    · exact absurd (path_of_fault_bind (simple_gate _ _) he) hpath
    · simp
  | _ :: _ :: _ =>
    rw [ofNode] at he
    · exact absurd (path_of_fault_bind (simple_gate _ _) he) hpath
    · simp

theorem traced_item (h : t.Comprises .item ts) (ih : ∀ s ∈ ts, Traced s) : Traced t := by
  intro site before e he
  by_cases hpath : e.path = []
  · exact trail_of_path_eq_nil he hpath
  rw [ofNode_of_comprises h] at he
  match ts with
  | [s] =>
    rw [ofNode] at he
    obtain ⟨_, -, he⟩ := error_behind (simple_gate _ _) hpath he
    obtain ⟨_, -, he⟩ := error_behind (simple_ensure _ _) hpath he
    have hchild := error_before (fun _ => simple_pure _) hpath he
    obtain ⟨f, hf, rfl⟩ := exists_of_within_eq_error hchild
    obtain ⟨last, bs, u, htrail, hown⟩ := ih s List.mem_cons_self (.bound .item) [] hf
    exact ⟨last, bs, u, .element h htrail, hown⟩
  | [] =>
    rw [ofNode] at he
    · exact absurd (path_of_fault_bind (simple_gate _ _) he) hpath
    · simp
  | _ :: _ :: _ =>
    rw [ofNode] at he
    · exact absurd (path_of_fault_bind (simple_gate _ _) he) hpath
    · simp

theorem traced_required {m : Value} (h : t.Comprises (.required m) ts) (ih : ∀ s ∈ ts, Traced s) : Traced t := by
  intro site before e he
  by_cases hpath : e.path = []
  · exact trail_of_path_eq_nil he hpath
  rw [ofNode_of_comprises h] at he
  match ts with
  | [] =>
    rw [ofNode] at he
    obtain ⟨_, -, he⟩ := error_behind (simple_gate _ _) hpath he
    exact absurd ((simple_ofEmpty _ _).plain e he) hpath
  | [s] =>
    rw [ofNode] at he
    obtain ⟨_, -, he⟩ := error_behind (simple_gate _ _) hpath he
    have hmessage : ∀ inner, Simple (messageOf .required m >>= fun message => pure (required (some inner) message)) :=
      fun _ => (simple_messageOf _ m).bind fun _ => simple_pure _
    have hchild := error_before hmessage hpath he
    obtain ⟨f, hf, rfl⟩ := exists_of_within_eq_error hchild
    obtain ⟨last, bs, u, htrail, hown⟩ := ih s List.mem_cons_self .wrapped [] hf
    exact ⟨last, bs, u, .required h htrail, hown⟩
  | _ :: _ :: _ =>
    rw [ofNode] at he
    · exact absurd (path_of_fault_bind (simple_gate _ _) he) hpath
    · simp
    · simp

theorem traced_kindless {name : String} (h : t.Comprises (.kindless name) ts) : Traced t := by
  intro site before e he
  refine trail_of_path_eq_nil he ?_
  rw [ofNode_of_comprises h, ofNode] at he
  exact path_of_fault_bind (simple_gate _ _) he

theorem traced_of_comprises {g : Group} (h : t.Comprises g ts) (ih : ∀ s ∈ ts, Traced s) : Traced t := by
  cases g with
  | any => exact traced_any h ih
  | union => exact traced_union h ih
  | container p => exact traced_container h ih
  | prop name => exact traced_prop h ih
  | item => exact traced_item h ih
  | required m => exact traced_required h ih
  | kindless name => exact traced_kindless h

theorem traced (t : Tree) : Traced t := by
  induction t using Tree.induct with
  | stray v =>
    intro site before e he
    refine trail_of_path_eq_nil he ?_
    rw [ofNode_stray] at he
    exact (simple_fault _).plain e he
  | check c m =>
    intro site before e he
    refine trail_of_path_eq_nil he ?_
    rw [ofNode_check] at he
    exact (simple_gate _ _).plain.bind (fun _ => plain_ofCheck c m _) e he
  | unlisted g rules =>
    intro site before e he
    refine trail_of_path_eq_nil he ?_
    rw [ofNode] at he
    exact ((simple_gate _ _).bind fun k => simple_ofUnlisted g k rules _).plain e he
  | group g row ts ih => exact traced_of_comprises (.group g row ts) ih

end Trees

/-- The path of a fault of a tree leads to an entry, behind entries that are in order at every rule on the way, and the
fault is the entry's own. -/
theorem fault_leads_to_offender {t : Tree} {e : SchemaError} (h : ofTree t = .error (.schema e)) :
    ∃ site before s, t.follow? e.path = some s ∧ Trail .root [] t e.path site before s ∧
      site.OwnFault before s e.fault := by
  obtain ⟨site, before, s, htrail, hown⟩ := traced t .root [] h
  exact ⟨site, before, s, htrail.follow?, htrail, hown⟩

end Names

open Text.CommonNames

/-- A bound without a number, as the second alternative of the second check of the elements of a property. -/
theorem fault_leads_to_offender_scores :
    ∃ (t : Tree) (e : SchemaError),
      t = .container .object [.mismatch, .prop (.str "scores") [.container .array [.item [.container .number
        [.bound .min (.number (.int 0)), .any [.equal (.number (.int 1)), .bound .less (.str "nine")]]]]]] ∧
      ofTree t = .error (.schema e) ∧ e.fault = .boundLimit .less ∧
      e.path = [{ kind := "object", index := some 2 }, { kind := "prop", name := some (.text "scores") },
        { kind := "array", index := some 1 }, { kind := "item" }, { kind := "number", index := some 2 },
        { kind := "any", index := some 2 }] ∧
      ∃ site before s, t.follow? e.path = some s ∧ Trail .root [] t e.path site before s ∧
        site.OwnFault before s e.fault := by
  let t : Tree := .container .object [.mismatch, .prop (.str "scores") [.container .array [.item [.container .number
    [.bound .min (.number (.int 0)), .any [.equal (.number (.int 1)), .bound .less (.str "nine")]]]]]]
  obtain ⟨e, he, hfault, hpath⟩ : ∃ e, ofTree t = .error (.schema e) ∧ e.fault = .boundLimit .less ∧
      e.path = [{ kind := "object", index := some 2 }, { kind := "prop", name := some (.text "scores") },
        { kind := "array", index := some 1 }, { kind := "item" }, { kind := "number", index := some 2 },
        { kind := "any", index := some 2 }] := ⟨_, rfl, rfl, rfl⟩
  exact ⟨t, e, rfl, he, hfault, hpath, fault_leads_to_offender he⟩

end Validator

end RuleTree
