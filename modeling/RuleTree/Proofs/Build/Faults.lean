import RuleTree.Proofs.Build.Outcome

/-!
# Faults of building

What it says about the steps of a build that the whole fails: one step fails, behind steps that succeed. A simple build finds
no fault but its own, so that no trail leads away from the rule; all that is asked of a rule before and after its children
is simple. Two leaves are not: the numbers in the expression of a pattern may be out of bounds, and the value of an equal rule
may be too long an integer to be told.
-/

namespace RuleTree.Validator

/-! ### Steps -/

/-- An end of a build that is no fault of the tree. -/
inductive Exit
  | overflow (cause : PatternFault)
  | unwritable

def Exit.error : Exit → BuildError
  | .overflow cause => .overflow cause
  | .unwritable => .unwritable

theorem Exit.error_ne_schema (exit : Exit) (e : SchemaError) : exit.error ≠ .schema e := by
  intro h
  cases exit <;> cases h

theorem Exit.error_injective : Function.Injective Exit.error := by
  intro a b h
  cases a <;> cases b <;> cases h <;> rfl

/-- A build fails with a fault of the tree or takes an exit. -/
theorem schema_or_exit (b : BuildError) : (∃ e, b = .schema e) ∨ ∃ exit : Exit, b = exit.error := by
  cases b with
  | schema e => exact .inl ⟨e, rfl⟩
  | overflow cause => exact .inr ⟨.overflow cause, rfl⟩
  | unwritable => exact .inr ⟨.unwritable, rfl⟩

section Within

variable {α : Type} {step : Step} {x : Build α} {e : SchemaError} {exit : Exit}

theorem within_schema (hstep : step.isWritable = true) (e : SchemaError) :
    within step (.error (.schema e) : Build α) = .error (.schema (e.within step)) :=
  congrArg Except.error (if_pos hstep)

theorem exists_of_within_eq_error (h : within step x = .error (.schema e)) :
    ∃ f, x = .error (.schema f) ∧ e = f.within step := by
  obtain ⟨b, rfl⟩ : ∃ b, x = .error b := by
    cases x with
    | ok a => cases h
    | error b => exact ⟨b, rfl⟩
  have hb : b.within step = .schema e := Except.error.inj h
  cases b with
  | schema f =>
    rw [BuildError.within] at hb
    split at hb
    · cases hb
      exact ⟨f, rfl, rfl⟩
    · cases hb
  | overflow cause => cases hb
  | unwritable => cases hb

/-- An exit is passed on as it is; a fault becomes one where the step to it cannot be told. -/
theorem within_eq_exit_iff : within step x = .error exit.error ↔
    x = .error exit.error ∨ exit = .unwritable ∧ step.isWritable = false ∧ ∃ f, x = .error (.schema f) := by
  cases x with
  | ok a =>
    refine iff_of_false (fun h => by cases h) ?_
    rintro (h | ⟨-, -, f, h⟩) <;> cases h
  | error b =>
    cases b with
    | schema f =>
      have hne : (.error (.schema f) : Build α) ≠ .error exit.error := fun h =>
        exit.error_ne_schema f (Except.error.inj h).symm
      rw [or_iff_right hne]
      cases hstep : step.isWritable with
      | true =>
        rw [within_schema hstep]
        exact iff_of_false (fun h => exit.error_ne_schema _ (Except.error.inj h).symm) fun h => by cases h.2.1
      | false =>
        have hwithin : within step (.error (.schema f) : Build α) = .error Exit.unwritable.error :=
          congrArg Except.error (if_neg (by rw [hstep]; exact Bool.false_ne_true))
        rw [hwithin, Except.error.injEq, Exit.error_injective.eq_iff]
        exact ⟨fun h => ⟨h.symm, rfl, f, rfl⟩, fun h => h.1.symm⟩
    | overflow cause =>
      refine (or_iff_left ?_).symm
      rintro ⟨-, -, f, h⟩
      cases h
    | unwritable =>
      refine (or_iff_left ?_).symm
      rintro ⟨-, -, f, h⟩
      cases h

theorem within_eq_exit_iff_of_writable (hstep : step.isWritable = true) :
    within step x = .error exit.error ↔ x = .error exit.error := by
  rw [within_eq_exit_iff, hstep]
  exact or_iff_left fun h => by cases h.2.1

end Within

/-! ### Builds that look no further than the rule -/

/-- A build that fails with nothing but a fault of the rule itself. -/
def Simple {α : Type} (x : Build α) : Prop := ∀ b, x = .error b → ∃ f, b = .ofFault f

/-- The faults that a build finds are those of the rule itself. -/
def Plain {α : Type} (x : Build α) : Prop := ∀ e, x = .error (.schema e) → e.path = []

section Simple

variable {α β : Type}

theorem simple_ok (a : α) : Simple (.ok a : Build α) := by
  intro b h
  cases h

theorem simple_pure (a : α) : Simple (pure a : Build α) := simple_ok a

theorem simple_fault (f : SchemaFault) : Simple (fault f : Build α) := by
  intro b h
  cases h
  exact ⟨f, rfl⟩

theorem simple_ensure (holds : Bool) (f : SchemaFault) : Simple (ensure holds f) := by
  cases holds with
  | false => exact simple_fault f
  | true => exact simple_ok ()

theorem Simple.bind {x : Build α} {f : α → Build β} (hx : Simple x) (hf : ∀ a, Simple (f a)) : Simple (x >>= f) := by
  intro b h
  rcases bind_eq_error_iff.mp h with h | ⟨a, -, h⟩
  · exact hx b h
  · exact hf a b h

theorem Simple.map {x : Build α} (hx : Simple x) (f : α → β) : Simple (x.map f) := by
  intro b h
  exact hx b (map_eq_error_iff.mp h)

theorem Simple.plain {x : Build α} (hx : Simple x) : Plain x := by
  intro e h
  obtain ⟨f, hf⟩ := hx _ h
  cases hf
  rfl

theorem Simple.ne_exit {x : Build α} (hx : Simple x) (exit : Exit) : x ≠ .error exit.error := by
  intro h
  obtain ⟨f, hf⟩ := hx _ h
  exact exit.error_ne_schema _ hf

theorem Plain.bind {x : Build α} {f : α → Build β} (hx : Plain x) (hf : ∀ a, Plain (f a)) : Plain (x >>= f) := by
  intro e h
  rcases bind_eq_error_iff.mp h with h | ⟨a, -, h⟩
  · exact hx e h
  · exact hf a e h

/-- A fault that lies further down is not found by a simple step, be it the first or the last. -/
theorem error_behind {x : Build α} {f : α → Build β} {e : SchemaError} (hx : Simple x) (hpath : e.path ≠ [])
    (h : x >>= f = .error (.schema e)) : ∃ a, x = .ok a ∧ f a = .error (.schema e) :=
  (bind_eq_error_iff.mp h).resolve_left fun h => hpath (hx.plain e h)

theorem error_before {x : Build α} {f : α → Build β} {e : SchemaError} (hf : ∀ a, Simple (f a)) (hpath : e.path ≠ [])
    (h : x >>= f = .error (.schema e)) : x = .error (.schema e) := by
  rcases bind_eq_error_iff.mp h with h | ⟨a, -, h⟩
  · exact h
  · exact absurd ((hf a).plain e h) hpath

theorem path_of_fault_bind {x : Build α} {f : SchemaFault} {e : SchemaError} (hx : Simple x)
    (h : (x >>= fun _ => fault f : Build β) = .error (.schema e)) : e.path = [] :=
  (hx.bind fun _ => simple_fault f).plain e h

end Simple

/-! ### Exits -/

section Exits

variable {α β : Type} {x : Build α} {f : α → Build β} {exit : Exit}

theorem exit_behind (hx : Simple x) :
    x >>= f = .error exit.error ↔ ∃ a, x = .ok a ∧ f a = .error exit.error := by
  rw [bind_eq_error_iff]
  exact or_iff_right (hx.ne_exit exit)

theorem exit_before (hf : ∀ a, Simple (f a)) : x >>= f = .error exit.error ↔ x = .error exit.error := by
  rw [bind_eq_error_iff]
  exact or_iff_left fun ⟨a, _, h⟩ => (hf a).ne_exit exit h

theorem ensureWritable_eq_exit_iff {v : Value} :
    ensureWritable v = .error exit.error ↔ exit = .unwritable ∧ v.isWritable = false := by
  unfold ensureWritable
  cases v.isWritable with
  | true => simp
  | false =>
    have hexit : (BuildError.unwritable = exit.error) ↔ exit = .unwritable :=
      ⟨fun h => Exit.error_injective h.symm, fun h => by rw [h]; rfl⟩
    simp [hexit]

theorem plain_ensureWritable (v : Value) : Plain (ensureWritable v) := by
  intro e h
  unfold ensureWritable at h
  split at h <;> cases h

end Exits

/-! ### What is asked of a rule -/

theorem simple_messageOf (k : RuleKind) (m : Value) : Simple (messageOf k m) := by
  cases m with
  | null => exact simple_ok none
  | str s => exact simple_ok _
  | _ => exact simple_fault _

theorem simple_gate (t : Tree) (allowed : List RuleKind) : Simple (gate t allowed) := by
  unfold gate
  split
  · exact simple_fault _
  · split
    · exact simple_ok _
    · exact simple_fault _

theorem simple_boundary (k : RuleKind) (field : String) (v : Value) : Simple (boundary k field v) := by
  unfold boundary
  split
  · exact simple_ok _
  · exact simple_fault _

theorem simple_propName (v : Value) : Simple (propName v) := by
  unfold propName
  split
  · split
    · exact simple_fault _
    · exact simple_ok _
  · exact simple_ok _
  · exact simple_fault _

theorem simple_alternativesIn (parent : Option RuleKind) : Simple (alternativesIn parent) := by
  unfold alternativesIn
  split
  · split
    · exact simple_ok _
    · exact simple_fault _
  · exact simple_fault _

theorem simple_ofAlternatives (cs : List Validator) : Simple (ofAlternatives cs) :=
  (simple_ensure _ _).bind fun _ => simple_pure _

theorem simple_ofBranches (bs : List (Primitive × Validator)) (mismatch : Option String) :
    Simple (ofBranches bs mismatch) :=
  (simple_ensure _ _).bind fun _ => simple_pure _

theorem simple_mismatchMessage (allowed : List RuleKind) (seen : Bool) (m : Value) :
    Simple (mismatchMessage allowed seen m) :=
  (simple_ensure _ _).bind fun _ => (simple_ensure _ _).bind fun _ => simple_messageOf _ m

/-! ### Leaves -/

/-- The value of an equal rule is told in its report, if it is of the right sort. -/
theorem ofEqual_eq_exit_iff {v m : Value} {parent : Option RuleKind} {exit : Exit} :
    ofEqual v m parent = .error exit.error ↔
      exit = .unwritable ∧ parent ≠ some (.container .date) ∧ v.kind = Kind.ofName (parentName parent) ∧
        (Kind.ofName (parentName parent) = .primitive .number → v.isNumber = true) ∧ v.isWritable = false := by
  unfold ofEqual
  by_cases hdate : parent = some (.container .date)
  · rw [if_pos hdate]
    refine iff_of_false (Simple.ne_exit ?_ exit) fun h => h.2.1 hdate
    split
    · exact (simple_messageOf _ m).bind fun _ => simple_pure _
    · exact simple_fault _
  · have hmessage (kind : Kind) : Simple (messageOf .equal m >>= fun message => pure (equal kind v message)) :=
      (simple_messageOf _ m).bind fun _ => simple_pure _
    rw [if_neg hdate]
    simp only [exit_behind (simple_ensure _ _), exit_before fun _ => hmessage _, ensure_eq_ok_iff, exists_const,
      ensureWritable_eq_exit_iff, decide_eq_true_eq, Bool.or_eq_true, ne_eq, hdate, not_false_eq_true, true_and,
      ← imp_iff_not_or]
    constructor
    · rintro ⟨hkind, hnumber, rfl, hw⟩
      exact ⟨rfl, hkind, hnumber, hw⟩
    · rintro ⟨rfl, hkind, hnumber, hw⟩
      exact ⟨hkind, hnumber, rfl, hw⟩

theorem plain_ofEqual (v m : Value) (parent : Option RuleKind) : Plain (ofEqual v m parent) := by
  unfold ofEqual
  split
  · split
    · exact ((simple_messageOf _ m).bind fun _ => simple_pure _).plain
    · exact (simple_fault _).plain
  · refine (simple_ensure _ _).plain.bind fun _ => (simple_ensure _ _).plain.bind fun _ => ?_
    refine (plain_ensureWritable v).bind fun _ => ?_
    exact ((simple_messageOf _ m).bind fun _ => simple_pure _).plain

theorem simple_ofBound (b : Bound) (v m : Value) (parent : Option RuleKind) : Simple (ofBound b v m parent) := by
  unfold ofBound
  split
  · exact simple_fault _
  · exact simple_fault _
  · exact (simple_messageOf _ m).bind fun _ => simple_pure _

theorem simple_ofRange (min max m : Value) : Simple (ofRange min max m) := by
  unfold ofRange
  split
  · exact simple_fault _
  · exact simple_fault _
  · exact (simple_ensure _ _).bind fun _ => (simple_messageOf _ m).bind fun _ => simple_pure _

theorem simple_ofDateBound (b : DateBound) (v m : Value) : Simple (ofDateBound b v m) :=
  (simple_boundary _ _ v).bind fun _ => (simple_messageOf _ m).bind fun _ => simple_pure _

theorem simple_ofBetween (first last m : Value) : Simple (ofBetween first last m) := by
  refine (simple_boundary _ _ first).bind fun _ => (simple_boundary _ _ last).bind fun _ => ?_
  exact (simple_ensure _ _).bind fun _ => (simple_messageOf _ m).bind fun _ => simple_pure _

/-! ### Groups without children -/

theorem simple_ofEmpty (g : Group) (parent : Option RuleKind) : Simple (ofEmpty g parent) := by
  cases g with
  | any => exact (simple_alternativesIn parent).bind fun _ => simple_ofAlternatives []
  | union => exact simple_ofBranches [] none
  | container p => exact simple_ok _
  | prop name => exact simple_fault _
  | item => exact simple_fault _
  | required m => exact (simple_messageOf _ m).map _
  | kindless name => exact simple_fault _

theorem simple_ofUnlisted (g : Group) (k : RuleKind) (rules : Value) (parent : Option RuleKind) :
    Simple (ofUnlisted g k rules parent) := by
  unfold ofUnlisted
  split
  · exact simple_ofEmpty g parent
  · split
    · exact (simple_alternativesIn parent).bind fun _ => simple_fault _
    · exact simple_fault _

/-! ### Patterns -/

section Patterns

variable [Text.CharacterNames]

/-- The expression of a pattern may hold a number that is out of bounds. -/
theorem ofPattern_eq_exit_iff {regex m : Value} {exit : Exit} :
    ofPattern regex m = .error exit.error ↔
      ∃ literal cause, regex = .str literal ∧ Pattern.read literal = .error cause ∧ cause.isOverflow = true ∧
        exit = .overflow cause := by
  cases regex with
  | str literal =>
    cases hp : Pattern.read literal with
    | error f =>
      cases hf : f.isOverflow with
      | true =>
        have hbuild : ofPattern (.str literal) m = .error (Exit.overflow f).error := by
          simp only [ofPattern, hp, hf, if_true]
          rfl
        rw [hbuild, Except.error.injEq, Exit.error_injective.eq_iff]
        constructor
        · rintro rfl
          exact ⟨literal, f, rfl, hp, hf, rfl⟩
        · rintro ⟨_, cause, ⟨⟩, hcause, -, rfl⟩
          cases hp.symm.trans hcause
          rfl
      | false =>
        refine iff_of_false (Simple.ne_exit ?_ exit) ?_
        · simp only [ofPattern, hp, hf, Bool.false_eq_true, if_false]
          exact simple_fault _
        · rintro ⟨_, cause, ⟨⟩, hcause, hoverflow, -⟩
          cases hp.symm.trans hcause
          cases hf.symm.trans hoverflow
    | ok p =>
      refine iff_of_false (Simple.ne_exit ?_ exit) ?_
      · simp only [ofPattern, hp]
        exact (simple_messageOf _ m).bind fun _ => simple_pure _
      · rintro ⟨_, cause, ⟨⟩, hcause, -⟩
        cases hp.symm.trans hcause
  | _ => exact iff_of_false ((simple_fault _).ne_exit exit) (by simp)

theorem plain_ofPattern (regex m : Value) : Plain (ofPattern regex m) := by
  unfold ofPattern
  split
  · split
    · exact ((simple_messageOf _ m).bind fun _ => simple_pure _).plain
    · split
      · intro e h
        cases h
      · exact (simple_fault _).plain
  · exact (simple_fault _).plain

/-! ### All leaves -/

/-- A leaf that is no fault of the tree and has no validator. -/
inductive CheckExits (parent : Option RuleKind) : Check → Exit → Prop
  | pattern {literal : String} {cause : PatternFault} (h : Pattern.read literal = .error cause)
      (hcause : cause.isOverflow = true) : CheckExits parent (.pattern (.str literal)) (.overflow cause)
  | equal {v : Value} (hdate : parent ≠ some (.container .date)) (hkind : v.kind = Kind.ofName (parentName parent))
      (hnumber : Kind.ofName (parentName parent) = .primitive .number → v.isNumber = true) (hw : v.isWritable = false) :
      CheckExits parent (.equal v) .unwritable

theorem ofCheck_eq_exit_iff {c : Check} {m : Value} {parent : Option RuleKind} {exit : Exit} :
    ofCheck c m parent = .error exit.error ↔ CheckExits parent c exit := by
  cases c with
  | equal v =>
    rw [ofCheck, ofEqual_eq_exit_iff]
    constructor
    · rintro ⟨rfl, hdate, hkind, hnumber, hw⟩
      exact .equal hdate hkind hnumber hw
    · intro h
      cases h with
      | equal hdate hkind hnumber hw => exact ⟨rfl, hdate, hkind, hnumber, hw⟩
  | pattern regex =>
    rw [ofCheck, ofPattern_eq_exit_iff]
    constructor
    · rintro ⟨literal, cause, rfl, hread, hcause, rfl⟩
      exact .pattern hread hcause
    · intro h
      cases h with
      | pattern hread hcause => exact ⟨_, _, rfl, hread, hcause, rfl⟩
  | bound b v => exact iff_of_false ((simple_ofBound b v m parent).ne_exit exit) fun h => by cases h
  | range min max => exact iff_of_false ((simple_ofRange min max m).ne_exit exit) fun h => by cases h
  | dateBound b v => exact iff_of_false ((simple_ofDateBound b v m).ne_exit exit) fun h => by cases h
  | between first last => exact iff_of_false ((simple_ofBetween first last m).ne_exit exit) fun h => by cases h
  | mismatch => exact iff_of_false ((simple_fault _).ne_exit exit) fun h => by cases h
  | kindless name v => exact iff_of_false ((simple_fault _).ne_exit exit) fun h => by cases h

theorem plain_ofCheck (c : Check) (m : Value) (parent : Option RuleKind) : Plain (ofCheck c m parent) := by
  cases c with
  | equal v => exact plain_ofEqual v m parent
  | bound b v => exact (simple_ofBound b v m parent).plain
  | range min max => exact (simple_ofRange min max m).plain
  | pattern regex => exact plain_ofPattern regex m
  | dateBound b v => exact (simple_ofDateBound b v m).plain
  | between first last => exact (simple_ofBetween first last m).plain
  | mismatch => exact (simple_fault _).plain
  | kindless name v => exact (simple_fault _).plain

end Patterns

end RuleTree.Validator
