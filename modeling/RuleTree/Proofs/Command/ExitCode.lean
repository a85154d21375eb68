import RuleTree.Command.Run
import RuleTree.Proofs.Build.Exits
import RuleTree.Proofs.Document.Language
import RuleTree.Proofs.Validator.Accepts

/-!
# Exit codes

What the code of a command says about the bytes of its files, whatever reads the values in them. The codes 0, 1 and 2 mean what
they promise, but for files that no command reports as unusable: those end the command with an uncaught cause, and with the code
of data that are not valid.
-/

namespace RuleTree

/-! ### Files -/

namespace Files

/-- A file stands at a name, in whichever way the name is written. -/
def Holds (files : Files) (name : String) (bytes : List UInt8) : Prop :=
  files name = .file bytes ∧ files (Path.ofText name).text = .file bytes

section Bytes

variable (readers : Readers) (path : Path) (bytes : List UInt8)

/-- The value that some bytes hold in a file at a path. -/
def valueOf : Except LoadFault Value :=
  match Text.Utf8.decode bytes with
  | .error fault => .error (.undecodable fault)
  | .ok s => readers.value path (withLineFeeds s.toList)

/-- The bytes write a value for which no value here stands. -/
def Beyond : Prop := valueOf readers path bytes = .error .beyond

/-- Bytes that are neither read nor reported as malformed: they are no text, or what reads them fails in a way of its own. -/
def Escapes : Prop :=
  (∃ fault, Text.Utf8.decode bytes = .error fault) ∨
    ∃ s fault, Text.Utf8.decode bytes = .ok s ∧ readers.value path (withLineFeeds s.toList) = .error fault ∧
      fault.isReported = false ∧ fault ≠ .beyond

end Bytes

variable {readers : Readers} {files : Files} {path : Path} {bytes : List UInt8}

theorem document_of_file (h : files path.text = .file bytes) : files.document readers path = valueOf readers path bytes := by
  unfold document text valueOf
  simp only [h, bind, Except.bind]
  cases Text.Utf8.decode bytes with
  | error fault => rfl
  | ok s => rfl

theorem Escapes.exists_fault (h : Escapes readers path bytes) :
    ∃ fault, valueOf readers path bytes = .error fault ∧ fault.isReported = false := by
  unfold valueOf
  rcases h with ⟨fault, hdecode⟩ | ⟨s, fault, hdecode, hvalue, hreported, -⟩
  · exact ⟨.undecodable fault, by rw [hdecode], rfl⟩
  · exact ⟨fault, by rw [hdecode, ← hvalue], hreported⟩

theorem escapes_of_fault {fault : LoadFault} (hplain : ¬Beyond readers path bytes)
    (h : valueOf readers path bytes = .error fault) (hreported : fault.isReported = false) : Escapes readers path bytes := by
  have hne : fault ≠ .beyond := by
    rintro rfl
    exact hplain h
  unfold valueOf at h
  cases hdecode : Text.Utf8.decode bytes with
  | error cause => exact .inl ⟨cause, hdecode⟩
  | ok s =>
    rw [hdecode] at h
    exact .inr ⟨s, fault, hdecode, h, hreported, hne⟩

/-- What the readers of this library make of a JSON text. -/
theorem valueOf_json {text : List Char} (hjson : path.isJson = true)
    (htext : Text.Utf8.decode bytes = .ok (String.ofList text)) :
    valueOf Files.readers path bytes = ofJson path (withLineFeeds text) := by
  simp only [valueOf, htext, Readers.value, hjson, if_true, String.toList_ofList, Files.readers]

end Files

namespace Command

open Files (Holds valueOf Escapes)

/-! ### Reports -/

/-- The command ended by itself with a code. -/
def Report.Ends (r : Report) (code : Nat) : Prop := r.code = code ∧ r.crash.isNone = true

/-- The command was ended by a cause that nothing caught. -/
def Report.Breaks (r : Report) : Prop := r.code = 1 ∧ r.crash.isSome = true

section Reports

variable {r : Report} {code other : Nat}

theorem Report.Ends.behind (log : String) (h : r.Ends code) : (r.behind log).Ends code := h

theorem Report.Breaks.behind (log : String) (h : r.Breaks) : (r.behind log).Breaks := h

/-- A report ends in one of four ways, so conditions that leave out no case are met exactly by the way that each leads to. -/
theorem exit_iff {valid invalid unusable uncaught : Prop} (h : valid ∨ invalid ∨ unusable ∨ uncaught)
    (h0 : valid → r.Ends 0) (h1 : invalid → r.Ends invalidData) (h2 : unusable → r.Ends badInput)
    (hb : uncaught → r.Breaks) :
    (r.Ends 0 ↔ valid) ∧ (r.Ends invalidData ↔ invalid) ∧ (r.Ends badInput ↔ unusable) ∧ (r.Breaks ↔ uncaught) := by
  have hcode {m n : Nat} (hm : r.Ends m) (hn : r.Ends n) : m = n := hm.1.symm.trans hn.1
  have hcaught {n : Nat} (hn : r.Ends n) : ¬ r.Breaks := by
    intro hbreaks
    have hnone := Option.isNone_iff_eq_none.mp hn.2
    have hsome := hbreaks.2
    rw [hnone] at hsome
    cases hsome
  have h01 : r.Ends 0 → ¬ r.Ends invalidData := fun h h' => absurd (hcode h h') (by decide)
  have h02 : r.Ends 0 → ¬ r.Ends badInput := fun h h' => absurd (hcode h h') (by decide)
  have h12 : r.Ends invalidData → ¬ r.Ends badInput := fun h h' => absurd (hcode h h') (by decide)
  have hb0 := @hcaught 0
  have hb1 := @hcaught invalidData
  have hb2 := @hcaught badInput
  grind

theorem ends_succeed (s : Settings) (text : String) : (succeed s text).Ends 0 := ⟨rfl, rfl⟩

theorem ends_fail (s : Settings) (text : String) (code : Nat) : (fail s text code).Ends code := ⟨rfl, rfl⟩

theorem breaks_ofCrash (c : Crash) : (Report.ofCrash c).Breaks := ⟨rfl, rfl⟩

theorem ends_loadFailure (s : Settings) {fault : LoadFault} (h : fault.isReported = true) :
    (loadFailure s fault).Ends badInput := by
  rw [loadFailure, if_pos h]
  exact ends_fail s _ _

theorem breaks_loadFailure (s : Settings) {fault : LoadFault} (h : fault.isReported = false) :
    (loadFailure s fault).Breaks := by
  rw [loadFailure, if_neg (Bool.eq_false_iff.mp h)]
  exact breaks_ofCrash _

end Reports

/-! ### Checks with a schema -/

/-- The rest of a check, once the schema is there. -/
def checkWith (s : Settings) (schema : Schema) (lines : String) : Except LoadFault Value → Report
  | .error fault => (loadFailure s fault).behind lines
  | .ok v =>
    match schema.validate v with
    | .error (.invalid e) => (fail s ("Invalid: " ++ e.message) invalidData).behind lines
    | .error .unwritable => (Report.ofCrash .unwritable).behind lines
    | .ok _ => (succeed s "Valid.").behind lines

theorem checkWith_exit (s : Settings) (schema : Schema) (lines : String) (result : Except LoadFault Value) :
    ((checkWith s schema lines result).Ends 0 ↔ ∃ v, result = .ok v ∧ schema.validator.accepts v = true) ∧
      ((checkWith s schema lines result).Ends invalidData ↔ ∃ v, result = .ok v ∧ schema.validator.rejects v = true) ∧
      ((checkWith s schema lines result).Ends badInput ↔ ∃ fault, result = .error fault ∧ fault.isReported = true) ∧
      ((checkWith s schema lines result).Breaks ↔ (∃ fault, result = .error fault ∧ fault.isReported = false) ∨
        ∃ v, result = .ok v ∧ schema.validator.run v = .error .unwritable) := by
  cases result with
  | error fault =>
    simp only [reduceCtorEq, false_and, exists_false, Except.error.injEq, exists_eq_left', or_false]
    cases hreported : fault.isReported with
    | true =>
      exact exit_iff (.inr (.inr (.inl rfl))) False.elim False.elim
        (fun _ => (ends_loadFailure s hreported).behind lines) Bool.noConfusion
    | false =>
      exact exit_iff (.inr (.inr (.inr rfl))) False.elim False.elim Bool.noConfusion
        fun _ => (breaks_loadFailure s hreported).behind lines
  | ok v =>
    simp only [reduceCtorEq, false_and, exists_false, Except.ok.injEq, exists_eq_left', false_or,
      Validator.accepts_iff_run_eq_ok, Validator.rejects_iff_run_eq_error]
    dsimp only [checkWith, Schema.validate]
    cases schema.validator.run v with
    | ok u =>
      exact exit_iff (.inl rfl) (fun _ => (ends_succeed s _).behind lines) (fun ⟨_, h⟩ => by cases h) False.elim
        (fun h => by cases h)
    | error e =>
      cases e with
      | invalid e =>
        exact exit_iff (.inr (.inl ⟨e, rfl⟩)) (fun h => by cases h) (fun _ => (ends_fail s _ _).behind lines) False.elim
          (fun h => by cases h)
      | unwritable =>
        exact exit_iff (.inr (.inr (.inr rfl))) (fun h => by cases h) (fun ⟨_, h⟩ => by cases h) False.elim
          fun _ => (breaks_ofCrash _).behind lines

/-! ### Rule files -/

section Names

variable [Text.CharacterNames]

/-- The bytes of a rule file hold a document of a tree that has a validator. -/
def Compiles (readers : Readers) (path : Path) (bytes : List UInt8) (c : Validator) : Prop :=
  ∃ d t, valueOf readers path bytes = .ok d ∧ Document.parse d = .ok t ∧ Validator.ofTree t = .ok c

/-- Nothing reports what is wrong with a rule file: its bytes escape all reports, or an error of its document cannot be told, or
the build of its tree takes an exit. -/
def RuleEscapes (readers : Readers) (path : Path) (bytes : List UInt8) : Prop :=
  Escapes readers path bytes ∨ ∃ d, valueOf readers path bytes = .ok d ∧
    (Document.Untellable d ∨ ∃ t exit, Document.parse d = .ok t ∧ t.Exits .root exit)

/-- What comes of loading a rule file. -/
inductive Loads (readers : Readers) (path : Path) (bytes : List UInt8) : Except Report (Schema × String) → Prop
  | schema {schema : Schema} (log : String) (h : Compiles readers path bytes schema.validator) :
      Loads readers path bytes (.ok (schema, log))
  | refused {r : Report} (hr : r.Ends badInput) (hc : ¬∃ c, Compiles readers path bytes c)
      (he : ¬RuleEscapes readers path bytes) : Loads readers path bytes (.error r)
  | broken {r : Report} (hr : r.Breaks) (he : RuleEscapes readers path bytes) : Loads readers path bytes (.error r)

section Rules

variable {s : Settings} {readers : Readers} {files : Files} {path : Path} {bytes : List UInt8} {c d : Validator} {v : Value}

theorem Compiles.unique (h : Compiles readers path bytes c) (h' : Compiles readers path bytes d) : c = d := by
  obtain ⟨v, t, hv, ht, hc⟩ := h
  obtain ⟨w, u, hw, hu, hd⟩ := h'
  cases hv.symm.trans hw
  cases ht.symm.trans hu
  cases hc.symm.trans hd
  rfl

theorem not_compiles_of_error {fault : LoadFault} (h : valueOf readers path bytes = .error fault) :
    ¬∃ c, Compiles readers path bytes c := by
  intro hc
  obtain ⟨c, v, t, hv, -, -⟩ := hc
  cases h.symm.trans hv

theorem ruleEscapes_of_error {fault : LoadFault} (hplain : ¬Files.Beyond readers path bytes)
    (h : valueOf readers path bytes = .error fault) : RuleEscapes readers path bytes ↔ fault.isReported = false := by
  constructor
  · intro he
    rcases he with he | ⟨v, hv, -⟩
    · obtain ⟨fault', hf, hreported⟩ := he.exists_fault
      cases h.symm.trans hf
      exact hreported
    · cases h.symm.trans hv
  · exact fun hreported => .inl (Files.escapes_of_fault hplain h hreported)

theorem compiles_iff (h : valueOf readers path bytes = .ok v) :
    (∃ c, Compiles readers path bytes c) ↔ ∃ t c, Document.parse v = .ok t ∧ Validator.ofTree t = .ok c := by
  constructor
  · intro h'
    obtain ⟨c, w, t, hw, ht, hc⟩ := h'
    cases h.symm.trans hw
    exact ⟨t, c, ht, hc⟩
  · intro h'
    obtain ⟨t, c, ht, hc⟩ := h'
    exact ⟨c, v, t, h, ht, hc⟩

theorem ruleEscapes_iff (h : valueOf readers path bytes = .ok v) :
    RuleEscapes readers path bytes ↔
      Document.parse v = .error .unwritable ∨ ∃ (t : Tree) (exit : Validator.Exit), Document.parse v = .ok t ∧
        Validator.ofTree t = .error exit.error := by
  have hexits (t : Tree) (exit : Validator.Exit) : t.Exits .root exit ↔ Validator.ofTree t = .error exit.error :=
    (Validator.exitsKnown t .root exit).symm
  simp only [RuleEscapes, ← Document.parse_eq_unwritable_iff, hexits]
  constructor
  · intro he
    rcases he with he | ⟨w, hw, he⟩
    · obtain ⟨fault, hf, -⟩ := he.exists_fault
      cases h.symm.trans hf
    · cases h.symm.trans hw
      exact he
  · exact fun he => .inr ⟨v, h, he⟩

theorem Compiles.not_escapes (h : Compiles readers path bytes c) : ¬RuleEscapes readers path bytes := by
  obtain ⟨v, t, hv, ht, hc⟩ := h
  rw [ruleEscapes_iff hv, ht]
  simp [hc]

theorem loads_loadSchema (h : files path.text = .file bytes) (hplain : ¬Files.Beyond readers path bytes) :
    Loads readers path bytes (loadSchema s readers files path) := by
  have hdocument : files.document readers path = valueOf readers path bytes := Files.document_of_file h
  unfold loadSchema loadTree Files.tree
  cases hv : valueOf readers path bytes with
  | error fault =>
    rw [hv] at hdocument
    simp only [hdocument]
    cases hreported : fault.isReported with
    | true =>
      refine .refused (ends_loadFailure s hreported) (not_compiles_of_error hv) ?_
      rw [ruleEscapes_of_error hplain hv, hreported]
      exact Bool.noConfusion
    | false => exact .broken (breaks_loadFailure s hreported) ((ruleEscapes_of_error hplain hv).mpr hreported)
  | ok v =>
    rw [hv] at hdocument
    have hcompiles := compiles_iff hv
    have hescapes := ruleEscapes_iff hv
    cases ht : Document.parse v with
    | error fault =>
      simp only [hdocument, ht, Except.mapError]
      cases fault with
      | schema e =>
        refine .refused (ends_fail s _ _) ?_ ?_
        · simp [hcompiles, ht]
        · simp [hescapes, ht]
      | stuck cause => exact absurd ht Document.parse_ne_stuck
      | unwritable => exact .broken (breaks_ofCrash _) (hescapes.mpr (.inl ht))
    | ok t =>
      simp only [hdocument, ht, Except.mapError, Schema.ofTree]
      cases hc : Validator.ofTree t with
      | ok c => exact .schema _ ⟨v, t, hv, ht, hc⟩
      | error e =>
        rcases Validator.schema_or_exit e with ⟨e, rfl⟩ | ⟨exit, rfl⟩
        · refine .refused ((ends_fail s _ _).behind _) ?_ ?_
          · simp [hcompiles, ht, hc]
          · have hne (exit : Validator.Exit) : BuildError.schema e ≠ exit.error := (exit.error_ne_schema e).symm
            simp [hescapes, ht, hc, hne]
        · have hbroken := hescapes.mpr (.inr ⟨t, exit, ht, hc⟩)
          cases exit with
          | overflow cause => exact .broken ((breaks_ofCrash _).behind _) hbroken
          | unwritable => exact .broken ((breaks_ofCrash _).behind _) hbroken

end Rules

/-! ### Commands -/

/-- Nothing reports what is wrong with a data file: its bytes escape all reports, or the run of the validator ends without a
verdict. -/
def DataEscapes (readers : Readers) (path : Path) (bytes : List UInt8) (c : Validator) : Prop :=
  Escapes readers path bytes ∨ ∃ v, valueOf readers path bytes = .ok v ∧ c.run v = .error .unwritable

section Commands

variable (s : Settings) {readers : Readers} {files : Files} {rule data : Path} {rb db : List UInt8}

theorem runLint_exit (hrule : files rule.text = .file rb) (hplain : ¬Files.Beyond readers rule rb) :
    ((runLint s readers files rule).Ends 0 ↔ ∃ c, Compiles readers rule rb c) ∧
      ((runLint s readers files rule).Ends invalidData ↔ False) ∧
      ((runLint s readers files rule).Ends badInput ↔
        (¬∃ c, Compiles readers rule rb c) ∧ ¬RuleEscapes readers rule rb) ∧
      ((runLint s readers files rule).Breaks ↔ RuleEscapes readers rule rb) := by
  have hload : Loads readers rule rb (loadSchema s readers files rule) := loads_loadSchema hrule hplain
  unfold runLint
  generalize loadSchema s readers files rule = result at hload ⊢
  cases hload with
  | schema log hc =>
    exact exit_iff (.inl ⟨_, hc⟩) (fun _ => (ends_succeed s _).behind log) False.elim (fun h => absurd ⟨_, hc⟩ h.1)
      fun h => absurd h hc.not_escapes
  | refused hr hc he =>
    exact exit_iff (.inr (.inr (.inl ⟨hc, he⟩))) (fun h => absurd h hc) False.elim (fun _ => hr)
      fun h => absurd h he
  | broken hr he =>
    exact exit_iff (.inr (.inr (.inr he))) (fun h => absurd he h.choose_spec.not_escapes) False.elim
      (fun h => absurd he h.2) fun _ => hr

/-- The first trouble decides: the data file counts only if the rule file can be used. -/
theorem runCheck_exit (hrule : files rule.text = .file rb) (hdata : files data.text = .file db)
    (hplain : ¬Files.Beyond readers rule rb) (hplain' : ¬Files.Beyond readers data db) :
    ((runCheck s readers files rule data).Ends 0 ↔
        ∃ c v, Compiles readers rule rb c ∧ valueOf readers data db = .ok v ∧ c.accepts v = true) ∧
      ((runCheck s readers files rule data).Ends invalidData ↔
        ∃ c v, Compiles readers rule rb c ∧ valueOf readers data db = .ok v ∧ c.rejects v = true) ∧
      ((runCheck s readers files rule data).Ends badInput ↔
        (¬∃ c v, Compiles readers rule rb c ∧ valueOf readers data db = .ok v) ∧
          ¬(RuleEscapes readers rule rb ∨ ∃ c, Compiles readers rule rb c ∧ DataEscapes readers data db c)) ∧
      ((runCheck s readers files rule data).Breaks ↔
        RuleEscapes readers rule rb ∨ ∃ c, Compiles readers rule rb c ∧ DataEscapes readers data db c) := by
  have hload : Loads readers rule rb (loadSchema s readers files rule) := loads_loadSchema hrule hplain
  generalize hresult : loadSchema s readers files rule = result at hload
  cases hload with
  | @schema schema lines hc =>
    have hcheck : runCheck s readers files rule data = checkWith s schema lines (valueOf readers data db) := by
      rw [runCheck, hresult, ← Files.document_of_file hdata]
      rfl
    rw [hcheck]
    obtain ⟨h0, h1, h2, hb⟩ := checkWith_exit s schema lines (valueOf readers data db)
    have hone {P : Validator → Value → Prop} :
        (∃ c v, Compiles readers rule rb c ∧ valueOf readers data db = .ok v ∧ P c v) ↔
          ∃ v, valueOf readers data db = .ok v ∧ P schema.validator v := by
      constructor
      · rintro ⟨c, v, hc', hv, h⟩
        cases hc.unique hc'
        exact ⟨v, hv, h⟩
      · rintro ⟨v, hv, h⟩
        exact ⟨_, v, hc, hv, h⟩
    have hcaught : (RuleEscapes readers rule rb ∨ ∃ c, Compiles readers rule rb c ∧ DataEscapes readers data db c) ↔
        (∃ fault, valueOf readers data db = .error fault ∧ fault.isReported = false) ∨
          ∃ v, valueOf readers data db = .ok v ∧ schema.validator.run v = .error .unwritable := by
      constructor
      · rintro (h | ⟨c, hc', h⟩)
        · exact absurd h hc.not_escapes
        · cases hc.unique hc'
          exact h.imp_left Files.Escapes.exists_fault
      · exact fun h => .inr ⟨_, hc, h.imp_left fun ⟨_, hf, hr⟩ => Files.escapes_of_fault hplain' hf hr⟩
    rw [hone, hone, hcaught]
    refine ⟨h0, h1, h2.trans ?_, hb⟩
    cases valueOf readers data db with
    | error fault => simp
    | ok v =>
      have hcompiles : ∃ c, Compiles readers rule rb c := ⟨_, hc⟩
      simp [hcompiles]
  | refused hr hc he =>
    rw [runCheck, hresult]
    have hunusable : ¬∃ c v, Compiles readers rule rb c ∧ valueOf readers data db = .ok v := fun ⟨c, _, h, _⟩ => hc ⟨c, h⟩
    have hcaught : ¬(RuleEscapes readers rule rb ∨ ∃ c, Compiles readers rule rb c ∧ DataEscapes readers data db c) := by
      rintro (h | ⟨c, h, -⟩)
      · exact he h
      · exact hc ⟨c, h⟩
    refine exit_iff (.inr (.inr (.inl ⟨hunusable, hcaught⟩))) ?_ ?_ (fun _ => hr) fun h => absurd h hcaught
    · exact fun ⟨c, _, h, _⟩ => absurd ⟨c, h⟩ hc
    · exact fun ⟨c, _, h, _⟩ => absurd ⟨c, h⟩ hc
  | broken hr he =>
    rw [runCheck, hresult]
    have hc : ¬∃ c, Compiles readers rule rb c := fun h => absurd he h.choose_spec.not_escapes
    refine exit_iff (.inr (.inr (.inr (.inl he)))) ?_ ?_ (fun h => absurd (.inl he) h.2) fun _ => hr
    · exact fun ⟨c, _, h, _⟩ => absurd ⟨c, h⟩ hc
    · exact fun ⟨c, _, h, _⟩ => absurd ⟨c, h⟩ hc

end Commands

end Names

/-! ### Command lines -/

/-- How a command is given some names: as they are if none is written like an option, and any names behind two dashes. -/
inductive Gives (names : List String) : List String → Prop
  | plain (h : ∀ w ∈ names, Words.isOption w = false) : Gives names names
  | dashed : Gives names ("--" :: names)

section CommandLines

variable {readers : Readers} {files : Files} {env : List (String × String)} {rule data : String} {rb db : List UInt8}
  {words : List String}

theorem wordsOf_of_gives {f : Form} {names : List String} (h : Gives names words) :
    wordsOf f words = .ok { others := names } := by
  have hread : Words.read f true words = .ok { others := names } := by
    cases h with
    | plain h => exact Words.read_of_no_option f _ h
    | dashed => simp [Words.read]
  rw [wordsOf, hread]
  rfl

theorem existing_of_holds {f : Form} {name : String} {bytes : List UInt8} (argument : String)
    (h : files.Holds name bytes) : existing files f argument name = .ok (Path.ofText name) := by
  rw [existing, h.1]

theorem readLint_of_gives (hrule : files.Holds rule rb) (h : Gives [rule] words) :
    readLint files words = .ok (.lint (Path.ofText rule)) := by
  rw [readLint, wordsOf_of_gives h]
  show argument files lintForm "RULE_FILE" [rule] >>= _ = _
  rw [argument, existing_of_holds "RULE_FILE" hrule]
  rfl

theorem readCheck_of_gives (hrule : files.Holds rule rb) (hdata : files.Holds data db) (h : Gives [rule, data] words) :
    readCheck files words = .ok (.check (Path.ofText rule) (Path.ofText data)) := by
  rw [readCheck, wordsOf_of_gives h]
  show argument files checkForm "RULE_FILE" [rule, data] >>= _ = _
  rw [argument, existing_of_holds "RULE_FILE" hrule]
  show argument files checkForm "DATA_FILE" [data] >>= _ = _
  rw [argument, existing_of_holds "DATA_FILE" hdata]
  rfl

section Names

variable [Text.CharacterNames]

theorem run_command {name : String} {form : Form} {reader : Files → List String → Except Stop Command} {c : Command}
    (hname : Words.isOption name = false) (hdashes : name ≠ "--") (hcommand : commands.lookup name = some (form, reader))
    (h : reader files words = .ok c) :
    run readers files env (name :: words) = perform (settings env { logLevel := none, command := c }) readers files c := by
  have hwords : Words.read groupForm false (name :: words) = .ok { others := name :: words } := by
    simp [Words.read, hname, hdashes]
  have hread : Invocation.read files (name :: words) = .ok { logLevel := none, command := c } := by
    have hhelp : ({ others := name :: words } : Words).asksForHelp = false := rfl
    have hlevel : ({ others := name :: words } : Words).option? logLevelOption.name = none := rfl
    simp [Invocation.read, hwords, hhelp, hlevel, hcommand, h, Except.mapError, bind, Except.bind, pure, Except.pure]
  rw [run, hread]

theorem run_lint (hrule : files.Holds rule rb) (h : Gives [rule] words) :
    ∃ s, run readers files env ("lint" :: words) = runLint s readers files (Path.ofText rule) :=
  ⟨_, run_command (by decide) (by decide) rfl (readLint_of_gives hrule h)⟩

theorem run_check (hrule : files.Holds rule rb) (hdata : files.Holds data db) (h : Gives [rule, data] words) :
    ∃ s, run readers files env ("check" :: words) = runCheck s readers files (Path.ofText rule) (Path.ofText data) :=
  ⟨_, run_command (by decide) (by decide) rfl (readCheck_of_gives hrule hdata h)⟩

end Names

end CommandLines

/-- What the codes say about the bytes of two files, whatever reads them. A file is unusable if it is neither used nor ends the
command uncaught. -/
theorem exit_codes [Text.CharacterNames] {readers : Readers} {files : Files} {rule data : String} {rb db : List UInt8}
    {checkWords lintWords : List String} (env : List (String × String)) (hrule : files.Holds rule rb)
    (hdata : files.Holds data db) (hcheck : Gives [rule, data] checkWords) (hlint : Gives [rule] lintWords)
    (hplain : ¬Files.Beyond readers (Path.ofText rule) rb) (hplain' : ¬Files.Beyond readers (Path.ofText data) db) :
    let r := Path.ofText rule
    let d := Path.ofText data
    let checked := run readers files env ("check" :: checkWords)
    let linted := run readers files env ("lint" :: lintWords)
    ((checked.Ends 0 ↔ ∃ c v, Compiles readers r rb c ∧ valueOf readers d db = .ok v ∧ c.accepts v = true) ∧
      (checked.Ends 1 ↔ ∃ c v, Compiles readers r rb c ∧ valueOf readers d db = .ok v ∧ c.rejects v = true) ∧
      (checked.Ends 2 ↔ (¬∃ c v, Compiles readers r rb c ∧ valueOf readers d db = .ok v) ∧ ¬checked.Breaks) ∧
      (checked.Breaks ↔ RuleEscapes readers r rb ∨ ∃ c, Compiles readers r rb c ∧ DataEscapes readers d db c)) ∧
    (linted.Ends 0 ↔ ∃ c, Compiles readers r rb c) ∧ ¬linted.Ends 1 ∧
      (linted.Ends 2 ↔ (¬∃ c, Compiles readers r rb c) ∧ ¬linted.Breaks) ∧
      (linted.Breaks ↔ RuleEscapes readers r rb) := by
  intro r d checked linted
  obtain ⟨s, hs⟩ : ∃ s, checked = runCheck s readers files r d := run_check hrule hdata hcheck
  obtain ⟨s', hs'⟩ : ∃ s, linted = runLint s readers files r := run_lint hrule hlint
  obtain ⟨hvalid, hinvalid, hunusable, huncaught⟩ := runCheck_exit s hrule.2 hdata.2 hplain hplain'
  obtain ⟨hlinted, hnever, hmalformed, hbroken⟩ := runLint_exit s' hrule.2 hplain
  rw [hs, hs']
  refine ⟨⟨hvalid, hinvalid, ?_, huncaught⟩, hlinted, hnever.mp, ?_, hbroken⟩
  · rw [huncaught]
    exact hunusable
  · rw [hbroken]
    exact hmalformed

open Text.CommonNames

/-- A rule for numbers, and a number. -/
theorem exit_codes_number :
    ∃ (files : Files) (rb db : List UInt8),
      rb = [0x7b, 0x22, 0x6b, 0x69, 0x6e, 0x64, 0x22, 0x3a, 0x22, 0x6e, 0x75, 0x6d, 0x62, 0x65, 0x72, 0x22, 0x7d] ∧
      db = [0x31] ∧ files.Holds "rule.json" rb ∧ files.Holds "data.json" db ∧
      (run Files.readers files [] ["check", "rule.json", "data.json"]).Ends 0 ∧
      (run Files.readers files [] ["lint", "--", "rule.json"]).Ends 0 := by
  let rb : List UInt8 :=
    [0x7b, 0x22, 0x6b, 0x69, 0x6e, 0x64, 0x22, 0x3a, 0x22, 0x6e, 0x75, 0x6d, 0x62, 0x65, 0x72, 0x22, 0x7d]
  let files : Files := fun name => .file (if name = "rule.json" then rb else [0x31])
  have hrule : files.Holds "rule.json" rb := ⟨by decide +kernel, by decide +kernel⟩
  have hdata : files.Holds "data.json" [0x31] := ⟨by decide +kernel, by decide +kernel⟩
  have hcheck : Gives ["rule.json", "data.json"] ["rule.json", "data.json"] := .plain (by decide)
  have hd : valueOf Files.readers (Path.ofText "rule.json") rb = .ok (.map [(.str "kind", .str "number")]) := by
    have htext : Text.Utf8.decode rb = .ok (String.ofList
        ['\x7b', '"', 'k', 'i', 'n', 'd', '"', ':', '"', 'n', 'u', 'm', 'b', 'e', 'r', '"', '\x7d']) := by
      with_unfolding_all rfl
    rw [Files.valueOf_json (by decide +kernel) htext]
    with_unfolding_all rfl
  have hv : valueOf Files.readers (Path.ofText "data.json") [0x31] = .ok (.number (.int 1)) := by
    have htext : Text.Utf8.decode [0x31] = .ok (String.ofList ['1']) := by with_unfolding_all rfl
    rw [Files.valueOf_json (by decide +kernel) htext]
    with_unfolding_all rfl
  have hc : Compiles Files.readers (Path.ofText "rule.json") rb (.container .number [] none) :=
    ⟨_, .group (.container .number) .fixed [], hd, Document.parse_eq_ok_iff.mpr (by with_unfolding_all rfl), rfl⟩
  have hplain : ¬Files.Beyond Files.readers (Path.ofText "rule.json") rb := by
    rw [Files.Beyond, hd]
    simp
  have hplain' : ¬Files.Beyond Files.readers (Path.ofText "data.json") [0x31] := by
    rw [Files.Beyond, hv]
    simp
  obtain ⟨⟨hvalid, -⟩, hlinted, -⟩ := exit_codes [] hrule hdata hcheck .dashed hplain hplain'
  exact ⟨files, rb, [0x31], rfl, rfl, hrule, hdata, hvalid.mpr ⟨_, _, hc, hv, by decide⟩, hlinted.mpr ⟨_, hc⟩⟩

/-- A rule file that is no text is not refused: nothing catches the fault, and the code is that of data that are not valid. -/
theorem undecodable_not_refused :
    ∃ files : Files, files = (fun _ => .file [0xff]) ∧ files.Holds "rule.json" [0xff] ∧
      (¬∃ c, Compiles Files.readers (Path.ofText "rule.json") [0xff] c) ∧
      ¬(run Files.readers files [] ["lint", "rule.json"]).Ends badInput ∧
      (run Files.readers files [] ["lint", "rule.json"]).Breaks := by
  let files : Files := fun _ => .file [0xff]
  have hrule : files.Holds "rule.json" [0xff] := ⟨rfl, rfl⟩
  have hundecodable : (Text.Utf8.decode [0xff]).isOk = false := by decide +kernel
  have hbroken : (run Files.readers files [] ["lint", "rule.json"]).Breaks := ⟨by decide +kernel, by decide +kernel⟩
  refine ⟨files, rfl, hrule, ?_, ?_, hbroken⟩
  · rintro ⟨c, d, t, hd, -, -⟩
    rw [valueOf] at hd
    cases hs : Text.Utf8.decode [0xff] with
    | ok s =>
      rw [hs] at hundecodable
      cases hundecodable
    | error fault =>
      rw [hs] at hd
      cases hd
  · intro hends
    have hcode : (1 : Nat) = 2 := hbroken.1.symm.trans hends.1
    cases hcode

end Command

end RuleTree
