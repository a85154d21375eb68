import RuleTree.File.Document
import RuleTree.Proofs.Yaml.Reread

/-!
# JSON in files of any suffix

A text in JSON that stands in a file of another suffix is read as YAML. The tree of the text means what YAML reads of it, part
by part, and so the file holds the same value as under the suffix of JSON if the value is portable, and only then.
-/

namespace RuleTree

namespace Yaml

open Layout (halved maxKey Cuts CutsPart nameTokens Written StartsWord)
open Scan (IsWord)
open Json (quote)
open Value (reread rereadKey rereadItems rereadEntries)

/-! ### Trees and their values -/

/-- A tree with nothing to merge, and its value. -/
structure Means (n : Node) (v : Value) : Prop where
  merged : n.merged = n
  value : n.value = .ok v

/-- An entry of a mapping, and the field that it stands for. -/
structure MeansField (e : Node × Node) (f : String × Value) : Prop where
  name : e.1 = .scalar .str f.1
  value : Means e.2 f.2

theorem means_scalar {t : Tag} {text : String} {v : Value} (h : t.read text = .ok v) : Means (.scalar t text) v where
  merged := rfl
  value := by
    rw [Node.value, Node.scalarValue, h]
    rfl

section Rows

variable {ns : List Node} {vs : List Value} {es : List (Node × Node)} {fields : List (String × Value)}

theorem mergedItems_of_means (h : List.Forall₂ Means ns vs) : Node.mergedItems ns = ns := by
  induction h with
  | nil => rfl
  | cons hn _ ih => rw [Node.mergedItems, hn.merged, ih]

theorem values_of_means (h : List.Forall₂ Means ns vs) : Node.values ns = .ok vs := by
  induction h with
  | nil => rfl
  | cons hn _ ih =>
    rw [Node.values, hn.value, ih]
    rfl

theorem means_row (h : List.Forall₂ Means ns vs) : Means (.sequence .seq ns) (.list vs) where
  merged := by rw [Node.merged, if_neg (by decide), mergedItems_of_means h]
  value := by
    rw [Node.value, values_of_means h]
    rfl

theorem mergedEntries_of_means (h : List.Forall₂ MeansField es fields) : Node.mergedEntries es = some ([], es) := by
  induction h with
  | nil => rfl
  | @cons e f es fields he _ ih =>
    obtain ⟨k, n⟩ := e
    obtain rfl : k = .scalar .str f.1 := he.name
    rw [Node.mergedEntries, ih]
    simp [Node.tag, Node.merged, Node.asKey, he.value.merged]

theorem entryValues_of_means (h : List.Forall₂ MeansField es fields) :
    Node.entryValues es = .ok (fields.map fun f => (.str f.1, f.2)) := by
  induction h with
  | nil => rfl
  | @cons e f es fields he _ ih =>
    obtain ⟨k, n⟩ := e
    obtain rfl : k = .scalar .str f.1 := he.name
    rw [Node.entryValues, ih, he.value.value]
    rfl

theorem means_mapping (hnames : (fields.map Prod.fst).Nodup) (h : List.Forall₂ MeansField es fields) :
    Means (.mapping .map es) (.ofFields fields) where
  merged := by
    rw [Node.merged, if_pos (.inl rfl), mergedEntries_of_means h]
    rfl
  value := by
    rw [Node.value, entryValues_of_means h, ← Value.ofPairs_fields hnames]
    rfl

end Rows

/-! ### Texts and what is read of them -/

/-- A text of an element that means a value, or of which nothing is read. -/
def Rereads (text : String) (v : Option Value) : Prop :=
  ∃ ts o, Cuts text.toList ts ∧ Assembles ts o ∧ Option.Rel Means o v

theorem Rereads.read {text : String} {v : Option Value} (h : Rereads text v) :
    read text.toList = v.elim (.error .malformed) .ok := by
  obtain ⟨ts, o, hcuts, hassembles, hmeans⟩ := h
  rw [Yaml.read, hcuts.ofText]
  simp only [bind, Except.bind, hassembles.ofTokens]
  cases hmeans with
  | none => rfl
  | some hn =>
    simp only [outcome, Except.map, hn.merged, hn.value]
    rfl

section Atoms

variable {text : String} {v : Value}

theorem rereads_plain (hword : IsWord text.toList) (hstart : StartsWord text.toList) (hwritten : Written text.toList)
    (hread : (Tag.ofPlain text).read text = .ok v) : Rereads text (some v) := by
  refine ⟨_, _, Layout.cuts_word hword hstart hwritten, assembles_scalar _ true, .some (means_scalar ?_)⟩
  rw [String.ofList_toList, if_pos rfl, hread]

theorem rereads_quote (text : String) : Rereads (quote text) (some (.str (halved text))) :=
  ⟨_, _, Layout.cuts_quote text, assembles_scalar _ false, .some (means_scalar rfl)⟩

theorem rereads_numeral {n : Json.Numeral} (h : n.Proper) (htext : text.toList = n.chars)
    (hread : (Tag.ofPlain text).read text = .ok v) : Rereads text (some v) := by
  refine rereads_plain ?_ ?_ ?_ hread
  · rw [htext]
    exact isWord_chars h
  · rw [htext]
    exact startsWord_chars h
  · rw [htext]
    exact written_chars h

theorem rereads_integer {i : Int} (h : (Decimal.digits i.natAbs).length ≤ Decimal.maxDigits) :
    Rereads (Decimal.integer i) (some (.number (.int i))) := by
  have hproper := Json.integerNumeral_proper i
  have htag : Tag.ofPlain (Decimal.integer i) = .int := by
    rw [← String.ofList_toList (s := Decimal.integer i), Json.integer_toList, ofPlain_chars hproper]
    rfl
  refine rereads_numeral hproper (Json.integer_toList i) ?_
  rw [htag, Tag.read, readInteger_integer h]
  rfl

/-- The words of JSON, with what they are taken for. Those for numbers beyond all others are texts. -/
def plainWords : List (String × Value) := [
  ("null", .null), ("true", .bool true), ("false", .bool false), ("NaN", .str "NaN"), ("Infinity", .str "Infinity"),
  ("-Infinity", .str "-Infinity")]

theorem rereads_word (h : (text, v) ∈ plainWords) : Rereads text (some v) := by
  have hstart : StartsWord text.toList := by
    simp only [plainWords, List.mem_cons, List.not_mem_nil, or_false, Prod.mk.injEq] at h
    rcases h with ⟨rfl, rfl⟩ | ⟨rfl, rfl⟩ | ⟨rfl, rfl⟩ | ⟨rfl, rfl⟩ | ⟨rfl, rfl⟩ | ⟨rfl, rfl⟩
    iterate 5 exact .letter _ _ rfl
    exact .dash 'I' _ rfl (by decide)
  have hwords : ∀ w ∈ plainWords, w.1.toList ≠ [] ∧
      (w.1.toList.all fun c => decide (Text.IsPrintable c ∧ Scan.IsWordChar c)) = true := by decide
  obtain ⟨hne, hall⟩ := hwords _ h
  have hchars := List.all_iff_forall_prop.mp hall
  refine rereads_plain ⟨hne, fun c hc => (hchars c hc).2⟩ hstart (fun c hc => .inl (hchars c hc).1) ?_
  simp only [plainWords, List.mem_cons, List.not_mem_nil, or_false, Prod.mk.injEq] at h
  rcases h with ⟨rfl, rfl⟩ | ⟨rfl, rfl⟩ | ⟨rfl, rfl⟩ | ⟨rfl, rfl⟩ | ⟨rfl, rfl⟩ | ⟨rfl, rfl⟩ <;> rfl

theorem rereads_finite {x : Binary64} (hfinite : x.isFinite = true) :
    Rereads (x.format Json.layout) (Value.number (.float x)).reread := by
  obtain ⟨n, hproper, htext, hnumber⟩ := Json.exists_numeral hfinite
  have hchars : x.format Json.layout = String.ofList n.chars := by rw [← htext, String.ofList_toList]
  have htag := ofPlain_chars hproper
  rw [reread, htext]
  refine rereads_numeral hproper htext ?_
  rw [hchars, htag]
  by_cases hf : n.fraction.isSome = true
  · rw [if_pos hf, if_pos ((Json.Numeral.point_mem_chars_iff hproper).mpr hf), Tag.read, readFloat_chars hproper hnumber hfinite]
    rfl
  · have hexponent := (Json.Numeral.float_of_number hnumber).1.resolve_left hf
    rw [if_neg hf, if_neg (mt (Json.Numeral.point_mem_chars_iff hproper).mp hf), if_pos hexponent]
    rfl

theorem reread_float_nan : (Value.number (.float Binary64.nan)).reread = some (.str "NaN") := rfl

theorem reread_float_infinity (negative : Bool) : (Value.number (.float (Binary64.infinity negative))).reread =
    some (.str (if negative then "-Infinity" else "Infinity")) := by
  cases negative <;> rfl

theorem rereads_float {x : Binary64} (hx : x.isNaN = true → x = Binary64.nan) :
    Rereads (x.format Json.layout) (Value.number (.float x)).reread := by
  cases hfinite : x.isFinite with
  | true => exact rereads_finite hfinite
  | false =>
    cases hnan : x.isNaN with
    | true =>
      rw [hx hnan, reread_float_nan, Json.format_nan]
      exact rereads_word (by simp [plainWords])
    | false =>
      rw [Json.eq_infinity hfinite hnan, reread_float_infinity, Json.format_infinity]
      cases x.negative with
      | true => exact rereads_word (by simp [plainWords])
      | false => exact rereads_word (by simp [plainWords])

theorem rereads_atom (h : Json.ReadableAtom v) (htext : Json.atom? v = some text) : Rereads text v.reread := by
  cases v with
  | null =>
    cases htext
    exact rereads_word (by simp [plainWords])
  | bool b =>
    cases htext
    cases b with
    | true => exact rereads_word (by simp [plainWords])
    | false => exact rereads_word (by simp [plainWords])
  | number n =>
    cases n with
    | int i =>
      cases htext
      exact rereads_integer h
    | ratio q => exact h.elim
    | float x =>
      cases htext
      exact rereads_float h
  | str s =>
    cases htext
    exact rereads_quote s
  | _ => exact h.elim

end Atoms

/-! ### Rows and mappings -/

/-- What holds of the elements of a row one by one, with tokens and trees for each, holds of them all with rows of these. -/
theorem exists_tokens {α β : Type} {C : String → List Token → Prop} {A : List Token → Option β → Prop}
    {M : Option β → α → Prop} {as : List α} {texts : List String}
    (h : List.Forall₂ (fun a text => ∃ ts o, C text ts ∧ A ts o ∧ M o a) as texts) :
    ∃ tss os, List.Forall₂ C texts tss ∧ List.Forall₂ A tss os ∧ List.Forall₂ M os as := by
  induction h with
  | nil => exact ⟨[], [], .nil, .nil, .nil⟩
  | cons ha _ ih =>
    obtain ⟨ts, o, hc, ha, hm⟩ := ha
    obtain ⟨tss, os, hcs, has, hms⟩ := ih
    exact ⟨ts :: tss, o :: os, .cons hc hcs, .cons ha has, .cons hm hms⟩

theorem rereadItems_eq_mapM (vs : List Value) : rereadItems vs = vs.mapM reread := by
  induction vs with
  | nil => rfl
  | cons v vs ih => rw [rereadItems, List.mapM_cons, ih]

/-- A field as YAML reads it, if its name is not too long for a key. -/
def rereadField (f : String × Value) : Option (String × Value) :=
  if (quote f.1).toList.length ≤ maxKey then f.2.reread.map fun v => (halved f.1, v) else none

theorem rereadEntries_fields (fields : List (String × Value)) : rereadEntries (fields.map fun f => (.str f.1, f.2)) =
    (fields.mapM rereadField).map (List.map fun f => (.str f.1, f.2)) := by
  induction fields with
  | nil => rfl
  | cons f fields ih =>
    rw [List.map_cons, rereadEntries, ih, List.mapM_cons, rereadKey, rereadField]
    by_cases hlen : (quote f.1).toList.length ≤ maxKey
    · rw [if_pos hlen, if_pos hlen]
      cases f.2.reread with
      | none => rfl
      | some v => cases fields.mapM rereadField <;> rfl
    · rw [if_neg hlen, if_neg hlen]
      rfl

theorem rereadField_name {f g : String × Value} (h : rereadField f = some g) : g.1 = halved f.1 := by
  rw [rereadField] at h
  split at h
  · obtain ⟨v, -, rfl⟩ := Option.map_eq_some_iff.mp h
    rfl
  · cases h

theorem mapM_rereadField_names {fields gs : List (String × Value)} (h : fields.mapM rereadField = some gs) :
    gs.map Prod.fst = (fields.map Prod.fst).map halved := by
  induction fields generalizing gs with
  | nil =>
    cases h
    rfl
  | cons f fields ih =>
    rw [List.mapM_cons] at h
    obtain ⟨g, hg, h⟩ := Option.bind_eq_some_iff.mp h
    obtain ⟨gs', hgs, h⟩ := Option.bind_eq_some_iff.mp h
    cases h
    rw [List.map_cons, List.map_cons, List.map_cons, rereadField_name hg, ih hgs]

theorem rereads_list {vs : List Value} {texts : List String} {indent : Option Nat} {level : Nat}
    (h : List.Forall₂ (fun v text => Rereads text v.reread) vs texts) :
    Rereads (Json.bracket indent level "[" "]" texts) (Value.list vs).reread := by
  obtain ⟨tss, os, hcuts, hassembles, hmeans⟩ := exists_tokens h
  refine ⟨_, _, Layout.cuts_bracket .row rfl rfl (hcuts.imp fun _ _ hc => hc.part), assembles_row hassembles, ?_⟩
  have hrel := rel_mapM hmeans
  rw [reread, rereadItems_eq_mapM]
  generalize os.mapM id = ns at hrel ⊢
  generalize vs.mapM reread = ws at hrel ⊢
  cases hrel with
  | none => exact .none
  | some hrow => exact .some (means_row hrow)

theorem assembles_field {ts : List Token} {o : Option Node} {name : String} {v : Option Value} (h : Assembles ts o)
    (hmeans : Option.Rel Means o v) : ∃ p, AssemblesField (nameTokens name ++ ts) p ∧ Option.Rel MeansField p
      (if (quote name).toList.length ≤ maxKey then v.map fun w => (halved name, w) else none) := by
  rw [nameTokens]
  by_cases hlen : (quote name).toList.length ≤ maxKey
  · rw [if_pos hlen, if_pos hlen]
    refine ⟨_, .key _ h, ?_⟩
    cases hmeans with
    | none => exact .none
    | some hn => exact .some ⟨rfl, hn⟩
  · rw [if_neg hlen, if_neg hlen]
    exact ⟨_, .name _ ts, .none⟩

theorem rereads_fields {fields : List (String × Value)} {parts : List String} {indent : Option Nat} {level : Nat}
    (hnames : (fields.map Prod.fst).Nodup)
    (h : List.Forall₂ (fun f part => ∃ text, Rereads text f.2.reread ∧ part = quote f.1 ++ ": " ++ text) fields parts) :
    Rereads (Json.bracket indent level "\x7b" "\x7d" parts) (Value.ofFields fields).reread := by
  have hfields : List.Forall₂ (fun f part => ∃ ts o, CutsPart part.toList ts ∧ AssemblesField ts o ∧
      Option.Rel MeansField o (rereadField f)) fields parts := by
    refine h.imp fun f part hpart => ?_
    obtain ⟨text, ⟨ts, o, hcuts, hassembles, hmeans⟩, rfl⟩ := hpart
    obtain ⟨p, hp, hfield⟩ := assembles_field hassembles hmeans
    refine ⟨_, p, ?_, hp, hfield⟩
    have hcut := Layout.cutsPart_field f.1 hcuts
    rwa [String.toList_append, String.toList_append, List.append_assoc]
  obtain ⟨tss, os, hcuts, hassembles, hmeans⟩ := exists_tokens hfields
  refine ⟨_, _, Layout.cuts_bracket .mapping rfl rfl hcuts, assembles_mapping hassembles, ?_⟩
  have hrel := rel_mapM hmeans
  rw [Value.ofFields, reread, rereadEntries_fields]
  generalize os.mapM id = es at hrel ⊢
  cases hgs : fields.mapM rereadField with
  | none =>
    rw [hgs] at hrel
    cases hrel
    exact .none
  | some gs =>
    rw [hgs] at hrel
    have hdifferent : (gs.map Prod.fst).Nodup := by
      rw [mapM_rereadField_names hgs]
      exact hnames.map Layout.halved_injective
    cases hrel with
    | some hrow => exact .some (means_mapping hdifferent hrow)

/-! ### Nested values -/

/-- Of the text of a value, on one line or indented, YAML reads just what is said of the value. -/
theorem rereads {v : Value} {indent : Option Nat} (h : v.Nested Json.ReadableAtom) :
    ∀ level text, Json.write indent level v = .ok text → Rereads text v.reread := by
  induction h with
  | atom h =>
    intro level text htext
    exact rereads_atom h (Json.atom?_of_write h htext)
  | list h ih =>
    intro level text htext
    obtain ⟨texts, htexts, rfl⟩ := Json.write_list.mp htext
    exact rereads_list (forall₂_imp_of_mem htexts fun v hv text htext => ih v hv (level + 1) text htext)
  | fields hnames h ih =>
    intro level text htext
    obtain ⟨parts, hparts, rfl⟩ := Json.write_fields.mp htext
    refine rereads_fields hnames (forall₂_imp_of_mem hparts fun f hf part hpart => ?_)
    obtain ⟨text, htext, rfl⟩ := hpart
    exact ⟨text, ih f hf (level + 1) text htext, rfl⟩

theorem read_ofValue {v : Value} {indent : Option Nat} {text : String} (h : v.Nested Json.ReadableAtom)
    (htext : Json.ofValue indent v = .ok text) : read text.toList = v.reread.elim (.error .malformed) .ok :=
  (rereads h 0 text htext).read

end Yaml

/-! ### Files -/

namespace Files

variable {files : Files} {p q : Path} {v : Value} {indent : Option Nat} {text : String}

theorem document_of_isJson (hp : p.isJson = true) (hv : v.Nested Json.ReadableAtom) (htext : Json.ofValue indent v = .ok text)
    (hfile : files.text p = .ok text.toList) : files.document readers p = .ok v := by
  rw [document, hfile]
  simp only [bind, Except.bind, Readers.value, readers, hp, if_true, ofJson, Json.read_ofValue hv htext]
  rfl

theorem document_of_not_isJson (hq : q.isJson = false) (hv : v.Nested Json.ReadableAtom)
    (htext : Json.ofValue indent v = .ok text) (hfile : files.text q = .ok text.toList) :
    files.document readers q = v.reread.elim (.error (.malformed q Yaml.Fault.malformed.message)) .ok := by
  rw [document, hfile]
  simp only [bind, Except.bind, Readers.value, readers, hq, Bool.false_eq_true, if_false, ofYaml, Yaml.read_ofValue hv htext]
  cases v.reread <;> rfl

/-- The bytes of a text in ASCII. -/
def bytesOf (cs : List Char) : List UInt8 := cs.map fun c => .ofNat c.toNat

theorem decodeFrom_bytesOf {cs : List Char} (h : Yaml.Layout.Written cs) (position : Nat) :
    Text.Utf8.decodeFrom position (bytesOf cs) = .ok cs := by
  induction cs generalizing position with
  | nil => exact Text.Utf8.decodeFrom_nil position
  | cons c cs ih =>
    obtain ⟨hc, hcs⟩ := List.forall_mem_cons.mp h
    have hsmall : c.toNat < 128 := by
      rcases hc with hc | rfl
      · exact Nat.lt_of_le_of_lt hc.2 (by decide)
      · decide
    have hbyte : (UInt8.ofNat c.toNat).toNat = c.toNat := by
      rw [UInt8.toNat_ofNat']
      omega
    have hascii : UInt8.ofNat c.toNat < 0x80 := by
      rw [UInt8.lt_iff_toNat_lt, hbyte]
      exact hsmall
    rw [bytesOf, List.map_cons, Text.Utf8.decodeFrom_ascii position hascii]
    have hrest := ih hcs (position + 1)
    rw [bytesOf] at hrest
    rw [hrest, hbyte, Char.ofNat_toNat]

/-- What JSON writes is read from a file as it was written. -/
theorem text_of_written {cs : List Char} (h : Yaml.Layout.Written cs) (hfile : files p.text = .file (bytesOf cs)) :
    files.text p = .ok cs := by
  have hreturn : '\r' ∉ cs := by
    intro hmem
    rcases h _ hmem with hc | hc
    · exact absurd hc (by decide)
    · cases hc
  rw [Files.text, hfile]
  simp only [Text.Utf8.decode, decodeFrom_bytesOf h, Except.map, String.toList_ofList]
  rw [withLineFeeds_eq cs hreturn]

/-- The text of a value holds the value under the suffix of JSON. Under any other suffix it holds the same value if that is
portable, and only then. -/
theorem document_suffix (hv : v.Nested Json.ReadableAtom) (htext : Json.ofValue indent v = .ok text) (hp : p.isJson = true)
    (hq : q.isJson = false) (hfile : files.text p = .ok text.toList) (hother : files.text q = .ok text.toList) :
    files.document readers p = .ok v ∧ (files.document readers q = .ok v ↔ v.isPortable = true) := by
  refine ⟨document_of_isJson hp hv htext hfile, ?_⟩
  rw [document_of_not_isJson hq hv htext hother, ← Value.reread_eq_some_iff]
  cases v.reread <;> simp

theorem document_suffix_half : ∃ (files : Files) (v : Value) (text : String),
    v = .list [.number (.float (Binary64.ofDecimal false 5 (-1)))] ∧ files = (fun _ => .file (bytesOf text.toList)) ∧
      Json.ofValue none v = .ok text ∧ files.document readers (Path.ofText "limits.json") = .ok v ∧
        files.document readers (Path.ofText "limits.yaml") = .ok v := by
  let x : Binary64 := Binary64.ofDecimal false 5 (-1)
  let v : Value := .list [.number (.float x)]
  have hformat : x.format Json.layout = "0.5" := by decide +kernel
  have hnan : x.isNaN = false := by decide +kernel
  have hv : v.Nested Json.ReadableAtom :=
    .list (List.forall_mem_singleton.mpr (.atom fun h => absurd h (by rw [hnan]; exact Bool.false_ne_true)))
  have htext : Json.ofValue none v = .ok "[0.5]" :=
    Json.write_list.mpr ⟨["0.5"], .cons (congrArg Except.ok hformat) .nil, rfl⟩
  have hprintable : ∀ c ∈ "[0.5]".toList, Text.IsPrintable c := List.all_iff_forall_prop.mp rfl
  have hwritten : Yaml.Layout.Written "[0.5]".toList := fun c hc => .inl (hprintable c hc)
  have hportable : v.isPortable = true := by decide +kernel
  have hfile (p : Path) : text (fun _ => .file (bytesOf "[0.5]".toList)) p = .ok "[0.5]".toList := text_of_written hwritten rfl
  obtain ⟨hjson, hyaml⟩ := document_suffix hv htext (p := Path.ofText "limits.json") (q := Path.ofText "limits.yaml")
    (by decide +kernel) (by decide +kernel) (hfile _) (hfile _)
  exact ⟨_, v, "[0.5]", rfl, rfl, htext, hjson, hyaml.mpr hportable⟩

/-- A large number is read as a text under another suffix. -/
theorem large_number_read_as_text : ∃ (files : Files) (x : Binary64), x = Binary64.ofDecimal false 1 16 ∧
    Json.ofValue none (.number (.float x)) = .ok "1e+16" ∧ files = (fun _ => .file (bytesOf "1e+16".toList)) ∧
      files.document readers (Path.ofText "limit.json") = .ok (.number (.float x)) ∧
        files.document readers (Path.ofText "limit.yaml") = .ok (.str "1e+16") := by
  let x : Binary64 := Binary64.ofDecimal false 1 16
  have hformat : x.format Json.layout = "1e+16" := by decide +kernel
  have hnan : x.isNaN = false := by decide +kernel
  have hv : (Value.number (.float x)).Nested Json.ReadableAtom :=
    .atom fun h => absurd h (by rw [hnan]; exact Bool.false_ne_true)
  have htext : Json.ofValue none (.number (.float x)) = .ok "1e+16" := congrArg Except.ok hformat
  have hprintable : ∀ c ∈ "1e+16".toList, Text.IsPrintable c := List.all_iff_forall_prop.mp rfl
  have hfile (p : Path) : text (fun _ => .file (bytesOf "1e+16".toList)) p = .ok "1e+16".toList :=
    text_of_written (fun c hc => .inl (hprintable c hc)) rfl
  have hreread : (Value.number (.float x)).reread = some (.str "1e+16") := by
    rw [Value.reread, hformat]
    rfl
  refine ⟨_, x, rfl, htext, rfl, document_of_isJson (by decide +kernel) hv htext (hfile _), ?_⟩
  rw [document_of_not_isJson (by decide +kernel) hv htext (hfile _), hreread]
  rfl

end Files

end RuleTree
