import RuleTree.Proofs.Yaml.Scanning
import RuleTree.Yaml.Layout

/-!
# Cutting flows into tokens

The tokens of a text that is made of brackets, commas, colons, quoted texts and words, as JSON writes it. No block is open and
no key is demanded anywhere in such a text, so a token is cut the same way wherever it stands. A name is taken for a key if its
colon is in reach.
-/

namespace RuleTree.Yaml.Layout

open Scan (AreBlanks Opens Closes IsWord)

variable {s t : Layout} {ws r : List Char} {c : Char} {ts us : List Token}

/-! ### Layouts without blocks -/

/-- No block is open, and no candidate has to be a key. -/
structure Calm (s : Layout) : Prop where
  blocks : s.blocks = []
  candidate : ∀ c ∈ s.candidate, c.required = false
  outer : ∀ o ∈ s.outer, ∀ c ∈ o, c.required = false

/-- A layout at another place, with the candidates that are in reach from there. -/
def settle (s : Layout) (q : Place) : Layout :=
  { s with place := q, candidate := s.candidate.filter (!isStale q ·), outer := s.outer.map (Option.filter (!isStale q ·)) }

theorem Calm.settle (h : s.Calm) (q : Place) : (s.settle q).Calm where
  blocks := h.blocks
  candidate := fun c hc => h.candidate c (Option.mem_filter_iff.mp hc).1
  outer := by
    intro o ho c hc
    obtain ⟨o', ho', rfl⟩ := List.mem_map.mp ho
    exact h.outer o' ho' c (Option.mem_filter_iff.mp hc).1

theorem inFlow_iff : s.inFlow = true ↔ 0 < s.outer.length := by
  rw [inFlow, List.length_pos_iff]
  simp

theorem inFlow_eq_of_length (h : t.outer.length = s.outer.length) : t.inFlow = s.inFlow := by
  rw [Bool.eq_iff_iff, inFlow_iff, inFlow_iff, h]

theorem Calm.dropStale (h : s.Calm) : s.dropStale = .ok (s.settle s.place) := by
  have hnone : ((s.candidate :: s.outer).any fun o => o.any fun c => c.required && isStale s.place c) = false := by
    rw [List.any_eq_false]
    intro o ho hany
    have hfree : ∀ c ∈ o, c.required = false := by
      rcases List.mem_cons.mp ho with rfl | ho
      · exact h.candidate
      · exact h.outer o ho
    cases o with
    | none => cases hany
    | some c =>
      rw [Option.any_some, hfree c rfl, Bool.false_and] at hany
      cases hany
  rw [Layout.dropStale]
  simp only [hnone]
  rfl

theorem Calm.dropCandidate (h : s.Calm) : s.dropCandidate = .ok { s with candidate := none } := by
  rw [Layout.dropCandidate, if_neg]
  cases hc : s.candidate with
  | none => exact Bool.false_ne_true
  | some c =>
    rw [Option.any_some, h.candidate c hc]
    exact Bool.false_ne_true

theorem Calm.closeBlocks (h : s.Calm) (column : Option Nat) : s.closeBlocks column = s := by
  rw [Layout.closeBlocks]
  split
  · rfl
  · rw [h.blocks]
    cases s
    cases h.blocks
    simp [deeper]

/-- Where a key may stand, the next token is a candidate that does not have to be one. -/
theorem Calm.saveCandidate (h : s.Calm) : s.saveCandidate = .ok (if s.keyAllowed then
    { s with candidate := some ⟨s.tokens.size, false, s.place.index, s.place.line, s.place.column⟩ } else s) := by
  rw [Layout.saveCandidate]
  split
  · rw [h.dropCandidate]
    simp only [bind, Except.bind, h.blocks, List.head?_nil]
    simp
    rfl
  · rfl

theorem Calm.save (h : s.Calm) : ∃ u, s.saveCandidate = .ok u ∧ u.Calm ∧ u.place = s.place ∧ u.tokens = s.tokens ∧
    u.outer = s.outer := by
  refine ⟨_, h.saveCandidate, ?_⟩
  split
  · refine ⟨⟨h.blocks, fun c hc => ?_, h.outer⟩, rfl, rfl, rfl⟩
    cases hc
    rfl
  · exact ⟨h, rfl, rfl, rfl⟩

/-! ### Steps -/

/-- Cutting goes on from one layout to a later one. In both there is fuel enough. -/
def Reaches (s t : Layout) : Prop :=
  ∀ n, s.place.rest.length < n → ∃ m, t.place.rest.length < m ∧ tokensFrom n s = tokensFrom m t

theorem Reaches.trans {u : Layout} (h : Reaches s t) (h' : Reaches t u) : Reaches s u := by
  intro n hn
  obtain ⟨m, hm, heq⟩ := h n hn
  obtain ⟨k, hk, heq'⟩ := h' m hm
  exact ⟨k, hk, heq.trans heq'⟩

/-- Before the next token the blanks are left out, and nothing else happens but that candidates get out of reach. -/
theorem Calm.toNext (h : s.Calm) (hws : AreBlanks ws) (hr : Opens r) (hp : s.place.rest = ws ++ r)
    (hflow : s.inFlow = true ∨ ws = []) :
    ∃ q, q.rest = r ∧ (ws = [] → q = s.place) ∧ s.toNext = .ok (s.settle q) := by
  have hrounds : ws.length < s.place.rest.length + 1 := by
    rw [hp, List.length_append]
    omega
  obtain ⟨lineEnded, q, hgap, hq, hsame⟩ := Scan.gap_run hws hr hrounds hp
  refine ⟨q, hq, fun hnil => (hsame hnil).2, ?_⟩
  have hscan : (s.scan do Scan.gap (← Scan.rounds)) = .ok (lineEnded, { s with place := q }) := by
    rw [scan, run_bind_of_ok (Scan.run_rounds s.place), hgap]
    rfl
  have hkey : (lineEnded && !({ s with place := q } : Layout).inFlow) = false := by
    rcases hflow with hflow | hnil
    · have hsettled : ({ s with place := q } : Layout).inFlow = true := hflow
      rw [hsettled, Bool.not_true, Bool.and_false]
    · rw [(hsame hnil).1, Bool.false_and]
  have hmoved : Calm { s with place := q } := ⟨h.blocks, h.candidate, h.outer⟩
  rw [Layout.toNext, hscan]
  simp only [bind, Except.bind, hkey, Bool.false_eq_true, if_false, hmoved.dropStale]
  exact congrArg Except.ok ((hmoved.settle q).closeBlocks (some q.column))

theorem reaches_of_token {u : Layout} (hnext : s.toNext = .ok t) (hr : t.place.rest = c :: r) (htoken : t.token c = .ok u)
    (hlen : u.place.rest.length < s.place.rest.length) : Reaches s u := by
  intro n hn
  obtain ⟨m, rfl⟩ := Nat.exists_eq_add_of_lt (Nat.zero_lt_of_lt hn)
  refine ⟨0 + m, by omega, ?_⟩
  have hpeek : t.place.peek = some c := by rw [Place.peek, hr, List.head?_cons]
  rw [tokensFrom, hnext]
  simp only [bind, Except.bind, Except.mapError, hpeek, htoken]

/-- What a step leads to: some tokens more, and some text less. -/
structure Leads (s : Layout) (ts : List Token) (t : Layout) : Prop where
  reaches : Reaches s t
  tokens : t.tokens.toList = s.tokens.toList ++ ts
  calm : t.Calm

theorem Leads.trans {u : Layout} (h : Leads s ts t) (h' : Leads t us u) : Leads s (ts ++ us) u where
  reaches := h.reaches.trans h'.reaches
  tokens := by rw [h'.tokens, h.tokens, List.append_assoc]
  calm := h'.calm

/-- Where a text is cut: blanks stand in front, of which there are none outside of flows. -/
structure Stands (s : Layout) (r : List Char) : Prop where
  calm : s.Calm
  rest : ∃ ws, AreBlanks ws ∧ s.place.rest = ws ++ r ∧ (s.inFlow = true ∨ ws = [])

theorem Stands.step (h : s.Stands (c :: r)) (hopens : Opens (c :: r)) {ts : List Token} {good : Layout → Prop}
    (htoken : ∀ u : Layout, u.Calm → u.place.rest = c :: r → u.outer.length = s.outer.length → u.keyAllowed = s.keyAllowed →
      u.tokens = s.tokens → ∃ t, u.token c = .ok t ∧ t.Calm ∧ t.tokens.toList = u.tokens.toList ++ ts ∧
        t.place.rest.length ≤ r.length ∧ good t) :
    ∃ t, Leads s ts t ∧ good t := by
  obtain ⟨ws, hws, hp, hflow⟩ := h.rest
  obtain ⟨q, hq, -, hnext⟩ := h.calm.toNext hws hopens hp hflow
  obtain ⟨t, ht, hcalm, htokens, hlen, hgood⟩ := htoken (s.settle q) (h.calm.settle q) hq
    (by simp [Layout.settle]) rfl rfl
  refine ⟨t, ⟨reaches_of_token hnext hq ht ?_, htokens, hcalm⟩, hgood⟩
  rw [hp, List.length_append, List.length_cons]
  omega

/-! ### Signs -/

/-- A character that is no sign of its own at the start of a line. -/
theorem token_eq (hsign : c ≠ '%') (hseparator : s.place.isSeparator = false) : s.token c =
    (if c = '[' then s.openFlow .flowSequenceStart
    else if c = '\x7b' then s.openFlow .flowMappingStart
    else if c = ']' then s.closeFlow .flowSequenceEnd
    else if c = '\x7d' then s.closeFlow .flowMappingEnd
    else if c = ',' then s.flowEntry
    else if c = '-' ∧ endsWord (s.place.peekAt 1) then s.blockEntry
    else if c = '?' ∧ (s.inFlow ∨ endsWord (s.place.peekAt 1)) then s.key
    else if c = ':' ∧ (s.inFlow ∨ endsWord (s.place.peekAt 1)) then s.value
    else if c = '*' then s.maybeKey (Token.alias <$> Scan.anchorName)
    else if c = '&' then s.maybeKey (Token.anchor <$> Scan.anchorName)
    else if c = '!' then s.maybeKey Scan.tag
    else if (c = '|' ∨ c = '>') ∧ !s.inFlow then s.block (c = '>')
    else if c = '\'' ∨ c = '"' then s.maybeKey (Scan.quoted c)
    else if startsPlain s.inFlow c (s.place.peekAt 1) then s.plain
    else .error .malformed) := by
  rw [token]
  simp only [hsign, hseparator, and_false, if_false, Bool.false_eq_true]

theorem isSeparator_of_sign (h : s.place.rest = c :: r) (hdash : c ≠ '-') (hpoint : c ≠ '.') : s.place.isSeparator = false := by
  refine Scan.isSeparator_eq_false fun d hd => ?_
  rw [h] at hd
  cases hd
  exact ⟨hdash, hpoint⟩

theorem rest_advance_one (h : s.place.rest = c :: r) : (s.place.advance 1).rest = r := by
  rw [Scan.rest_advance, h]
  rfl

/-- The two sorts of brackets, with their tokens. -/
inductive Brackets : Char → Char → Token → Token → Prop
  | row : Brackets '[' ']' .flowSequenceStart .flowSequenceEnd
  | mapping : Brackets '\x7b' '\x7d' .flowMappingStart .flowMappingEnd

section Signs

variable {opening close : Char} {first last : Token}

theorem open_step (hb : Brackets opening close first last) (h : s.Stands (opening :: r)) :
    ∃ t, Leads s [first] t ∧ t.place.rest = r ∧ t.outer.length = s.outer.length + 1 ∧ t.keyAllowed = true := by
  have hopens : Opens (opening :: r) := by
    intro c hc
    cases hb <;> cases hc <;> decide
  refine h.step hopens fun u hu hrest houter _ _ => ?_
  have htoken : u.token opening = u.openFlow first := by
    cases hb with
    | row => simp [token_eq (c := '[') (by decide) (isSeparator_of_sign hrest (by decide) (by decide))]
    | mapping => simp [token_eq (c := '\x7b') (by decide) (isSeparator_of_sign hrest (by decide) (by decide))]
  obtain ⟨v, hsave, hcalm, hplace, htokens, hvouter⟩ := hu.save
  refine ⟨({ v with outer := v.candidate :: v.outer, candidate := none, keyAllowed := true }.add first).advance 1, ?_, ?_, ?_, ?_⟩
  · rw [htoken, openFlow, hsave]
    rfl
  · exact ⟨hcalm.blocks, fun _ hc => absurd hc (Option.not_mem_none _), List.forall_mem_cons.mpr ⟨hcalm.candidate, hcalm.outer⟩⟩
  · simp [Layout.advance, Layout.add, htokens]
  · have hnext : (v.place.advance 1).rest = r := by rw [hplace, rest_advance_one hrest]
    exact ⟨le_of_eq (congrArg List.length hnext), hnext, by simp [Layout.advance, Layout.add, hvouter, houter], rfl⟩

theorem close_step (hb : Brackets opening close first last) (h : s.Stands (close :: r)) (hflow : s.outer ≠ []) :
    ∃ t, Leads s [last] t ∧ t.place.rest = r ∧ t.outer.length + 1 = s.outer.length := by
  have hopens : Opens (close :: r) := by
    intro c hc
    cases hb <;> cases hc <;> decide
  refine h.step hopens fun u hu hrest houter _ _ => ?_
  have htoken : u.token close = u.closeFlow last := by
    cases hb with
    | row => simp [token_eq (c := ']') (by decide) (isSeparator_of_sign hrest (by decide) (by decide))]
    | mapping => simp [token_eq (c := '\x7d') (by decide) (isSeparator_of_sign hrest (by decide) (by decide))]
  obtain ⟨o, os, hos⟩ : ∃ o os, u.outer = o :: os := by
    refine List.exists_cons_of_ne_nil fun hnil => hflow ?_
    rw [hnil] at houter
    exact List.length_eq_zero_iff.mp houter.symm
  have hcalm := hu.outer
  rw [hos, List.forall_mem_cons] at hcalm
  refine ⟨({ u with candidate := o, outer := os, keyAllowed := false }.add last).advance 1, ?_, ?_, ?_, ?_⟩
  · rw [htoken, closeFlow, hu.dropCandidate]
    simp only [bind, Except.bind, hos]
    rfl
  · exact ⟨hu.blocks, hcalm.1, hcalm.2⟩
  · simp [Layout.advance, Layout.add]
  · have hnext : (u.place.advance 1).rest = r := rest_advance_one hrest
    refine ⟨le_of_eq (congrArg List.length hnext), hnext, ?_⟩
    rw [← houter, hos]
    rfl

theorem comma_step (h : s.Stands (',' :: r)) :
    ∃ t, Leads s [.flowEntry] t ∧ t.place.rest = r ∧ t.outer.length = s.outer.length ∧ t.keyAllowed = true := by
  have hopens : Opens (',' :: r) := by
    intro c hc
    cases hc
    decide
  refine h.step hopens fun u hu hrest houter _ _ => ?_
  have htoken : u.token ',' = u.flowEntry := by
    simp [token_eq (c := ',') (by decide) (isSeparator_of_sign hrest (by decide) (by decide))]
  refine ⟨({ u with candidate := none, keyAllowed := true }.add .flowEntry).advance 1, ?_, ?_, ?_, ?_⟩
  · rw [htoken, flowEntry, hu.dropCandidate]
    rfl
  · exact ⟨hu.blocks, fun _ hc => absurd hc (Option.not_mem_none _), hu.outer⟩
  · simp [Layout.advance, Layout.add]
  · have hnext : (u.place.advance 1).rest = r := rest_advance_one hrest
    exact ⟨le_of_eq (congrArg List.length hnext), hnext, houter, rfl⟩

end Signs

/-! ### Words -/

/-- How words begin that are told from all signs by their first character, or by the second one behind a dash. -/
inductive StartsWord : List Char → Prop
  | letter (c : Char) (cs : List Char) (h : c.isAlphanum = true) : StartsWord (c :: cs)
  | dash (d : Char) (ds : List Char) (hblank : isBlankOrBreak d = false) (hdash : d ≠ '-') : StartsWord ('-' :: d :: ds)

/-- The signs with a meaning of their own at the start of a token. -/
def signs : List Char :=
  ['%', '[', ']', '\x7b', '\x7d', ',', '-', '?', ':', '*', '&', '!', '|', '>', '\'', '"', '#', '@', '\x60', '.']

theorem not_mem_signs (h : c.isAlphanum = true) : c ∉ signs := by
  intro hc
  have hall : ∀ d ∈ signs, d.isAlphanum = false := List.all_iff_forall_prop.mp rfl
  rw [hall c hc] at h
  cases h

theorem isBlankOrBreak_of_isAlphanum (h : c.isAlphanum = true) : isBlankOrBreak c = false := by
  by_contra hblank
  simp only [isBlankOrBreak, isSpaceOrTab, isBreak, Bool.not_eq_false, Bool.or_eq_true, beq_iff_eq] at hblank
  rcases hblank with (rfl | rfl) | (((rfl | rfl) | rfl) | rfl) | rfl <;> exact absurd h (by decide)

theorem token_word {cs : List Char} (h : StartsWord (c :: cs)) (hp : s.place.rest = c :: cs ++ r) : s.token c = s.plain := by
  cases h with
  | letter _ _ hc =>
    have hsigns := not_mem_signs hc
    have hblank := isBlankOrBreak_of_isAlphanum hc
    simp only [signs, List.mem_cons, List.not_mem_nil, or_false, not_or] at hsigns
    have hstart : startsPlain s.inFlow c (s.place.peekAt 1) = true := by
      simp [startsPlain, hblank, hsigns]
    rw [token_eq hsigns.1 (isSeparator_of_sign hp (by simp [hsigns]) (by simp [hsigns]))]
    simp [hsigns, hstart]
  | dash d ds hblank hdash =>
    have hseparator : s.place.isSeparator = false := by
      simp [Place.isSeparator, hp, hdash]
    have hword : endsWord (s.place.peekAt 1) = false := by
      simp [Place.peekAt, hp, endsWord, hblank]
    rw [token_eq (by decide) hseparator]
    simp [hword, startsPlain]

/-- A word, whatever blanks stand between it and what ends it. -/
theorem word_step {cs ws : List Char} (hcs : IsWord cs) (hstart : StartsWord cs) (hws : AreBlanks ws) (hr : Closes r)
    (hflow : s.inFlow = true ∨ r = []) (h : s.Stands (cs ++ (ws ++ r))) :
    ∃ t, Leads s [.scalar (String.ofList cs) true] t ∧ t.place.rest = r ∧ t.outer.length = s.outer.length := by
  obtain ⟨c, cs', rfl⟩ := List.exists_cons_of_ne_nil hcs.nonempty
  have hopens : Opens (c :: cs' ++ (ws ++ r)) := by
    intro d hd
    cases hd
    obtain ⟨hblank, -, hmem⟩ := hcs.chars c List.mem_cons_self
    simp only [List.mem_cons, List.not_mem_nil, or_false, not_or] at hmem
    exact ⟨hblank, hmem.2.2⟩
  refine h.step hopens fun u hu hrest houter _ _ => ?_
  obtain ⟨v, hsave, hcalm, hplace, htokens, hvouter⟩ := hu.save
  have hdepth : v.outer.length = s.outer.length := (congrArg List.length hvouter).trans houter
  have hinFlow : v.inFlow = true ∨ r = [] := hflow.imp_left (inFlow_eq_of_length hdepth).trans
  have hvrest : v.place.rest = c :: cs' ++ (ws ++ r) := by rw [hplace, hrest]; rfl
  obtain ⟨lineEnded, q, hrun, hq⟩ := Scan.plain_run ((v.blocks.head?.map (· + 1)).getD 0) hcs hws hr hinFlow hvrest
  refine ⟨{ v with place := q, keyAllowed := lineEnded }.add (.scalar (String.ofList (c :: cs')) true), ?_, ?_, ?_, ?_⟩
  · rw [token_word hstart hrest, plain, hsave]
    simp only [bind, Except.bind, scan, hrun, Except.map]
    rfl
  · exact ⟨hcalm.blocks, hcalm.candidate, hcalm.outer⟩
  · simp [Layout.add, htokens]
  · refine ⟨?_, hq, ?_⟩
    · change q.rest.length ≤ (cs' ++ (ws ++ r)).length
      rw [hq, List.length_append, List.length_append]
      omega
    · exact hdepth

/-! ### Quoted texts and names -/

section Names

open Json (quote)

/-- What a quoted text is read as. -/
def halved (s : String) : String := String.ofList (s.toList.flatMap Text.halves)

/-- The greatest length of a key, quotes included. -/
def maxKey : Nat := 1024

theorem quote_toList_eq_cons (name : String) : ∃ cs, (quote name).toList = '"' :: cs := by
  rw [quote, String.toList_ofList]
  exact ⟨_, rfl⟩

/-- A quoted text. Where a key may stand it becomes the candidate. -/
theorem quoted_step (name : String) (h : s.Stands ((quote name).toList ++ r)) :
    ∃ t, Leads s [.scalar (halved name) false] t ∧ t.place.rest = r ∧ t.outer.length = s.outer.length ∧
      t.tokens = s.tokens.push (.scalar (halved name) false) ∧ (s.keyAllowed = true → ∃ p : Place,
        t.candidate = some ⟨s.tokens.size, false, p.index, p.line, p.column⟩ ∧ Ahead (quote name).toList p t.place) := by
  obtain ⟨cs, hcs⟩ := quote_toList_eq_cons name
  rw [hcs, List.cons_append] at h
  have hopens : Opens ('"' :: (cs ++ r)) := by
    intro c hc
    cases hc
    decide
  refine h.step hopens fun u hu hrest houter hkey htokens => ?_
  have htoken : u.token '"' = u.maybeKey (Scan.quoted '"') := by
    simp [token_eq (c := '"') (by decide) (isSeparator_of_sign hrest (by decide) (by decide))]
  have hrest' : u.place.rest = (quote name).toList ++ r := by rw [hrest, hcs, List.cons_append]
  obtain ⟨q, hrun, hahead⟩ := Scan.quoted_run name hrest'
  obtain ⟨v, hsave, hv, hplace, hvtokens, hvouter⟩ := hu.save
  rw [← hplace] at hrun
  refine ⟨{ v with place := q, keyAllowed := false }.add (.scalar (halved name) false), ?_, ?_, ?_, ?_, ?_, ?_, ?_, ?_⟩
  · rw [htoken, maybeKey, hsave]
    simp only [bind, Except.bind, scan, hrun, Except.map]
    rfl
  · exact ⟨hv.blocks, hv.candidate, hv.outer⟩
  · simp [Layout.add, hvtokens]
  · change q.rest.length ≤ (cs ++ r).length
    rw [hahead.rest_eq hrest', List.length_append]
    omega
  · exact hahead.rest_eq hrest'
  · exact (congrArg List.length hvouter).trans houter
  · simp [Layout.add, hvtokens, htokens]
  · intro hallowed
    refine ⟨u.place, ?_, hahead⟩
    rw [hu.saveCandidate, hkey, if_pos hallowed] at hsave
    cases hsave
    simp [Layout.add, htokens]

theorem insert_key (tokens : Array Token) (t : Token) :
    ((tokens.push t).insertIdxIfInBounds tokens.size .key).toList = tokens.toList ++ [.key, t] := by
  have hinsert (l : List Token) : (l ++ [t]).insertIdx l.length .key = l ++ [.key, t] := by
    induction l with
    | nil => rfl
    | cons d l ih => rw [List.cons_append, List.length_cons, List.insertIdx_succ_cons, ih, List.cons_append]
  rw [Array.insertIdxIfInBounds, dif_pos (by simp), Array.toList_insertIdx, Array.toList_push]
  exact hinsert tokens.toList

/-- The tokens of a name with its colon: the name is taken for a key if the colon is in reach. -/
def nameTokens (name : String) : List Token :=
  if (quote name).toList.length ≤ maxKey then [.key, .scalar (halved name) false, .value]
  else [.scalar (halved name) false, .value]

theorem isStale_of_ahead {p q : Place} {cs : List Char} (h : Ahead cs p q) (number column : Nat) (required : Bool) :
    isStale q ⟨number, required, p.index, p.line, column⟩ = decide (maxKey < cs.length) := by
  rw [isStale, h.line, h.index, Nat.add_sub_cancel_left, bne_self_eq_false, Bool.false_or]
  rfl

/-- A name and the colon behind it, in a mapping. -/
theorem name_step (name : String) (hflow : s.inFlow = true) (hkey : s.keyAllowed = true)
    (h : s.Stands ((quote name).toList ++ ':' :: r)) :
    ∃ t, Leads s (nameTokens name) t ∧ t.place.rest = r ∧ t.outer.length = s.outer.length := by
  obtain ⟨u, hu, hrest, houter, htokens, hcandidate⟩ := quoted_step name h
  obtain ⟨p, hp, hahead⟩ := hcandidate hkey
  have hopens : Opens (':' :: r) := by
    intro c hc
    cases hc
    decide
  obtain ⟨q, -, hsame, hnext⟩ := hu.calm.toNext (List.forall_mem_nil _) hopens hrest (.inr rfl)
  obtain rfl := hsame rfl
  have hdepth : (u.settle u.place).outer.length = s.outer.length := by rw [Layout.settle, List.length_map, houter]
  have hinFlow : (u.settle u.place).inFlow = true := (inFlow_eq_of_length hdepth).trans hflow
  have hsettled : (u.settle u.place).Calm := hu.calm.settle u.place
  have hseparator : (u.settle u.place).place.isSeparator = false :=
    isSeparator_of_sign (s := u.settle u.place) hrest (by decide) (by decide)
  have htoken : (u.settle u.place).token ':' = (u.settle u.place).value := by
    rw [token_eq (by decide) hseparator]
    simp [hinFlow]
  have hcandidate : (u.settle u.place).candidate = if (quote name).toList.length ≤ maxKey then u.candidate else none := by
    rw [Layout.settle, hp, Option.filter_some, isStale_of_ahead hahead]
    by_cases hlen : (quote name).toList.length ≤ maxKey
    · simp [hlen]
    · simp [hlen]
  have hend : (u.place.advance 1).rest = r := rest_advance_one hrest
  have hless : (u.place.advance 1).rest.length < u.place.rest.length := by
    rw [hend, hrest]
    exact Nat.lt_succ_self _
  by_cases hlen : (quote name).toList.length ≤ maxKey
  · rw [if_pos hlen, hp] at hcandidate
    have hvalue : (u.settle u.place).value = .ok (({ (u.settle u.place) with
        candidate := none, keyAllowed := false, tokens := u.tokens.insertIdxIfInBounds s.tokens.size .key }.add
          .value).advance 1) := by
      rw [value, hcandidate]
      simp only [inFlow, Layout.settle] at hinFlow ⊢
      simp only [hinFlow, if_true]
    refine ⟨_, ⟨hu.reaches.trans (reaches_of_token hnext hrest (htoken.trans hvalue) hless), ?_, ?_⟩, hend, hdepth⟩
    · rw [nameTokens, if_pos hlen]
      simp [Layout.advance, Layout.add, htokens, insert_key]
    · exact ⟨hsettled.blocks, fun _ hc => absurd hc (Option.not_mem_none _), hsettled.outer⟩
  · rw [if_neg hlen] at hcandidate
    have hvalue : (u.settle u.place).value =
        .ok (({ (u.settle u.place) with keyAllowed := false }.add .value).advance 1) := by
      rw [value, hcandidate]
      simp only [openHere, hinFlow, if_true, bind, Except.bind, Bool.not_true]
      rfl
    refine ⟨_, ⟨hu.reaches.trans (reaches_of_token hnext hrest (htoken.trans hvalue) hless), ?_, ?_⟩, hend, hdepth⟩
    · rw [nameTokens, if_neg hlen]
      simp [Layout.advance, Layout.add, Layout.settle, htokens]
    · exact ⟨hsettled.blocks, hsettled.candidate, hsettled.outer⟩

end Names

end RuleTree.Yaml.Layout
