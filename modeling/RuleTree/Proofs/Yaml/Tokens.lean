import RuleTree.Proofs.Json.Nesting
import RuleTree.Proofs.Yaml.Flows

/-!
# The tokens of texts in JSON

A text in JSON is cut into tokens part by part: what is between brackets one by one, with the tokens of the commas between
them, whatever line breaks and indentation the text has.
-/

namespace RuleTree.Yaml.Layout

open Json (quote bracket mark lineBreak)
open Scan (AreBlanks Closes IsWord)

variable {s t : Layout} {cs ws r : List Char} {ts : List Token}

/-! ### Blanks -/

theorem lineBreak_areBlanks (indent : Option Nat) (level : Nat) : AreBlanks (lineBreak indent level).toList := by
  cases indent with
  | none => simp [lineBreak, AreBlanks]
  | some n =>
    intro c hc
    rw [lineBreak, String.toList_ofList] at hc
    rcases List.mem_cons.mp hc with rfl | hc
    · exact .inr rfl
    · exact .inl (List.eq_of_mem_replicate hc)

theorem mark_eq_comma (indent : Option Nat) (level : Nat) :
    ∃ blanks, (mark indent level).toList = ',' :: blanks ∧ AreBlanks blanks := by
  cases indent with
  | none => exact ⟨[' '], by simp [mark], List.forall_mem_singleton.mpr (.inl rfl)⟩
  | some n =>
    refine ⟨_, ?_, lineBreak_areBlanks (some n) (level + 1)⟩
    rw [mark, Option.isSome_some, if_pos rfl, String.toList_append]
    rfl

/-! ### Elements -/

/-- What JSON writes: printable characters and line breaks. -/
def Written (cs : List Char) : Prop := ∀ c ∈ cs, Text.IsPrintable c ∨ c = '\n'

theorem written_append {ds : List Char} (h : Written cs) (h' : Written ds) : Written (cs ++ ds) :=
  List.forall_mem_append.mpr ⟨h, h'⟩

theorem written_of_areBlanks (h : AreBlanks ws) : Written ws := by
  intro c hc
  rcases h c hc with rfl | rfl
  · exact .inl (by decide)
  · exact .inr rfl

theorem written_quote (name : String) : Written (quote name).toList := by
  rw [quote, String.toList_ofList]
  refine List.forall_mem_cons.mpr ⟨.inl (by decide), List.forall_mem_append.mpr ⟨fun c hc => ?_, ?_⟩⟩
  · obtain ⟨d, -, hd⟩ := List.mem_flatMap.mp hc
    exact .inl (Json.escapeChar_printable d c hd)
  · exact List.forall_mem_singleton.mpr (.inl (by decide))

/-- A text of an element: it is cut into some tokens wherever it may stand, with blanks and the end of the element behind. -/
structure Cuts (cs : List Char) (ts : List Token) : Prop where
  written : Written cs
  leads : ∀ {s : Layout} {ws r : List Char}, AreBlanks ws → Closes r → (s.inFlow = true ∨ ws = [] ∧ r = []) →
    s.Stands (cs ++ (ws ++ r)) → ∃ t, Leads s ts t ∧ t.Stands r ∧ t.outer.length = s.outer.length

/-- A text of an element of a flow, where a key may stand. -/
structure CutsPart (cs : List Char) (ts : List Token) : Prop where
  written : Written cs
  leads : ∀ {s : Layout} {ws r : List Char}, AreBlanks ws → Closes r → s.inFlow = true → s.keyAllowed = true →
    s.Stands (cs ++ (ws ++ r)) → ∃ t, Leads s ts t ∧ t.Stands r ∧ t.outer.length = s.outer.length

theorem Cuts.part (h : Cuts cs ts) : CutsPart cs ts where
  written := h.written
  leads := fun hws hr hflow _ hs => h.leads hws hr (.inl hflow) hs

theorem stands_of_rest (ht : t.Calm) (hws : AreBlanks ws) (hrest : t.place.rest = ws ++ r)
    (hflow : s.inFlow = true ∨ ws = [] ∧ r = []) (hdepth : t.outer.length = s.outer.length) : t.Stands r :=
  ⟨ht, ws, hws, hrest, hflow.imp (inFlow_eq_of_length hdepth).trans And.left⟩

theorem cuts_word (hcs : IsWord cs) (hstart : StartsWord cs) (hwritten : Written cs) :
    Cuts cs [.scalar (String.ofList cs) true] where
  written := hwritten
  leads := by
    intro s ws r hws hr hflow hs
    obtain ⟨t, ht, hrest, hdepth⟩ := word_step hcs hstart hws hr (hflow.imp_right And.right) hs
    exact ⟨t, ht, ⟨ht.calm, [], List.forall_mem_nil _, hrest, .inr rfl⟩, hdepth⟩

theorem cuts_quote (text : String) : Cuts (quote text).toList [.scalar (halved text) false] where
  written := written_quote text
  leads := by
    intro s ws r hws _ hflow hs
    obtain ⟨t, ht, hrest, hdepth, -⟩ := quoted_step text hs
    exact ⟨t, ht, stands_of_rest ht.calm hws hrest hflow hdepth, hdepth⟩

theorem cutsPart_field (name : String) (h : Cuts cs ts) :
    CutsPart ((quote name).toList ++ (':' :: ' ' :: cs)) (nameTokens name ++ ts) where
  written := written_append (written_quote name)
    (List.forall_mem_cons.mpr ⟨.inl (by decide), List.forall_mem_cons.mpr ⟨.inl (by decide), h.written⟩⟩)
  leads := by
    intro s ws r hws hr hflow hkey hs
    rw [List.append_assoc] at hs
    obtain ⟨t, ht, hrest, hdepth⟩ := name_step name hflow hkey hs
    have hinFlow : t.inFlow = true := (inFlow_eq_of_length hdepth).trans hflow
    have hvalue : t.Stands (cs ++ (ws ++ r)) :=
      ⟨ht.calm, [' '], List.forall_mem_singleton.mpr (.inl rfl), hrest, .inl hinFlow⟩
    obtain ⟨u, hu, hend, hdepth'⟩ := h.leads hws hr (.inl hinFlow) hvalue
    exact ⟨u, ht.trans hu, hend, hdepth'.trans hdepth⟩

/-! ### Rows -/

/-- The tokens of several elements with those of the commas. -/
def joined (tss : List (List Token)) : List Token := [Token.flowEntry].intercalate tss

theorem joined_cons_cons (ts us : List Token) (tss : List (List Token)) :
    joined (ts :: us :: tss) = ts ++ .flowEntry :: joined (us :: tss) := by
  rw [joined, List.intercalate_cons_cons, List.append_assoc]
  rfl

section Rows

variable {indent : Option Nat} {level : Nat} {opening close : Char} {first last : Token} {texts : List String}
  {tss : List (List Token)}

theorem Brackets.closes (h : Brackets opening close first last) (r : List Char) : Closes (close :: r) := by
  intro c hc
  cases h with
  | row =>
    cases hc
    exact .inr (.inl rfl)
  | mapping =>
    cases hc
    exact .inr (.inr rfl)

/-- The elements between two brackets are cut one by one. -/
theorem joined_leads (hb : Brackets opening close first last)
    (h : List.Forall₂ (fun text ts => CutsPart text.toList ts) texts tss) (hne : texts ≠ []) (hws : AreBlanks ws)
    {s : Layout} (hflow : s.inFlow = true) (hkey : s.keyAllowed = true)
    (hs : s.Stands (((mark indent level).intercalate texts).toList ++ (ws ++ close :: r))) :
    ∃ t, Leads s (joined tss) t ∧ t.Stands (close :: r) ∧ t.outer.length = s.outer.length := by
  induction h generalizing s with
  | nil => exact absurd rfl hne
  | @cons text ts texts tss htext htexts ih =>
    cases htexts with
    | nil =>
      rw [String.intercalate_singleton] at hs
      rw [joined, List.intercalate_singleton]
      exact htext.leads hws (hb.closes r) hflow hkey hs
    | @cons other us others uss hother hothers =>
      obtain ⟨blanks, hmark, hblanks⟩ := mark_eq_comma indent level
      rw [String.intercalate_cons_cons, String.toList_append, String.toList_append, hmark, List.append_assoc,
        List.append_assoc, List.cons_append] at hs
      have hcomma : Closes (',' :: (blanks ++ (((mark indent level).intercalate (other :: others)).toList ++
          (ws ++ close :: r)))) := by
        intro c hc
        cases hc
        exact .inl rfl
      obtain ⟨t, ht, hend, hdepth⟩ := @CutsPart.leads _ _ htext s [] _ (List.forall_mem_nil _) hcomma hflow hkey hs
      obtain ⟨u, hu, hrest, hdepth', hkey'⟩ := comma_step hend
      have hinFlow : u.inFlow = true := (inFlow_eq_of_length (hdepth'.trans hdepth)).trans hflow
      obtain ⟨v, hv, hlast, hdepth''⟩ := ih (List.cons_ne_nil _ _) hinFlow hkey'
        ⟨hu.calm, blanks, hblanks, hrest, .inl hinFlow⟩
      rw [joined_cons_cons]
      exact ⟨v, ht.trans (hu.trans hv), hlast, hdepth''.trans (hdepth'.trans hdepth)⟩

theorem written_intercalate (h : ∀ text ∈ texts, Written text.toList) :
    Written ((mark indent level).intercalate texts).toList := by
  obtain ⟨blanks, hmark, hblanks⟩ := mark_eq_comma indent level
  have hwritten : Written (mark indent level).toList := by
    rw [hmark]
    exact List.forall_mem_cons.mpr ⟨.inl (by decide), written_of_areBlanks hblanks⟩
  induction texts with
  | nil => exact List.forall_mem_nil _
  | cons text texts ih =>
    obtain ⟨htext, htexts⟩ := List.forall_mem_cons.mp h
    cases texts with
    | nil =>
      rw [String.intercalate_singleton]
      exact htext
    | cons other others =>
      rw [String.intercalate_cons_cons, String.toList_append, String.toList_append]
      exact written_append (written_append htext hwritten) (ih htexts)

theorem Brackets.written (h : Brackets opening close first last) :
    Text.IsPrintable opening ∧ Text.IsPrintable close := by
  cases h <;> decide

/-- Elements between brackets. -/
theorem cuts_bracket (hb : Brackets opening close first last) {before behind : String} (hbefore : before.toList = [opening])
    (hbehind : behind.toList = [close]) (h : List.Forall₂ (fun text ts => CutsPart text.toList ts) texts tss) :
    Cuts (bracket indent level before behind texts).toList (first :: (joined tss ++ [last])) := by
  have hopening : Text.IsPrintable opening ∨ opening = '\n' := .inl hb.written.1
  have hclose : Text.IsPrintable close ∨ close = '\n' := .inl hb.written.2
  by_cases hne : texts = []
  · subst hne
    cases h
    rw [Json.bracket_nil hbefore hbehind]
    refine ⟨List.forall_mem_cons.mpr ⟨hopening, List.forall_mem_singleton.mpr hclose⟩, ?_⟩
    intro s ws r hws _ hflow hs
    obtain ⟨t, ht, hrest, hdepth, -⟩ := open_step hb hs
    have hend : t.Stands (close :: (ws ++ r)) := ⟨ht.calm, [], List.forall_mem_nil _, hrest, .inr rfl⟩
    obtain ⟨u, hu, hrest', hdepth'⟩ := close_step hb hend (List.ne_nil_of_length_eq_add_one hdepth)
    have houter : u.outer.length = s.outer.length := Nat.add_right_cancel (hdepth'.trans hdepth)
    exact ⟨u, ht.trans hu, stands_of_rest hu.calm hws hrest' hflow houter, houter⟩
  · rw [Json.bracket_toList hbefore hbehind hne]
    have hparts : Written ((mark indent level).intercalate texts).toList := by
      refine written_intercalate fun text htext => ?_
      obtain ⟨_, -, hpart⟩ := exists_right_of_forall₂ h htext
      exact hpart.written
    refine ⟨List.forall_mem_cons.mpr ⟨hopening, ?_⟩, ?_⟩
    · exact written_append (written_of_areBlanks (lineBreak_areBlanks _ _))
        (written_append hparts (written_append (written_of_areBlanks (lineBreak_areBlanks _ _))
          (List.forall_mem_singleton.mpr hclose)))
    · intro s ws r hws _ hflow hs
      rw [List.cons_append, List.append_assoc, List.append_assoc, List.append_assoc, List.singleton_append] at hs
      obtain ⟨t, ht, hrest, hdepth, hkey⟩ := open_step hb hs
      have hinFlow : t.inFlow = true := inFlow_iff.mpr (hdepth ▸ Nat.succ_pos _)
      obtain ⟨u, hu, hend, hdepth'⟩ := joined_leads hb h hne (lineBreak_areBlanks indent level) hinFlow hkey
        ⟨ht.calm, _, lineBreak_areBlanks indent (level + 1), hrest, .inl hinFlow⟩
      obtain ⟨v, hv, hrest', hdepth''⟩ := close_step hb hend (List.ne_nil_of_length_eq_add_one (hdepth'.trans hdepth))
      have houter : v.outer.length = s.outer.length := Nat.add_right_cancel (hdepth''.trans (hdepth'.trans hdepth))
      exact ⟨v, ht.trans (hu.trans hv), stands_of_rest hv.calm hws hrest' hflow houter, houter⟩

end Rows

/-! ### Whole texts -/

theorem tokensFrom_end (ht : t.Calm) (hrest : t.place.rest = []) (n : Nat) :
    tokensFrom (n + 1) t = .ok (t.tokens.toList ++ [.streamEnd]) := by
  have hopens : Scan.Opens [] := fun c hc => absurd hc (Option.not_mem_none _)
  obtain ⟨q, hq, -, hnext⟩ := ht.toNext (List.forall_mem_nil _) hopens hrest (.inr rfl)
  have hsettled : (t.settle q).Calm := ht.settle q
  have hpeek : (t.settle q).place.peek = none := by rw [Place.peek, Layout.settle, hq, List.head?_nil]
  rw [tokensFrom, hnext]
  simp only [bind, Except.bind, Except.mapError, hpeek, finish, hsettled.closeBlocks, hsettled.dropCandidate]
  simp [Except.map, Layout.add, Layout.settle, pure, Except.pure]

/-- A whole text is cut into its tokens and the token of the end. -/
theorem Cuts.ofText (h : Cuts cs ts) : Token.ofText cs = .ok (ts ++ [.streamEnd]) := by
  have hallowed : cs.all isAllowed = true := by
    rw [List.all_eq_true]
    intro c hc
    rcases h.written c hc with hc | rfl
    · exact isAllowed_of_isPrintable hc
    · rfl
  have hmark : cs.head? ≠ some '\ufeff' := by
    intro hhead
    rcases h.written _ (List.mem_of_mem_head? hhead) with hc | hc
    · exact absurd hc (by decide)
    · cases hc
  rw [Token.ofText, if_pos hallowed]
  simp only [hmark, if_false]
  generalize hs : ({ place := { rest := cs } } : Layout) = s
  have hcalm : s.Calm := by
    subst hs
    exact ⟨rfl, fun _ hc => absurd hc (Option.not_mem_none _), List.forall_mem_nil _⟩
  have hrest : s.place.rest = cs := by rw [← hs]
  have houter : s.outer.length = 0 := by rw [← hs, List.length_nil]
  have hstands : s.Stands (cs ++ ([] ++ [])) := ⟨hcalm, [], List.forall_mem_nil _, by simp [hrest], .inr rfl⟩
  have hnil : Closes [] := fun c hc => absurd hc (Option.not_mem_none _)
  obtain ⟨t, ht, ⟨-, ws, -, hend, hblank⟩, hdepth⟩ := h.leads (List.forall_mem_nil _) hnil (.inr ⟨rfl, rfl⟩) hstands
  have hnoflow : ¬t.inFlow = true := by
    rw [inFlow_iff, hdepth, houter]
    exact Nat.lt_irrefl 0
  rw [hblank.resolve_left hnoflow] at hend
  obtain ⟨m, hm, htokens⟩ := ht.reaches (cs.length + 1) (by rw [hrest]; exact Nat.lt_succ_self _)
  obtain ⟨m, rfl⟩ := Nat.exists_eq_add_of_lt (Nat.zero_lt_of_lt hm)
  rw [htokens, tokensFrom_end ht.calm hend, ht.tokens, ← hs]
  rfl

end RuleTree.Yaml.Layout
