import RuleTree.Proofs.Yaml.Tokens
import RuleTree.Yaml.Node

/-!
# Putting flows together

The tokens of a text in JSON are put together to a tree. If one of its names is no key, there is none: behind such a name a
comma is missed.
-/

namespace RuleTree.Yaml

open Assemble
open Layout (joined nameTokens halved maxKey Brackets)

variable {α : Type} {ts more : List Token} {o : Option α} {a : Assembly}

/-! ### Outcomes -/

/-- What putting tokens together gives, and what is left: a result, or nothing as they are malformed. -/
def outcome (o : Option α) (a : Assembly) : Except Fault (α × Assembly) :=
  match o with
  | some x => .ok (x, a)
  | none => .error .malformed

/-- The tokens that a node of a flow begins with. -/
inductive OpensNode : Token → Prop
  | scalar (text : String) (plain : Bool) : OpensNode (.scalar text plain)
  | row : OpensNode .flowSequenceStart
  | mapping : OpensNode .flowMappingStart

/-- Tokens that are put together to a node, or prove to be malformed, whatever follows. -/
structure Assembles (ts : List Token) (o : Option Node) : Prop where
  opens : ∃ t us, ts = t :: us ∧ OpensNode t
  node : ∀ {fuel : Nat} {inBlock behindKey : Bool} {a : Assembly} {rest : List Token}, 2 * ts.length ≤ fuel →
    a.tokens = ts ++ rest → (node fuel inBlock behindKey).run a = outcome o { a with tokens := rest }

theorem peek_run {t : Token} (h : a.tokens = t :: more) : Assemble.peek.run a = .ok (t, a) := by
  obtain ⟨tokens, fault, handles, anchors⟩ := a
  cases h
  rfl

theorem skips_run_self {t : Token} (h : a.tokens = t :: more) :
    (skips t).run a = .ok (true, { a with tokens := more }) := by
  rw [skips, run_bind_of_ok (peek_run h), if_pos rfl]
  obtain ⟨tokens, fault, handles, anchors⟩ := a
  cases h
  rfl

theorem skips_run_ne {t d : Token} (h : a.tokens = d :: more) (hne : d ≠ t) : (skips t).run a = .ok (false, a) := by
  rw [skips, run_bind_of_ok (peek_run h), if_neg hne]
  rfl

/-! ### Nodes -/

theorem node_scalar {fuel : Nat} {inBlock behindKey : Bool} {text : String} {plain : Bool}
    (h : a.tokens = .scalar text plain :: more) : (node (fuel + 1) inBlock behindKey).run a =
      .ok (.scalar (if plain then Tag.ofPlain text else .str) text, { a with tokens := more }) := by
  obtain ⟨tokens, fault, handles, anchors⟩ := a
  cases h
  rw [Assemble.node]
  cases plain <;> rfl

theorem node_row {fuel : Nat} {inBlock behindKey : Bool} (h : a.tokens = .flowSequenceStart :: more) :
    (node (fuel + 1) inBlock behindKey).run a =
      ((flowItems fuel true).run { a with tokens := more }).map fun r => (.sequence .seq r.1, r.2) := by
  obtain ⟨tokens, fault, handles, anchors⟩ := a
  cases h
  have hrun : (node (fuel + 1) inBlock behindKey).run ⟨.flowSequenceStart :: more, fault, handles, anchors⟩ =
      (flowItems fuel true).run ⟨more, fault, handles, anchors⟩ >>= fun r => .ok (.sequence .seq r.1, r.2) := by
    rw [Assemble.node]
    rfl
  rw [hrun]
  cases (flowItems fuel true).run ⟨more, fault, handles, anchors⟩ <;> rfl

theorem node_mapping {fuel : Nat} {inBlock behindKey : Bool} (h : a.tokens = .flowMappingStart :: more) :
    (node (fuel + 1) inBlock behindKey).run a =
      ((flowEntries fuel true).run { a with tokens := more }).map fun r => (.mapping .map r.1, r.2) := by
  obtain ⟨tokens, fault, handles, anchors⟩ := a
  cases h
  have hrun : (node (fuel + 1) inBlock behindKey).run ⟨.flowMappingStart :: more, fault, handles, anchors⟩ =
      (flowEntries fuel true).run ⟨more, fault, handles, anchors⟩ >>= fun r => .ok (.mapping .map r.1, r.2) := by
    rw [Assemble.node]
    rfl
  rw [hrun]
  cases (flowEntries fuel true).run ⟨more, fault, handles, anchors⟩ <;> rfl

theorem assembles_scalar (text : String) (plain : Bool) :
    Assembles [.scalar text plain] (some (.scalar (if plain then Tag.ofPlain text else .str) text)) where
  opens := ⟨_, _, rfl, .scalar text plain⟩
  node := by
    intro fuel inBlock behindKey a rest hfuel ha
    obtain ⟨fuel, rfl⟩ := Nat.exists_eq_add_of_lt (Nat.lt_of_lt_of_le (Nat.succ_pos _) hfuel)
    rw [Nat.zero_add]
    exact node_scalar ha

/-! ### Rows -/

/-- The comma in front of an element that is not the first one. -/
def comma (first : Bool) : List Token := if first then [] else [.flowEntry]

/-- The tokens of elements, each with the comma in front of it. -/
def spread : Bool → List (List Token) → List Token
  | _, [] => []
  | first, ts :: tss => comma first ++ (ts ++ spread false tss)

theorem joined_eq_spread (tss : List (List Token)) : joined tss = spread true tss := by
  induction tss with
  | nil => rfl
  | cons ts tss ih =>
    cases tss with
    | nil =>
      rw [joined, List.intercalate_singleton]
      simp [spread, comma]
    | cons us tss =>
      rw [Layout.joined_cons_cons, ih]
      rfl

/-- How elements are put together up to a last token: a step takes the tokens of one element. -/
structure Gathers (Part : List Token → Option α → Prop) (last : Token) (gather : Nat → Bool → Assemble (List α)) : Prop where
  nonempty : ∀ {ts : List Token} {o : Option α}, Part ts o → ts ≠ []
  step : ∀ {ts : List Token} {o : Option α} {fuel : Nat} {first : Bool} {a : Assembly} {more : List Token}, Part ts o →
    2 * ts.length ≤ fuel → a.tokens = comma first ++ (ts ++ more) → (gather (fuel + 1) first).run a =
      (outcome o { a with tokens := more }).bind fun r => ((gather fuel false).run r.2).map fun rs => (r.1 :: rs.1, rs.2)
  last : ∀ {fuel : Nat} {first : Bool} {a : Assembly} {more : List Token}, a.tokens = last :: more →
    (gather (fuel + 1) first).run a = .ok ([], { a with tokens := more })

/-- Elements are put together if each of them is. -/
theorem Gathers.row {Part : List Token → Option α → Prop} {last : Token} {gather : Nat → Bool → Assemble (List α)}
    (hgather : Gathers Part last gather) {tss : List (List Token)} {os : List (Option α)} (h : List.Forall₂ Part tss os) :
    ∀ {fuel : Nat} {first : Bool} {a : Assembly} {rest : List Token}, 2 * (spread first tss).length + 2 ≤ fuel →
      a.tokens = spread first tss ++ last :: rest →
        (gather fuel first).run a = outcome (os.mapM id) { a with tokens := rest } := by
  induction h with
  | nil =>
    intro fuel first a rest hfuel ha
    obtain ⟨fuel, rfl⟩ := Nat.exists_eq_add_of_lt (Nat.lt_of_lt_of_le (Nat.succ_pos _) hfuel)
    rw [Nat.zero_add]
    exact hgather.last ha
  | @cons ts o tss os hts _ ih =>
    intro fuel first a rest hfuel ha
    obtain ⟨fuel, rfl⟩ := Nat.exists_eq_add_of_lt (Nat.lt_of_lt_of_le (Nat.succ_pos _) hfuel)
    have hpos : 0 < ts.length := List.length_pos_iff.mpr (hgather.nonempty hts)
    simp only [spread, List.length_append] at hfuel
    rw [spread, List.append_assoc, List.append_assoc] at ha
    rw [Nat.zero_add, hgather.step hts (by omega) ha]
    cases o with
    | none => rfl
    | some x =>
      have hrest := @ih fuel false { a with tokens := spread false tss ++ last :: rest } rest (by omega) rfl
      simp only [outcome, Except.bind, hrest]
      rw [List.mapM_cons]
      cases os.mapM id <;> rfl

/-- An element first, then the others. -/
theorem run_bind_cons {x : Assemble α} {xs : Assemble (List α)} {b : Assembly} (h : x.run a = outcome o b) :
    (do let head ← x; return head :: (← xs)).run a =
      (outcome o b).bind fun r => (xs.run r.2).map fun rs => (r.1 :: rs.1, rs.2) := by
  rw [StateT.run_bind, h]
  cases o with
  | none => rfl
  | some head =>
    change ((do return head :: (← xs)) : Assemble (List α)).run b = (xs.run b).map fun rs => (head :: rs.1, rs.2)
    rw [StateT.run_bind]
    cases xs.run b <;> rfl

theorem OpensNode.ne {t : Token} (h : OpensNode t) : t ∉ [.flowSequenceEnd, .flowMappingEnd, .flowEntry, .key, .value] := by
  cases h <;> simp

theorem separated_run (first : Bool) (h : a.tokens = comma first ++ more) :
    (separated first).run a = .ok (true, { a with tokens := more }) := by
  cases first with
  | true =>
    obtain ⟨tokens, fault, handles, anchors⟩ := a
    cases h
    rfl
  | false => exact skips_run_self h

/-- In front of an element there is no end. -/
theorem skips_end_run {last : Token} {first : Bool} {t : Token} {us : List Token} (hlast : last ≠ .flowEntry) (ht : t ≠ last)
    (h : a.tokens = comma first ++ t :: us) : (skips last).run a = .ok (false, a) := by
  cases first with
  | true => exact skips_run_ne h ht
  | false => exact skips_run_ne h hlast.symm

theorem gathers_items : Gathers Assembles .flowSequenceEnd flowItems where
  nonempty h := by
    obtain ⟨t, us, rfl, -⟩ := h.opens
    exact List.cons_ne_nil _ _
  step := by
    intro ts o fuel first a more h hfuel ha
    obtain ⟨t, us, rfl, ht⟩ := h.opens
    have hne := ht.ne
    simp only [List.mem_cons, List.not_mem_nil, or_false, not_or] at hne
    rw [flowItems, run_bind_of_ok (skips_end_run (by simp) hne.1 ha), if_neg Bool.false_ne_true,
      run_bind_of_ok (separated_run first ha)]
    simp only [Bool.not_true, Bool.false_eq_true, if_false]
    rw [run_bind_of_ok (skips_run_ne rfl hne.2.2.2.1)]
    simp only [Bool.false_eq_true, if_false]
    rw [run_bind_of_ok (skips_run_ne rfl hne.1)]
    simp only [Bool.false_eq_true, if_false]
    exact run_bind_cons (h.node hfuel rfl)
  last := by
    intro fuel first a more ha
    rw [flowItems, run_bind_of_ok (skips_run_self ha)]
    rfl

/-- A name and the tokens of its value. A name that is no key cannot be followed by a colon. -/
inductive AssemblesField : List Token → Option (Node × Node) → Prop
  | key (name : String) {us : List Token} {v : Option Node} (h : Assembles us v) :
      AssemblesField (.key :: .scalar name false :: .value :: us) (v.map fun n => (.scalar .str name, n))
  | name (name : String) (us : List Token) : AssemblesField (.scalar name false :: .value :: us) none

theorem orAbsent_run {stops : List Token} {t : Token} {body : Assemble Node} (ha : a.tokens = t :: more) (ht : t ∉ stops) :
    (orAbsent stops body).run a = body.run a := by
  rw [orAbsent, run_bind_of_ok (peek_run ha), if_neg (by simpa using ht)]

theorem flowPair_run {name : String} {us : List Token} {v : Option Node} {fuel : Nat} (h : Assembles us v)
    (hfuel : 2 * us.length ≤ fuel + 1) (ha : a.tokens = .scalar name false :: .value :: (us ++ more)) :
    (flowPair (fuel + 1 + 1) .flowMappingEnd).run a =
      outcome (v.map fun n => (.scalar .str name, n)) { a with tokens := more } := by
  obtain ⟨t, us', hcons, ht⟩ := h.opens
  have hne := ht.ne
  simp only [List.mem_cons, List.not_mem_nil, or_false, not_or] at hne
  have hname : (orAbsent [.value, .flowEntry, .flowMappingEnd] (node (fuel + 1) false false)).run a =
      .ok (.scalar .str name, { a with tokens := .value :: (us ++ more) }) := by
    rw [orAbsent_run ha (by simp)]
    exact node_scalar ha
  have hvalue : (orAbsent [.flowEntry, .flowMappingEnd] (node (fuel + 1) false false)).run { a with tokens := us ++ more } =
      outcome v { a with tokens := more } := by
    have htokens : ({ a with tokens := us ++ more } : Assembly).tokens = t :: (us' ++ more) := by rw [hcons]; rfl
    rw [orAbsent_run htokens (by simp [hne])]
    exact h.node hfuel rfl
  rw [flowPair, run_bind_of_ok hname, run_bind_of_ok (skips_run_self rfl), if_pos rfl, StateT.run_bind, hvalue]
  cases v <;> rfl

section Fields

variable {name : String} {us : List Token} {v : Option Node} {fuel : Nat} {first : Bool}

/-- A name that is a key, and its value. -/
theorem flowEntries_run_key (h : Assembles us v) (hfuel : 2 * us.length ≤ fuel + 1)
    (ha : a.tokens = comma first ++ .key :: .scalar name false :: .value :: (us ++ more)) :
    (flowEntries (fuel + 1 + 1 + 1) first).run a =
      (outcome (v.map fun n => (.scalar .str name, n)) { a with tokens := more }).bind fun r =>
        ((flowEntries (fuel + 1 + 1) false).run r.2).map fun rs => (r.1 :: rs.1, rs.2) := by
  rw [flowEntries, run_bind_of_ok (skips_end_run (by simp) (by simp) ha), if_neg Bool.false_ne_true,
    run_bind_of_ok (separated_run first ha)]
  simp only [Bool.not_true, Bool.false_eq_true, if_false]
  rw [run_bind_of_ok (skips_run_self rfl), if_pos rfl]
  exact run_bind_cons (flowPair_run h hfuel rfl)

/-- A name that is no key would stand alone; the colon behind it does not belong there. -/
theorem flowEntries_run_name (ha : a.tokens = comma first ++ .scalar name false :: .value :: more) :
    (flowEntries (fuel + 1 + 1) first).run a = .error .malformed := by
  have hnode : (node (fuel + 1) false false).run { a with tokens := .scalar name false :: .value :: more } =
      .ok (.scalar .str name, { a with tokens := .value :: more }) := by
    rw [node_scalar rfl]
    rfl
  have hstop : (flowEntries (fuel + 1) false).run { a with tokens := .value :: more } = .error .malformed := by
    have hseparated : (separated false).run { a with tokens := .value :: more } =
        .ok (false, { a with tokens := .value :: more }) := skips_run_ne rfl (by simp)
    rw [flowEntries, run_bind_of_ok (skips_run_ne rfl (by simp)), if_neg Bool.false_ne_true, run_bind_of_ok hseparated]
    rfl
  rw [flowEntries, run_bind_of_ok (skips_end_run (by simp) (by simp) ha), if_neg Bool.false_ne_true,
    run_bind_of_ok (separated_run first ha)]
  simp only [Bool.not_true, Bool.false_eq_true, if_false]
  rw [run_bind_of_ok (skips_run_ne rfl (by simp))]
  simp only [Bool.false_eq_true, if_false]
  rw [run_bind_of_ok (skips_run_ne rfl (by simp))]
  simp only [Bool.false_eq_true, if_false]
  rw [run_bind_of_ok hnode, StateT.run_bind, hstop]
  rfl

theorem gathers_entries : Gathers AssemblesField .flowMappingEnd flowEntries where
  nonempty h := by
    cases h <;> exact List.cons_ne_nil _ _
  step := by
    intro ts o fuel first a more h hfuel ha
    cases h with
    | key name h =>
      rw [List.length_cons, List.length_cons, List.length_cons] at hfuel
      obtain ⟨fuel, rfl⟩ : ∃ n, fuel = n + 1 + 1 := ⟨fuel - 2, by omega⟩
      exact flowEntries_run_key h (by omega) ha
    | name name us =>
      rw [List.length_cons, List.length_cons] at hfuel
      obtain ⟨fuel, rfl⟩ : ∃ n, fuel = n + 1 := ⟨fuel - 1, by omega⟩
      exact flowEntries_run_name ha
  last := by
    intro fuel first a more ha
    rw [flowEntries, run_bind_of_ok (skips_run_self ha)]
    rfl

end Fields

/-! ### Brackets and documents -/

theorem assembles_row {tss : List (List Token)} {os : List (Option Node)} (h : List.Forall₂ Assembles tss os) :
    Assembles (.flowSequenceStart :: (joined tss ++ [.flowSequenceEnd])) ((os.mapM id).map (.sequence .seq)) where
  opens := ⟨_, _, rfl, .row⟩
  node := by
    intro fuel inBlock behindKey a rest hfuel ha
    simp only [joined_eq_spread, List.length_cons, List.length_append, List.length_nil] at hfuel ha
    obtain ⟨fuel, rfl⟩ : ∃ n, fuel = n + 1 := ⟨fuel - 1, by omega⟩
    have hrow := @Gathers.row _ _ _ _ gathers_items _ _ h fuel true
      { a with tokens := spread true tss ++ .flowSequenceEnd :: rest } rest (by omega) rfl
    rw [List.cons_append, List.append_assoc, List.singleton_append] at ha
    rw [node_row ha, hrow]
    cases os.mapM id <;> rfl

theorem assembles_mapping {tss : List (List Token)} {os : List (Option (Node × Node))}
    (h : List.Forall₂ AssemblesField tss os) :
    Assembles (.flowMappingStart :: (joined tss ++ [.flowMappingEnd])) ((os.mapM id).map (.mapping .map)) where
  opens := ⟨_, _, rfl, .mapping⟩
  node := by
    intro fuel inBlock behindKey a rest hfuel ha
    simp only [joined_eq_spread, List.length_cons, List.length_append, List.length_nil] at hfuel ha
    obtain ⟨fuel, rfl⟩ : ∃ n, fuel = n + 1 := ⟨fuel - 1, by omega⟩
    have hrow := @Gathers.row _ _ _ _ gathers_entries _ _ h fuel true
      { a with tokens := spread true tss ++ .flowMappingEnd :: rest } rest (by omega) rfl
    rw [List.cons_append, List.append_assoc, List.singleton_append] at ha
    rw [node_mapping ha, hrow]
    cases os.mapM id <;> rfl

/-- A document without directives: a node, and nothing behind it. -/
theorem document_run {fuel : Nat} {t : Token} {n : Option Node} (ht : OpensNode t) (ha : a.tokens = t :: more)
    (hnode : (node fuel true false).run { a with handles := knownHandles } =
      outcome n { a with handles := knownHandles, tokens := [.streamEnd] }) :
    (document fuel).run a =
      (outcome n { a with handles := knownHandles, tokens := [.streamEnd] }).map fun r => (some r.1, r.2) := by
  have hrun : (document fuel).run a = (node fuel true false).run { a with handles := knownHandles } >>= fun r =>
      (do
        skipEnds
        if (← peek) = .streamEnd then return some r.1
        else
          let _ ← directives fuel false []
          malformed : Assemble (Option Node)).run r.2 := by
    rw [document, run_bind_of_ok (peek_run ha)]
    cases ht <;> rfl
  rw [hrun, hnode]
  cases n <;> rfl

/-- The only document of a text is made of its tokens. -/
theorem Assembles.ofTokens {o : Option Node} (h : Assembles ts o) (fault : Fault) :
    Node.ofTokens (ts ++ [.streamEnd]) fault = (outcome o ⟨[], fault, [], []⟩).map fun r => some r.1 := by
  obtain ⟨t, us, hcons, ht⟩ := h.opens
  have hfuel : 2 * ts.length ≤ 2 * (ts ++ [Token.streamEnd]).length + 2 := by
    rw [List.length_append]
    omega
  have hnode := @Assembles.node _ _ h _ true false ⟨ts ++ [.streamEnd], fault, knownHandles, []⟩ [.streamEnd] hfuel rfl
  have htokens : (⟨ts ++ [.streamEnd], fault, [], []⟩ : Assembly).tokens = t :: (us ++ [.streamEnd]) := by
    rw [hcons, List.cons_append]
  rw [Node.ofTokens, document_run ht htokens hnode]
  cases o <;> rfl

end RuleTree.Yaml
