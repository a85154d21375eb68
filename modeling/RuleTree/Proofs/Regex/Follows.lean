import RuleTree.Proofs.Regex.Neutral

/-!
# Readings that follow each other

Two readings are compared by what holds of the places where they stand before and after: whenever the first gives a result,
so does the second, and what they give and leave is related. The rules follow the way readings are put together. Then the
relation between a reading of an expression and one of the expression with exchanged signs, and what it says of the single
moves over the text.
-/

namespace RuleTree.Regex

open Reading

/-! ### Single readings -/

section Runs

variable {α β : Type} {p q : Progress}

theorem run_bind_eq_ok_iff {f : Reading α} {F : α → Reading β} {b : β} :
    (f >>= F).run p = .ok (b, q) ↔ ∃ a r, f.run p = .ok (a, r) ∧ (F a).run r = .ok (b, q) := by
  rw [StateT.run_bind]
  cases f.run p with
  | error e => simp [bind, Except.bind]
  | ok ar =>
    obtain ⟨a, r⟩ := ar
    constructor
    · exact fun h => ⟨a, r, rfl, h⟩
    · rintro ⟨_, _, ⟨⟩, h⟩
      exact h

theorem run_pure_eq_ok_iff {a b : α} : (pure a : Reading α).run p = .ok (b, q) ↔ a = b ∧ p = q := by
  rw [StateT.run_pure]
  simp [pure, Except.pure]

theorem run_get_eq_ok_iff {r : Progress} : (get : Reading Progress).run p = .ok (r, q) ↔ p = r ∧ p = q := by
  rw [StateT.run_get]
  simp [pure, Except.pure]

theorem run_set_eq_ok_iff {r : Progress} {u : PUnit} : (set r : Reading PUnit).run p = .ok (u, q) ↔ r = q := by
  rw [StateT.run_set]
  simp [pure, Except.pure]

theorem run_modify_eq_ok_iff {t : Progress → Progress} {u : PUnit} :
    (modify t : Reading PUnit).run p = .ok (u, q) ↔ t p = q := by
  rw [StateT.run_modify]
  simp [pure, Except.pure]

theorem run_throw_ne_ok {e : Fault} {a : α} : (throw e : Reading α).run p ≠ .ok (a, q) :=
  nofun

theorem run_failAt_ne_ok {reason : Reason} {n : Nat} {a : α} : (failAt reason n : Reading α).run p ≠ .ok (a, q) :=
  run_throw_ne_ok

theorem run_fail_ne_ok {reason : Reason} {n : Nat} {a : α} : (fail reason n : Reading α).run p ≠ .ok (a, q) := by
  intro h
  obtain ⟨r, s, -, h⟩ := run_bind_eq_ok_iff.mp h
  exact run_failAt_ne_ok h

theorem run_advance_eq_ok_iff {n : Nat} {u : Unit} : (advance n).run p = .ok (u, q) ↔
    p.rest.drop n ≠ ['\\'] ∧ q = { p with rest := p.rest.drop n, position := p.position + n } := by
  rw [advance]
  simp only [run_bind_eq_ok_iff, run_get_eq_ok_iff]
  constructor
  · rintro ⟨_, _, ⟨rfl, rfl⟩, h⟩
    split at h
    · exact absurd h run_failAt_ne_ok
    · next hlone => exact ⟨by simpa using hlone, (run_set_eq_ok_iff.mp h).symm⟩
  · rintro ⟨hlone, rfl⟩
    refine ⟨p, p, ⟨rfl, rfl⟩, ?_⟩
    rw [if_neg (by simpa using hlone)]
    rfl

end Runs

/-! ### Rules -/

/-- Wherever two places are related and the first reading gives a result, the second gives one that is related to it. -/
def Follows {α β : Type} (P : Progress → Progress → Prop) (f : Reading α) (g : Reading β)
    (Q : α → β → Progress → Progress → Prop) : Prop :=
  ∀ p q, P p q → ∀ a p', f.run p = .ok (a, p') → ∃ b q', g.run q = .ok (b, q') ∧ Q a b p' q'

namespace Follows

variable {α β γ δ : Type} {P P' : Progress → Progress → Prop} {f : Reading α} {g : Reading β}
  {Q Q' : α → β → Progress → Progress → Prop} {F : α → Reading γ} {G : β → Reading δ}
  {R : γ → δ → Progress → Progress → Prop}

/-- What is asked of the places before may be asked more strictly. -/
theorem pre (h : Follows P f g Q) (hP : ∀ p q, P' p q → P p q) : Follows P' f g Q :=
  fun p q hpq => h p q (hP p q hpq)

/-- What is told of the places behind may be told less strictly. -/
theorem post (h : Follows P f g Q) (hQ : ∀ a b p q, Q a b p q → Q' a b p q) : Follows P f g Q' := by
  intro p q hpq a p' hf
  obtain ⟨b, q', hg, hab⟩ := h p q hpq a p' hf
  exact ⟨b, q', hg, hQ a b p' q' hab⟩

theorem bind (h : Follows P f g Q) (hF : ∀ a b, Follows (Q a b) (F a) (G b) R) : Follows P (f >>= F) (g >>= G) R := by
  intro p q hpq c p' hc
  obtain ⟨a, r, hf, hFa⟩ := run_bind_eq_ok_iff.mp hc
  obtain ⟨b, s, hg, hab⟩ := h p q hpq a r hf
  obtain ⟨d, q', hGb, hcd⟩ := hF a b r s hab c p' hFa
  exact ⟨d, q', run_bind_eq_ok_iff.mpr ⟨b, s, hg, hGb⟩, hcd⟩

/-- What comes behind two readings if the first result tells the second. -/
theorem bind_eq {φ : α → β} {S : α → Progress → Progress → Prop} (h : Follows P f g fun a b p q => b = φ a ∧ S a p q)
    (hF : ∀ a, Follows (S a) (F a) (G (φ a)) R) : Follows P (f >>= F) (g >>= G) R := by
  refine h.bind ?_
  rintro a _ p q ⟨rfl, hpq⟩
  exact hF a p q hpq

/-- The same with something known of the first result. -/
theorem bind_eq_of {φ : α → β} {D : α → Prop} {S : α → Progress → Progress → Prop}
    (h : Follows P f g fun a b p q => b = φ a ∧ D a ∧ S a p q) (hF : ∀ a, D a → Follows (S a) (F a) (G (φ a)) R) :
    Follows P (f >>= F) (g >>= G) R :=
  h.bind_eq fun a p q hpq => hF a hpq.1 p q hpq.2

theorem pure {a : α} {b : β} (h : ∀ p q, P p q → Q a b p q) : Follows P (pure a) (pure b) Q := by
  intro p q hpq c p' hc
  obtain ⟨rfl, rfl⟩ := run_pure_eq_ok_iff.mp hc
  exact ⟨b, q, rfl, h p q hpq⟩

theorem failAt {reason : Reason} {n : Nat} : Follows P (failAt reason n) g Q :=
  fun _ _ _ _ _ h => absurd h run_failAt_ne_ok

theorem fail {reason : Reason} {n : Nat} : Follows P (fail reason n) g Q :=
  fun _ _ _ _ _ h => absurd h run_fail_ne_ok

theorem throw {e : Fault} : Follows P (throw e) g Q :=
  fun _ _ _ _ _ h => absurd h run_throw_ne_ok

/-- What two readings do from their places on may use all that is known of them. -/
theorem get_of {F : Progress → Reading γ} {G : Progress → Reading δ} (h : ∀ p q, P p q → Follows P (F p) (G q) R) :
    Follows P (get >>= F) (get >>= G) R :=
  fun p q hpq => h p q hpq p q hpq

theorem get_left {F : Progress → Reading γ} {k : Reading δ} (h : ∀ p q, P p q → Follows P (F p) k R) :
    Follows P (get >>= F) k R :=
  fun p q hpq => h p q hpq p q hpq

/-- Two readings that begin by looking at their places. -/
theorem get {F : Progress → Reading γ} {G : Progress → Reading δ}
    (h : ∀ p q, P p q → Follows (fun p' q' => p' = p ∧ q' = q) (F p) (G q) R) :
    Follows P (get >>= F) (get >>= G) R :=
  fun p q hpq c p' hc => h p q hpq p q ⟨rfl, rfl⟩ c p' hc

theorem modify {t u : Progress → Progress} {S : PUnit → PUnit → Progress → Progress → Prop}
    (h : ∀ p q, P p q → S ⟨⟩ ⟨⟩ (t p) (u q)) : Follows P (modify t) (modify u) S := by
  intro p q hpq c p' hc
  obtain rfl := run_modify_eq_ok_iff.mp hc
  exact ⟨⟨⟩, u q, rfl, h p q hpq⟩

theorem ite {c : Prop} [Decidable c] {f₁ f₂ : Reading α} {g₁ g₂ : Reading β} (h₁ : c → Follows P f₁ g₁ Q)
    (h₂ : ¬c → Follows P f₂ g₂ Q) : Follows P (if c then f₁ else f₂) (if c then g₁ else g₂) Q := by
  split
  · exact h₁ ‹_›
  · exact h₂ ‹_›

/-- A reading whose results matter only if what comes next goes on with them. -/
theorem bind_of {g : Reading α} {G : α → Reading δ} {D : α → Prop} {S : Progress → Progress → Prop}
    (h : ∀ p q, P p q → ∀ a p', f.run p = .ok (a, p') → D a → ∃ b q', g.run q = .ok (b, q') ∧ b = a ∧ S p' q')
    (hD : ∀ a p c p', (F a).run p = .ok (c, p') → D a) (hF : ∀ a, D a → Follows S (F a) (G a) R) :
    Follows P (f >>= F) (g >>= G) R := by
  intro p q hpq c p' hc
  obtain ⟨a, r, hf, hFa⟩ := run_bind_eq_ok_iff.mp hc
  have ha := hD a r c p' hFa
  obtain ⟨_, s, hg, rfl, hrs⟩ := h p q hpq a r hf ha
  obtain ⟨d, q', hGa, hcd⟩ := hF _ ha r s hrs c p' hFa
  exact ⟨d, q', run_bind_eq_ok_iff.mpr ⟨_, s, hg, hGa⟩, hcd⟩

theorem ite_iff {c d : Prop} [Decidable c] [Decidable d] (hcd : c ↔ d) {f₁ f₂ : Reading α} {g₁ g₂ : Reading β}
    (h₁ : c → Follows P f₁ g₁ Q) (h₂ : ¬c → Follows P f₂ g₂ Q) :
    Follows P (if c then f₁ else f₂) (if d then g₁ else g₂) Q := by
  by_cases hc : c
  · rw [if_pos hc, if_pos (hcd.mp hc)]
    exact h₁ hc
  · rw [if_neg hc, if_neg fun hd => hc (hcd.mpr hd)]
    exact h₂ hc

theorem of_pre (h : ∀ p q, P p q → Follows P f g Q) : Follows P f g Q :=
  fun p q hpq => h p q hpq p q hpq

theorem exists_pre {ι : Type} {P : ι → Progress → Progress → Prop} (h : ∀ i, Follows (P i) f g Q) :
    Follows (fun p q => ∃ i, P i p q) f g Q := by
  rintro p q ⟨i, hpq⟩
  exact h i p q hpq

end Follows

/-! ### Places that differ in their signs -/

/-- What differs between two readings: whether all signs in rows are exchanged in the second text, and the switches that each
reading is given. Both are given the same about blanks. -/
structure Change where
  all : Bool
  first : Flags
  second : Flags
  spaced : second.verbose = first.verbose

/-- Two places, in a context and before a text, that differ in the signs ahead, in how much is behind them, and in the
switches they were given, some more having been turned on in both. -/
structure Twin (t : Change) (on : Flags) (x : Context) (cs : List Char) (p q : Progress) : Prop where
  rest : p.rest = cs
  text : Exchange t.all x cs q.rest
  notLone : cs ≠ ['\\']
  firstFlags : p.flags = t.first.union on
  secondFlags : q.flags = t.second.union on
  names : q.names = p.names
  widths : q.widths = p.widths
  beforeLookbehind : q.beforeLookbehind = p.beforeLookbehind
  asked : q.asked.map Prod.fst = p.asked.map Prod.fst

/-- Two such places before any text. -/
def Twins (t : Change) (on : Flags) (x : Context) (p q : Progress) : Prop := ∃ cs, Twin t on x cs p q

namespace Twin

variable {t : Change} {on : Flags} {x y : Context} {cs ds es : List Char} {p q : Progress}

theorem twins (h : Twin t on x cs p q) : Twins t on x p q := ⟨cs, h⟩

theorem nextGroup (h : Twin t on x cs p q) : q.nextGroup = p.nextGroup := by
  rw [Progress.nextGroup, h.widths, Progress.nextGroup]

theorem isClosed (h : Twin t on x cs p q) (group : Nat) : q.isClosed group = p.isClosed group := by
  rw [Progress.isClosed, h.widths, Progress.isClosed]

theorem width (h : Twin t on x cs p q) : q.width = p.width := by
  funext group
  rw [Progress.width, h.widths, Progress.width]

theorem verbose (h : Twin t on x cs p q) : q.flags.verbose = p.flags.verbose := by
  rw [h.firstFlags, h.secondFlags, Flags.union, Flags.union, t.spaced]

/-- Both places go on over the text. -/
theorem moved (h : Twin t on x cs p q) {m n : Nat} (hrest : p.rest.drop m = ds) (hds : Exchange t.all y ds (q.rest.drop n))
    (hlone : ds ≠ ['\\']) :
    Twin t on y ds { p with rest := p.rest.drop m, position := p.position + m }
      { q with rest := q.rest.drop n, position := q.position + n } where
  rest := hrest
  text := hds
  notLone := hlone
  firstFlags := h.firstFlags
  secondFlags := h.secondFlags
  names := h.names
  widths := h.widths
  beforeLookbehind := h.beforeLookbehind
  asked := h.asked

end Twin

/-! ### Moves -/

/-- How the tokens at two places are related, with the context behind them and the text after the first. -/
inductive Move (all : Bool) (x : Context) : List Char → Option Token → Option Token → Context → List Char → Prop
  | none : Move all x [] none none x []
  | plain (c : Char) (cs : List Char) (hc : c ≠ '\\') (hkept : c = '$' → all = true → x.region ≠ .row) :
    Move all x (c :: cs) (some (.plain c)) (some (.plain c)) (x.after c cs) cs
  | escape (c : Char) (cs : List Char) :
    Move all x ('\\' :: c :: cs) (some (.escape c)) (some (.escape c)) x.afterEscape cs
  | exchanged (cs : List Char) (hall : all = true) (hset : x.region.isSet = false) :
    Move all x ('$' :: cs) (some (.plain '$')) (some (.escape 'Z')) (x.after '$' cs) cs

theorem firstToken?_cons {c : Char} {cs : List Char} (h : c ≠ '\\') : firstToken? (c :: cs) = some (.plain c) := by
  simp [firstToken?, h]

section Moves

variable {t : Change} {on : Flags} {x : Context} {cs : List Char}

/-- The tokens at two such places, and what is ahead of them. -/
theorem Twin.tokens {p q : Progress} (h : Twin t on x cs p q) : ∃ a b y ds, firstToken? cs = a ∧ firstToken? q.rest = b ∧
    Move t.all x cs a b y ds ∧ cs.drop ((a.map Token.text).getD []).length = ds ∧
    Exchange t.all y ds (q.rest.drop ((b.map Token.text).getD []).length) := by
  have htext := h.text
  generalize q.rest = es at htext
  cases htext with
  | nil => exact ⟨none, none, x, [], rfl, rfl, .none, rfl, .nil x⟩
  | lone => exact absurd rfl h.notLone
  | escape _ c hds => exact ⟨_, _, _, _, rfl, rfl, .escape c _, rfl, hds⟩
  | plain _ c hc hkept hds => exact ⟨_, _, _, _, firstToken?_cons hc, firstToken?_cons hc, .plain c _ hc hkept, rfl, hds⟩
  | exchanged _ hall hset hds => exact ⟨_, _, _, _, rfl, rfl, .exchanged _ hall hset, rfl, hds⟩

/-- Two places and the tokens at them. -/
def Facing (t : Change) (on : Flags) (x : Context) (cs : List Char) (a b : Option Token) (p q : Progress) : Prop :=
  Twin t on x cs p q ∧ firstToken? cs = a ∧ firstToken? q.rest = b

theorem follows_peek : Follows (Twin t on x cs) peek peek (Facing t on x cs) := by
  intro p q h a p' hp
  obtain ⟨r, _, hr, hp⟩ := run_bind_eq_ok_iff.mp hp
  obtain ⟨rfl, rfl⟩ := run_get_eq_ok_iff.mp hr
  obtain ⟨rfl, rfl⟩ := run_pure_eq_ok_iff.mp hp
  exact ⟨firstToken? q.rest, q, rfl, h, by rw [h.rest], rfl⟩

theorem Facing.move {a b : Option Token} {p q : Progress} (h : Facing t on x cs a b p q) :
    ∃ y ds, Move t.all x cs a b y ds := by
  obtain ⟨htwin, rfl, rfl⟩ := h
  obtain ⟨a, b, y, ds, rfl, rfl, hmove, -⟩ := htwin.tokens
  exact ⟨y, ds, hmove⟩

theorem Move.unique {a b : Option Token} {y z : Context} {ds es : List Char} (h : Move t.all x cs a b y ds)
    (h' : Move t.all x cs a b z es) : z = y ∧ es = ds := by
  cases h <;> cases h' <;> exact ⟨rfl, rfl⟩

/-- Both go past the tokens at their places. -/
theorem follows_advance {a b : Option Token} {y : Context} {ds : List Char} (hmove : Move t.all x cs a b y ds) :
    Follows (Facing t on x cs a b) (advance ((a.map Token.text).getD []).length)
      (advance ((b.map Token.text).getD []).length) fun _ _ => Twin t on y ds := by
  rintro p q ⟨h, rfl, rfl⟩ u p' hp
  obtain ⟨a, b, z, es, ha, hb, hmove', hes, htext⟩ := h.tokens
  rw [ha, hb] at hmove
  obtain ⟨rfl, rfl⟩ := hmove.unique hmove'
  obtain ⟨hlone, rfl⟩ := run_advance_eq_ok_iff.mp hp
  rw [ha, h.rest, hes] at hlone
  rw [ha, hb]
  refine ⟨(), _, run_advance_eq_ok_iff.mpr ⟨fun h => hlone (htext.lone_iff.mp h), rfl⟩, ?_⟩
  exact h.moved (by rw [h.rest, hes]) htext hlone

theorem follows_next : Follows (Twin t on x cs) next next
    (fun a b p q => ∃ y ds, Move t.all x cs a b y ds ∧ Twin t on y ds p q) :=
  follows_peek.bind fun _ _ => .of_pre fun _ _ h =>
    let ⟨y, ds, hmove⟩ := h.move
    (follows_advance hmove).bind fun _ _ => .pure fun _ _ h => ⟨y, ds, hmove, h⟩

/-- What follows a token, for each way in which the tokens at both places may be related. -/
theorem follows_next_bind {γ δ : Type} {F : Option Token → Reading γ} {G : Option Token → Reading δ}
    {R : γ → δ → Progress → Progress → Prop}
    (h : ∀ a b y ds, Move t.all x cs a b y ds → Follows (Twin t on y ds) (F a) (G b) R) :
    Follows (Twin t on x cs) (next >>= F) (next >>= G) R :=
  follows_next.bind fun a b p q hpq =>
    let ⟨y, ds, hmove, htwin⟩ := hpq
    h a b y ds hmove p q htwin

/-- Both go past a character, or neither does. -/
def Accepted (t : Change) (on : Flags) (x : Context) (c : Char) (cs : List Char) (a b : Bool) (p q : Progress) : Prop :=
  b = a ∧ if a then ∃ ds, cs = c :: ds ∧ Twin t on (x.after c ds) ds p q
    else cs.head? ≠ some c ∧ Twin t on x cs p q

theorem follows_accept {c : Char} (hslash : c ≠ '\\') (hsign : c ≠ '$') :
    Follows (Twin t on x cs) (accept c) (accept c) (Accepted t on x c cs) := by
  refine follows_peek.bind fun a b => .of_pre fun p q h => ?_
  obtain ⟨y, ds, hmove⟩ := h.move
  have hboth : a = some (.plain c) ↔ b = some (.plain c) := by
    cases hmove with
    | exchanged => simpa using Ne.symm hsign
    | _ => simp
  refine .ite_iff hboth (fun ha => ?_) (fun ha => ?_)
  · have hb := hboth.mp ha
    subst ha hb
    refine (follows_advance hmove).bind fun _ _ => .pure fun p q h => ⟨rfl, ?_⟩
    cases hmove
    exact ⟨ds, rfl, h⟩
  · refine .pure fun p q h => ⟨rfl, fun hhead => ?_, h.1⟩
    obtain ⟨es, rfl⟩ := List.head?_eq_some_iff.mp hhead
    exact ha (h.2.1.symm.trans (firstToken?_cons hslash))

theorem follows_accept_bind {γ δ : Type} {c : Char} (hslash : c ≠ '\\') (hsign : c ≠ '$') {F : Bool → Reading γ}
    {G : Bool → Reading δ} {R : γ → δ → Progress → Progress → Prop}
    (htrue : ∀ ds, cs = c :: ds → Follows (Twin t on (x.after c ds) ds) (F true) (G true) R)
    (hfalse : cs.head? ≠ some c → Follows (Twin t on x cs) (F false) (G false) R) :
    Follows (Twin t on x cs) (accept c >>= F) (accept c >>= G) R := by
  refine (follows_accept hslash hsign).bind ?_
  rintro a b p q ⟨rfl, h⟩
  cases b with
  | true =>
    obtain ⟨ds, hcs, htwin⟩ := h
    exact htrue ds hcs p q htwin
  | false => exact hfalse h.1 p q h.2

end Moves

/-! ### Neutral characters -/

section Neutral

variable {t : Change} {on : Flags} {x : Context} {cs ds : List Char}

/-- Both go past a character that changes nothing, or neither does. -/
theorem follows_accept_calm {c : Char} (hslash : c ≠ '\\') (hsign : c ≠ '$') (hafter : ∀ cs, x.after c cs = x) :
    Follows (Twins t on x) (accept c) (accept c) fun a b p q => b = a ∧ Twins t on x p q := by
  refine .exists_pre fun cs => (follows_accept hslash hsign).post ?_
  rintro a b p q ⟨rfl, h⟩
  cases b with
  | false => exact ⟨rfl, h.2.twins⟩
  | true =>
    obtain ⟨ds, rfl, htwin⟩ := h
    rw [hafter] at htwin
    exact ⟨rfl, htwin.twins⟩

theorem takeWhile_take_cons {ok : Char → Bool} {c : Char} (h : ok c = false) (cs : List Char) (m : Nat) :
    ((c :: cs).take m).takeWhile ok = [] := by
  cases m <;> simp [h]

/-- Neutral characters of a kind stand at both places alike. -/
theorem Exchange.takeWhile {all : Bool} (h : Exchange all x cs ds) (hx : x.IsCalm) {ok : Char → Bool}
    (hok : ∀ c, ok c = true → isNeutral c = true) (m n : Nat) (hmn : m = n ∨ cs.length ≤ m ∧ ds.length ≤ n) :
    (ds.take n).takeWhile ok = (cs.take m).takeWhile ok ∧
      Exchange all x (cs.drop ((cs.take m).takeWhile ok).length) (ds.drop ((cs.take m).takeWhile ok).length) := by
  have hsign : ok '$' = false := Bool.eq_false_iff.mpr fun h => absurd (hok _ h) (by decide)
  have hslash : ok '\\' = false := Bool.eq_false_iff.mpr fun h => absurd (hok _ h) (by decide)
  induction h generalizing m n with
  | nil x => simpa using .nil x
  | lone x =>
    rw [takeWhile_take_cons hslash, takeWhile_take_cons hslash]
    exact ⟨rfl, .lone x⟩
  | escape x c h _ =>
    rw [takeWhile_take_cons hslash, takeWhile_take_cons hslash]
    exact ⟨rfl, .escape x c h⟩
  | exchanged x hall hset h _ =>
    rw [takeWhile_take_cons hsign, takeWhile_take_cons hslash]
    exact ⟨rfl, .exchanged x hall hset h⟩
  | plain x c hc hkept h ih =>
    cases hcok : ok c with
    | false =>
      rw [takeWhile_take_cons hcok, takeWhile_take_cons hcok]
      exact ⟨rfl, .plain x c hc hkept h⟩
    | true =>
      rw [hx.after (hok c hcok)] at h ih
      cases m with
      | zero =>
        obtain rfl : 0 = n := by simpa using hmn
        exact ⟨rfl, .plain x c hc hkept (by rwa [hx.after (hok c hcok)])⟩
      | succ m =>
        cases n with
        | zero => simp at hmn
        | succ n =>
          obtain ⟨heq, hrest⟩ := ih hx m n (by simpa using hmn)
          simp only [List.take_succ_cons, List.takeWhile_cons, hcok, if_true, List.length_cons, List.drop_succ_cons, heq,
            true_and]
          exact hrest

theorem follows_acceptWhile_of {ok : Char → Bool} (hx : x.IsCalm) (hok : ∀ c, ok c = true → isNeutral c = true)
    {P : Progress → Progress → Prop} (m n : Nat)
    (hP : ∀ p q, P p q → Twins t on x p q ∧ (m = n ∨ p.rest.length ≤ m ∧ q.rest.length ≤ n)) :
    Follows P (acceptWhile m ok) (acceptWhile n ok) fun a b p q => b = a ∧ a.all ok = true ∧ Twins t on x p q := by
  refine .get fun p q h => ?_
  obtain ⟨⟨cs, htwin⟩, hmn⟩ := hP p q h
  obtain ⟨heq, htext⟩ := (htwin.rest ▸ htwin.text).takeWhile hx hok m n hmn
  rw [heq]
  rintro _ _ ⟨rfl, rfl⟩ a p' hp
  obtain ⟨_, r, hr, hp⟩ := run_bind_eq_ok_iff.mp hp
  obtain ⟨rfl, rfl⟩ := run_pure_eq_ok_iff.mp hp
  obtain ⟨hlone, rfl⟩ := run_advance_eq_ok_iff.mp hr
  refine ⟨_, _, run_bind_eq_ok_iff.mpr ⟨(), _, run_advance_eq_ok_iff.mpr ⟨?_, rfl⟩, rfl⟩, rfl, List.all_takeWhile, ?_⟩
  · exact fun h => hlone (htext.lone_iff.mp h)
  · exact (htwin.moved rfl htext hlone).twins

/-- Both take the same neutral characters of a kind. -/
theorem follows_acceptWhile {ok : Char → Bool} (hx : x.IsCalm) (hok : ∀ c, ok c = true → isNeutral c = true) (limit : Nat) :
    Follows (Twins t on x) (acceptWhile limit ok) (acceptWhile limit ok)
      fun a b p q => b = a ∧ a.all ok = true ∧ Twins t on x p q :=
  follows_acceptWhile_of hx hok limit limit fun _ _ h => ⟨h, .inl rfl⟩

end Neutral

/-! ### Texts up to a sign -/

section Until

variable {t : Change} {on : Flags} {x : Context} {cs ds : List Char} {stop : Char}

theorem splitBefore_cons {c : Char} (hc : c ≠ '\\') (cs : List Char) : splitBefore stop (c :: cs) =
    if c = stop then ([], c :: cs) else (c :: (splitBefore stop cs).1, (splitBefore stop cs).2) := by
  rw [splitBefore]
  · simp [hc]
  · simp [hc]

/-- A text is split before the sign, or it is not met. -/
theorem splitBefore_spec (stop : Char) (cs : List Char) : (splitBefore stop cs).1 ++ (splitBefore stop cs).2 = cs ∧
    ((splitBefore stop cs).2 = [] ∨ (splitBefore stop cs).2 = ['\\'] ∨ ∃ ds, (splitBefore stop cs).2 = stop :: ds) := by
  induction cs using splitBefore.induct stop with
  | case1 => simp [splitBefore]
  | case2 => simp [splitBefore]
  | case3 c cs _ _ _ ih => simpa [splitBefore] using ih
  | case4 cs hlone hescape =>
    rw [splitBefore_cons (ne_backslash hlone hescape), if_pos rfl]
    simp
  | case5 c cs hlone hescape hc _ _ _ ih =>
    rw [splitBefore_cons (ne_backslash hlone hescape), if_neg hc]
    simpa using ih

theorem run_skipPast_eq_ok_iff (hstop : stop ≠ '\\') {p q : Progress} {b : Bool} :
    (skipPast stop).run p = .ok (b, q) ↔
      b = false ∧ (splitBefore stop p.rest).2 = [] ∧
        q = { p with rest := [], position := p.position + (splitBefore stop p.rest).1.length } ∨
      ∃ more, b = true ∧ (splitBefore stop p.rest).2 = stop :: more ∧ more ≠ ['\\'] ∧
        q = { p with rest := more, position := p.position + (splitBefore stop p.rest).1.length + 1 } := by
  obtain ⟨happend, hcases⟩ := splitBefore_spec stop p.rest
  have hdrop : p.rest.drop (splitBefore stop p.rest).1.length = (splitBefore stop p.rest).2 :=
    (congrArg (List.drop (splitBefore stop p.rest).1.length) happend.symm).trans List.drop_left
  rw [skipPast]
  simp only [run_bind_eq_ok_iff, run_get_eq_ok_iff]
  constructor
  · rintro ⟨_, _, ⟨rfl, rfl⟩, _, r, hr, h⟩
    obtain ⟨hlone, rfl⟩ := run_advance_eq_ok_iff.mp hr
    rw [hdrop] at hlone h
    rcases hcases with hnil | hslash | ⟨more, hmore⟩
    · rw [hnil] at h
      obtain ⟨rfl, rfl⟩ := run_pure_eq_ok_iff.mp h
      exact .inl ⟨rfl, hnil, rfl⟩
    · exact absurd hslash hlone
    · rw [hmore] at h
      obtain ⟨_, s, hs, h⟩ := run_bind_eq_ok_iff.mp h
      obtain ⟨hlone, rfl⟩ := run_advance_eq_ok_iff.mp hs
      obtain ⟨rfl, rfl⟩ := run_pure_eq_ok_iff.mp h
      exact .inr ⟨more, rfl, hmore, hlone, rfl⟩
  · rintro (⟨rfl, hnil, rfl⟩ | ⟨more, rfl, hmore, hlone, rfl⟩)
    · refine ⟨p, p, ⟨rfl, rfl⟩, (), _, run_advance_eq_ok_iff.mpr ⟨?_, rfl⟩, ?_⟩
      · rw [hdrop, hnil]
        simp
      · rw [hnil, hdrop, hnil]
        rfl
    · refine ⟨p, p, ⟨rfl, rfl⟩, (), _, run_advance_eq_ok_iff.mpr ⟨?_, rfl⟩, ?_⟩
      · rw [hdrop, hmore]
        simpa using fun h => absurd h hstop
      · rw [hmore, hdrop, hmore]
        exact run_bind_eq_ok_iff.mpr ⟨(), _, run_advance_eq_ok_iff.mpr ⟨hlone, rfl⟩, rfl⟩

/-- A comment ends at both places, or at neither. -/
theorem Exchange.skip {all : Bool} (h : Exchange all x cs ds) (hstop : stop ≠ '\\') (hsign : stop ≠ '$')
    (hin : ∀ c cs, c ≠ stop → x.after c cs = x) (hescape : x.afterEscape = x) :
    (splitBefore stop cs).2 = [] ∧ (splitBefore stop ds).2 = [] ∨
      (splitBefore stop cs).2 = ['\\'] ∨
      ∃ more more', (splitBefore stop cs).2 = stop :: more ∧ (splitBefore stop ds).2 = stop :: more' ∧
        Exchange all (x.after stop more) more more' := by
  induction h with
  | nil => exact .inl ⟨rfl, rfl⟩
  | lone => exact .inr (.inl rfl)
  | escape x c h ih =>
    rw [hescape] at ih
    simpa [splitBefore] using ih hin hescape
  | exchanged x hall hset h ih =>
    rw [hin '$' _ (Ne.symm hsign)] at ih
    rw [splitBefore_cons (by decide), if_neg (Ne.symm hsign)]
    simpa [splitBefore] using ih hin hescape
  | plain x c hc hkept h ih =>
    rw [splitBefore_cons hc, splitBefore_cons hc]
    by_cases hcs : c = stop
    · subst hcs
      rw [if_pos rfl, if_pos rfl]
      exact .inr (.inr ⟨_, _, rfl, rfl, h⟩)
    · rw [hin c _ hcs] at ih
      rw [if_neg hcs, if_neg hcs]
      exact ih hin hescape

/-- Both go past a comment; if it does not end, to the end of the text. -/
theorem follows_skipPast (hstop : stop ≠ '\\') (hsign : stop ≠ '$') (hin : ∀ c cs, c ≠ stop → x.after c cs = x)
    (hescape : x.afterEscape = x) (hrow : ∀ cs, x.after stop cs = { x with region := .row }) :
    Follows (Twins t on x) (skipPast stop) (skipPast stop) fun a b p q => b = a ∧ Twins t on { x with region := .row } p q := by
  rintro p q ⟨cs, h⟩ a p' hp
  have htext := h.rest ▸ h.text
  rcases (run_skipPast_eq_ok_iff hstop).mp hp with ⟨rfl, hnil, rfl⟩ | ⟨more, rfl, hmore, hlone, rfl⟩
  · rcases htext.skip hstop hsign hin hescape with ⟨-, hnil'⟩ | hslash | ⟨_, _, hmore, -, -⟩
    · exact ⟨_, _, (run_skipPast_eq_ok_iff hstop).mpr (.inl ⟨rfl, hnil', rfl⟩), rfl, _,
        { h with rest := rfl, text := .nil _, notLone := by simp }⟩
    · simp [hnil] at hslash
    · simp [hnil] at hmore
  · rcases htext.skip hstop hsign hin hescape with ⟨hnil, -⟩ | hslash | ⟨ahead, ahead', hahead, hahead', hrest⟩
    · simp [hnil] at hmore
    · simp [hslash, Ne.symm hstop] at hmore
    · obtain rfl : ahead = more := by simpa [hahead] using hmore
      rw [hrow] at hrest
      exact ⟨_, _, (run_skipPast_eq_ok_iff hstop).mpr (.inr ⟨_, rfl, hahead', fun h => hlone (hrest.lone_iff.mp h), rfl⟩),
        rfl, _, { h with rest := rfl, text := hrest, notLone := hlone }⟩

/-! ### Names -/

theorem Exchange.splitBefore {all : Bool} (h : Exchange all x cs ds) (hx : x.IsCalm) (hstop : stop ≠ '\\')
    (hsign : stop ≠ '$') {more : List Char} (hmore : (splitBefore stop cs).2 = stop :: more)
    (hneutral : (Reading.splitBefore stop cs).1.all isNeutral = true) :
    ∃ more', Reading.splitBefore stop ds = ((Reading.splitBefore stop cs).1, stop :: more') ∧
      Exchange all (x.after stop more) more more' := by
  induction h with
  | nil => simp [Reading.splitBefore] at hmore
  | lone => simp [Reading.splitBefore, Ne.symm hstop] at hmore
  | escape x c h ih => simp [Reading.splitBefore, isNeutral, signs] at hneutral
  | exchanged x hall hset h ih =>
    rw [splitBefore_cons (by decide), if_neg (Ne.symm hsign)] at hneutral
    simp [isNeutral, signs] at hneutral
  | plain x c hc hkept h ih =>
    rw [splitBefore_cons hc] at hmore hneutral ⊢
    rw [splitBefore_cons hc]
    by_cases hcs : c = stop
    · subst hcs
      rw [if_pos rfl] at hmore
      obtain ⟨-, rfl⟩ := List.cons.inj hmore
      rw [if_pos rfl, if_pos rfl]
      exact ⟨_, rfl, h⟩
    · rw [if_neg hcs] at hmore hneutral ⊢
      rw [if_neg hcs]
      obtain ⟨hcn, hrest⟩ := (Bool.and_eq_true _ _).mp (List.all_cons.symm.trans hneutral)
      rw [hx.after hcn] at ih
      obtain ⟨more', heq, htext⟩ := ih hx hmore hrest
      exact ⟨more', by rw [heq], htext⟩

theorem run_readUntil_eq_ok_iff (hstop : stop ≠ '\\') {what : String} {p q : Progress} {name : String} :
    (readUntil stop what).run p = .ok (name, q) ↔
      ∃ more, (splitBefore stop p.rest).2 = stop :: more ∧ (splitBefore stop p.rest).1 ≠ [] ∧ more ≠ ['\\'] ∧
        name = String.ofList (splitBefore stop p.rest).1 ∧
        q = { p with rest := more, position := p.position + (splitBefore stop p.rest).1.length + 1 } := by
  rw [readUntil]
  simp only [run_bind_eq_ok_iff, run_get_eq_ok_iff, run_skipPast_eq_ok_iff hstop]
  constructor
  · rintro ⟨_, _, ⟨rfl, rfl⟩, _, r, ⟨rfl, hnil, rfl⟩ | ⟨more, rfl, hmore, hlone, rfl⟩, h⟩
    · simp only [Bool.false_eq_true, if_false] at h
      split at h
      · exact absurd h run_fail_ne_ok
      · exact absurd h run_fail_ne_ok
    · simp only [if_true] at h
      split at h
      · exact absurd h run_fail_ne_ok
      · next hempty =>
        obtain ⟨rfl, rfl⟩ := run_pure_eq_ok_iff.mp h
        exact ⟨more, hmore, by simpa using hempty, hlone, rfl, rfl⟩
  · rintro ⟨more, hmore, hempty, hlone, rfl, rfl⟩
    refine ⟨p, p, ⟨rfl, rfl⟩, true, _, .inr ⟨more, rfl, hmore, hlone, rfl⟩, ?_⟩
    simp only [if_true, List.isEmpty_iff, if_neg hempty]
    rfl

/-- Both read the same name, if its characters are neutral. -/
theorem follows_readUntil (hx : x.IsCalm) (hstop : stop ≠ '\\') (hsign : stop ≠ '$')
    (hafter : ∀ cs ds, x.after stop cs = x.after stop ds) {what : String} {p q : Progress} (h : Twins t on x p q)
    {name : String} {p' : Progress} (hp : (readUntil stop what).run p = .ok (name, p'))
    (hneutral : name.toList.all isNeutral = true) :
    ∃ b q', (readUntil stop what).run q = .ok (b, q') ∧ b = name ∧ Twins t on (x.after stop []) p' q' := by
  obtain ⟨cs, h⟩ := h
  obtain ⟨more, hmore, hempty, hlone, rfl, rfl⟩ := (run_readUntil_eq_ok_iff hstop).mp hp
  rw [String.toList_ofList] at hneutral
  obtain ⟨more', heq, htext⟩ := (h.rest ▸ h.text).splitBefore hx hstop hsign hmore hneutral
  rw [hafter more []] at htext
  refine ⟨_, _, (run_readUntil_eq_ok_iff hstop).mpr ⟨more', ?_, ?_, fun h => hlone (htext.lone_iff.mp h), rfl, rfl⟩, ?_, _,
    { h with rest := rfl, text := htext, notLone := hlone }⟩
  · rw [heq]
  · rwa [heq]
  · rw [heq]

end Until

end RuleTree.Regex
