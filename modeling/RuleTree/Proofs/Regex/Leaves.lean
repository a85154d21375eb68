import RuleTree.Proofs.Regex.Exchange
import RuleTree.Proofs.Regex.Follows

/-!
# Parts without parts in exchanged expressions

What is read inside one part of an expression - an escape, a count, a name, a reference - holds no sign for the end of a line,
so two readings that differ in their signs read it alike and stay in the same context.
-/

namespace RuleTree.Regex

open Reading

/-! ### Steady readings -/

/-- A reading that gives the same result, of some kind, at both of two places and leaves them in the same context. -/
def Steady (t : Change) (on : Flags) (x : Context) {α : Type} (f : Reading α) (S : α → Prop) : Prop :=
  Follows (Twins t on x) f f fun a b p q => b = a ∧ S a ∧ Twins t on x p q

namespace Steady

variable {t : Change} {on : Flags} {x : Context} {α β : Type} {f : Reading α} {F : α → Reading β} {S : α → Prop}
  {R : β → Prop}

/-- What follows a steady reading may go on differently at both places. -/
theorem andThen {γ δ : Type} {K : α → Reading γ} {L : α → Reading δ} {Q : γ → δ → Progress → Progress → Prop}
    (h : Steady t on x f S) (hK : ∀ a, S a → Follows (Twins t on x) (K a) (L a) Q) :
    Follows (Twins t on x) (f >>= K) (f >>= L) Q :=
  Follows.bind_eq_of h hK

theorem bind (h : Steady t on x f S) (hF : ∀ a, S a → Steady t on x (F a) R) : Steady t on x (f >>= F) R := h.andThen hF

theorem pure {a : α} (h : S a) : Steady t on x (pure a) S :=
  Follows.pure fun _ _ hpq => ⟨rfl, h, hpq⟩

theorem fail {reason : Reason} {n : Nat} : Steady t on x (fail reason n : Reading α) S := Follows.fail

theorem throw {e : Fault} : Steady t on x (throw e : Reading α) S := Follows.throw

theorem ite {c : Prop} [Decidable c] {g : Reading α} (h₁ : c → Steady t on x f S) (h₂ : ¬c → Steady t on x g S) :
    Steady t on x (if c then f else g) S := Follows.ite h₁ h₂

/-- A reading that looks at its place, and does the same at both. -/
theorem get {F : Progress → Reading β} (h : ∀ p q cs, Twin t on x cs p q → F q = F p ∧ Steady t on x (F p) R) :
    Steady t on x (get >>= F) R := by
  refine .get_of fun p q ⟨cs, hpq⟩ => ?_
  obtain ⟨heq, hF⟩ := h p q cs hpq
  rw [heq]
  exact hF

theorem accept (hx : x.IsCalm) {c : Char} (hc : isNeutral c = true) : Steady t on x (accept c) fun _ => True :=
  (follows_accept_calm (by rintro rfl; exact absurd hc (by decide)) (by rintro rfl; exact absurd hc (by decide))
    (hx.after hc)).post fun _ _ _ _ h => ⟨h.1, trivial, h.2⟩

theorem acceptWhile (hx : x.IsCalm) {ok : Char → Bool} (hok : ∀ c, ok c = true → isNeutral c = true) (limit : Nat) :
    Steady t on x (acceptWhile limit ok) fun a => a.all ok = true :=
  follows_acceptWhile hx hok limit

end Steady

/-! ### Escapes -/

section Escapes

variable {t : Change} {on : Flags} {x : Context}

theorem steady_readHex (hx : x.IsCalm) (letter : Char) (count : Nat) :
    Steady t on x (readHex letter count) fun _ => True :=
  (Steady.acceptWhile hx isNeutral_of_isHexDigit count).bind fun _ _ =>
    .ite (fun _ => .fail) fun _ => .ite (fun _ => .pure trivial) fun _ => .ite (fun _ => .fail) fun _ => .throw

theorem steady_readNamed [Text.CharacterNames] (hx : x.IsCalm) : Steady t on x readNamed fun _ => True := by
  refine (Steady.accept hx (by decide)).bind fun _ _ => .ite (fun _ => ?_) fun _ => .fail
  refine Follows.bind_of (D := fun name => name.toList.all isNeutral = true) (S := Twins t on x)
    (fun p q hpq name p' hname hneutral => ?_) (fun name p c p' h => ?_) fun name _ => ?_
  · obtain ⟨b, q', hq, hb, hpq⟩ := follows_readUntil hx (by decide) (by decide)
      (fun _ _ => (hx.after (by decide) _).trans (hx.after (by decide) _).symm) hpq hname hneutral
    rw [hx.after (by decide)] at hpq
    exact ⟨b, q', hq, hb, hpq⟩
  · split at h
    · next code hcode => exact all_isNeutral_of_ofCharacterName? hcode
    · exact absurd h run_fail_ne_ok
  · split
    · exact .pure fun p q h => ⟨rfl, trivial, h⟩
    · exact .fail

theorem steady_readCharacter [Text.CharacterNames] (hx : x.IsCalm) (c : Char) :
    Steady t on x (readCharacter c) fun _ => True := by
  rw [readCharacter.eq_def]
  split
  · exact steady_readHex hx 'x' 2
  · exact steady_readHex hx 'u' 4
  · exact steady_readHex hx 'U' 8
  · exact steady_readNamed hx
  · exact .ite (fun _ => .fail) fun _ => .pure trivial

theorem steady_checkOctal (digits : List Char) : Steady t on x (checkOctal digits) fun _ => True :=
  .ite (fun _ => .fail) fun _ => .pure trivial

theorem steady_readSetEscape [Text.CharacterNames] (hx : x.IsCalm) (c : Char) :
    Steady t on x (readSetEscape c) fun _ => True := by
  rw [readSetEscape]
  split
  · exact .pure trivial
  · split
    · exact .pure trivial
    · refine .ite (fun _ => ?_) fun _ => (steady_readCharacter hx c).bind fun _ _ => .pure trivial
      exact (Steady.acceptWhile hx isNeutral_of_isOctalDigit 2).bind fun _ _ =>
        (steady_checkOctal _).bind fun _ _ => .pure trivial

/-- A part that is read without a sign for the end of a line: one without parts of its own. -/
def Node.IsPlain (n : Node) : Prop := n.IsUnit ∧ n ≠ .anchor .lineEnd

theorem isPlain_any : Node.any.IsPlain := ⟨rfl, nofun⟩

theorem isPlain_literal (negated : Bool) (code : Nat) : (Node.literal negated code).IsPlain :=
  ⟨by simp [Node.IsUnit, Node.sameUnit], nofun⟩

theorem isPlain_set (negated : Bool) (items : List SetItem) : (Node.set negated items).IsPlain :=
  ⟨by simp [Node.IsUnit, Node.sameUnit], nofun⟩

theorem isPlain_backreference (group : Nat) : (Node.backreference group).IsPlain :=
  ⟨by simp [Node.IsUnit, Node.sameUnit], nofun⟩

theorem isPlain_anchor {a : Anchor} (h : a ≠ .lineEnd) : (Node.anchor a).IsPlain := by
  refine ⟨by simp [Node.IsUnit, Node.sameUnit], ?_⟩
  rintro ⟨⟩
  exact h rfl

theorem steady_checkLookbehind (group : Nat) : Steady t on x (checkLookbehind group) fun _ => True := by
  refine .get fun p q cs h => ?_
  rw [h.beforeLookbehind, h.isClosed]
  refine ⟨rfl, ?_⟩
  split
  · exact .pure trivial
  · exact .ite (fun _ => .fail) fun _ => .ite (fun _ => .fail) fun _ => .pure trivial

theorem steady_readReference (digits : List Char) : Steady t on x (readReference digits) Node.IsPlain := by
  refine .get fun p q cs h => ?_
  dsimp only
  rw [h.nextGroup, h.isClosed]
  refine ⟨rfl, .ite (fun _ => .fail) fun _ => .ite (fun _ => .fail) fun _ => ?_⟩
  exact (steady_checkLookbehind _).bind fun _ _ => .pure (isPlain_backreference _)

theorem steady_readDigitEscape (hx : x.IsCalm) (c : Char) : Steady t on x (readDigitEscape c) Node.IsPlain := by
  refine .ite (fun _ => ?_) fun _ => ?_
  · exact (Steady.acceptWhile hx isNeutral_of_isOctalDigit 2).bind fun _ _ => .pure (isPlain_literal _ _)
  · refine (Steady.acceptWhile hx isNeutral_of_isDigit 1).bind fun digits _ => ?_
    split
    · refine .ite (fun _ => ?_) fun _ => steady_readReference _
      refine (Steady.acceptWhile hx isNeutral_of_isOctalDigit 1).bind fun digits _ => ?_
      split
      · exact (steady_checkOctal _).bind fun _ _ => .pure (isPlain_literal _ _)
      · exact steady_readReference _
    · exact steady_readReference _

theorem anchor?_ne_lineEnd {c : Char} {a : Anchor} (h : anchor? c = some a) : a ≠ .lineEnd := by
  rintro rfl
  unfold anchor? at h
  split at h <;> cases h

theorem steady_readEscape [Text.CharacterNames] (hx : x.IsCalm) (c : Char) : Steady t on x (readEscape c) Node.IsPlain := by
  rw [readEscape]
  split
  · next anchor hanchor => exact .pure (isPlain_anchor (anchor?_ne_lineEnd hanchor))
  · split
    · exact .pure (isPlain_set _ _)
    · split
      · exact .pure (isPlain_literal _ _)
      · exact .ite (fun _ => steady_readDigitEscape hx c) fun _ =>
          (steady_readCharacter hx c).bind fun _ _ => .pure (isPlain_literal _ _)

end Escapes

/-! ### Sets -/

section Sets

variable {t : Change} {on : Flags} (x : Context)

/-- The same context in another region. -/
def Context.within (x : Context) (r : Region) : Context := { x with region := r }

theorem isCalm_within_set : (x.within .set).IsCalm := .inr rfl

theorem steady_readSetItem [Text.CharacterNames] (this : Token) :
    Steady t on (x.within .set) (readSetItem this) fun _ => True := by
  cases this with
  | plain c => exact .pure trivial
  | escape c => exact steady_readSetEscape (isCalm_within_set x) c

/-- In a set both go past the same token: the bracket behind a member ends the set, anything else is in it. -/
theorem follows_next_set {r : Region} {items : List SetItem} (hr : r = .setStart ∧ items = [] ∨ r = .set ∧ items ≠ []) :
    Follows (Twins t on (x.within r)) next next fun a b p q => b = a ∧ ∀ this, a = some this →
      Twins t on (x.within (if this = .plain ']' ∧ items ≠ [] then .row else .set)) p q := by
  refine .exists_pre fun cs => follows_next.post ?_
  rintro a b p q ⟨y, ds, hmove, h⟩
  cases hmove with
  | none => exact ⟨rfl, nofun⟩
  | plain c _ hc hkept =>
    refine ⟨rfl, ?_⟩
    rintro _ ⟨⟩
    refine ⟨ds, ?_⟩
    rcases hr with ⟨rfl, rfl⟩ | ⟨rfl, hitems⟩
    · simpa [Context.after, Context.within] using h
    · by_cases hclose : c = ']' <;> simpa [Context.after, Context.within, hclose, hitems] using h
  | escape c _ =>
    refine ⟨rfl, ?_⟩
    rintro _ ⟨⟩
    refine ⟨ds, ?_⟩
    rcases hr with ⟨rfl, rfl⟩ | ⟨rfl, hitems⟩ <;> simpa [Context.afterEscape, Context.within] using h
  | exchanged _ hall hset => rcases hr with ⟨rfl, rfl⟩ | ⟨rfl, hitems⟩ <;> cases hset

theorem follows_readSetItems [Text.CharacterNames] (start start' : Nat) (fuel fuel' : Nat) (hfuel : fuel ≤ fuel') (r : Region)
    (items : List SetItem) (hr : r = .setStart ∧ items = [] ∨ r = .set ∧ items ≠ []) :
    Follows (Twins t on (x.within r)) (readSetItems start fuel items) (readSetItems start' fuel' items)
      fun a b p q => b = a ∧ Twins t on (x.within .row) p q := by
  induction fuel generalizing fuel' r items with
  | zero => exact .throw
  | succ fuel ih =>
    obtain ⟨fuel', rfl⟩ : ∃ n, fuel' = n + 1 := ⟨fuel' - 1, by omega⟩
    have hgo : ∀ item, Follows (Twins t on (x.within .set)) (readSetItems start fuel (items ++ [item]))
        (readSetItems start' fuel' (items ++ [item])) fun a b p q => b = a ∧ Twins t on (x.within .row) p q :=
      fun item => ih fuel' (by omega) .set _ (.inr ⟨rfl, by simp⟩)
    rw [readSetItems, readSetItems]
    refine (follows_next_set x hr).bind_eq fun token => ?_
    cases token with
    | none => exact .failAt
    | some this =>
      refine .ite (fun hclose => .pure fun p q h => ⟨rfl, ?_⟩) fun hclose => ?_
      · simpa only [if_pos hclose] using h this rfl
      refine .pre ?_ fun p q h => by simpa only [if_neg hclose] using h this rfl
      refine (steady_readSetItem x this).andThen fun first _ => (Steady.accept (isCalm_within_set x) (by decide)).andThen
        fun dash _ => .ite (fun _ => ?_) fun _ => hgo first
      -- A range, unless the bracket behind the dash ends the set.
      refine (follows_next_set x (.inr ⟨rfl, List.cons_ne_nil first []⟩)).bind_eq fun token => ?_
      split
      · exact .failAt
      · refine .pure fun p q h => ⟨rfl, ?_⟩
        simpa using h (.plain ']') rfl
      · next that hopen =>
        have hopen : that ≠ .plain ']' := fun h => hopen (by rw [h])
        refine .pre ?_ fun p q h => by simpa only [hopen, false_and, if_false] using h that rfl
        refine (steady_readSetItem x that).andThen fun last _ => ?_
        split
        · exact .ite (fun _ => .fail) fun _ => hgo _
        · exact .fail

/-- Behind its bracket and the sign that may negate it, a set begins. -/
theorem follows_accept_caret {cs : List Char} (hx : x.region = .row) : Follows (Twin t on (x.after '[' cs) cs)
    (accept '^') (accept '^') fun a b p q => b = a ∧ Twins t on (x.within .setStart) p q := by
  refine (follows_accept (by decide) (by decide)).post ?_
  rintro a b p q ⟨rfl, h⟩
  refine ⟨rfl, ?_⟩
  cases b with
  | true =>
    obtain ⟨ds, rfl, h⟩ := h
    exact ⟨ds, by simpa [Context.after, Context.within, hx] using h⟩
  | false =>
    obtain ⟨hhead, h⟩ := h
    exact ⟨cs, by simpa [Context.after, Context.within, hx, hhead] using h⟩

/-- Both read the same set. -/
theorem follows_readSet [Text.CharacterNames] {cs : List Char} (hx : x.region = .row) :
    Follows (Twin t on (x.after '[' cs) cs) readSet readSet
    fun a b p q => b = a ∧ a.IsPlain ∧ Twins t on (x.within .row) p q := by
  refine .get_of fun p q _ => (follows_accept_caret x hx).bind_eq fun negated => .get_of fun p' q' ⟨ds, h⟩ => ?_
  have hlength := h.text.length_le
  rw [← h.rest] at hlength
  refine (follows_readSetItems x (p.position - 1) (q.position - 1) _ _ (Nat.succ_le_succ hlength) .setStart []
    (.inl ⟨rfl, rfl⟩)).bind_eq fun items => ?_
  split
  · exact .pure fun _ _ h => ⟨rfl, isPlain_literal _ _, h⟩
  · exact .pure fun _ _ h => ⟨rfl, isPlain_set _ _, h⟩

end Sets

/-! ### Counts -/

section Counts

variable {t : Change} {on : Flags} {x : Context}

/-- Whether no more is ahead than a count of characters says. -/
def Within (m n : Nat) (p q : Progress) : Prop := p.rest.length ≤ m ∧ q.rest.length ≤ n

theorem length_of_run_advance {n : Nat} {p q : Progress} {u : Unit} (h : (advance n).run p = .ok (u, q)) :
    q.rest.length ≤ p.rest.length := by
  obtain ⟨-, rfl⟩ := run_advance_eq_ok_iff.mp h
  simp

theorem length_of_run_accept {c : Char} {p q : Progress} {b : Bool} (h : (accept c).run p = .ok (b, q)) :
    q.rest.length ≤ p.rest.length := by
  obtain ⟨_, r, hpeek, h⟩ := run_bind_eq_ok_iff.mp h
  obtain ⟨_, _, hget, hpeek⟩ := run_bind_eq_ok_iff.mp hpeek
  obtain ⟨rfl, rfl⟩ := run_get_eq_ok_iff.mp hget
  obtain ⟨rfl, rfl⟩ := run_pure_eq_ok_iff.mp hpeek
  split at h
  · obtain ⟨_, s, hadvance, h⟩ := run_bind_eq_ok_iff.mp h
    obtain ⟨-, rfl⟩ := run_pure_eq_ok_iff.mp h
    exact length_of_run_advance hadvance
  · obtain ⟨-, rfl⟩ := run_pure_eq_ok_iff.mp h
    exact Nat.le_refl _

theorem length_of_run_acceptWhile {limit : Nat} {ok : Char → Bool} {p q : Progress} {a : List Char}
    (h : (acceptWhile limit ok).run p = .ok (a, q)) : q.rest.length ≤ p.rest.length := by
  obtain ⟨_, _, hget, h⟩ := run_bind_eq_ok_iff.mp h
  obtain ⟨rfl, rfl⟩ := run_get_eq_ok_iff.mp hget
  obtain ⟨_, r, hadvance, h⟩ := run_bind_eq_ok_iff.mp h
  obtain ⟨-, rfl⟩ := run_pure_eq_ok_iff.mp h
  exact length_of_run_advance hadvance

/-- Readings that go forward leave no more ahead. -/
theorem Follows.within {α : Type} {f g : Reading α} {m n : Nat}
    (h : Follows (fun p q => Twins t on x p q ∧ Within m n p q) f g fun a b p q => b = a ∧ Twins t on x p q)
    (hf : ∀ p a q, f.run p = .ok (a, q) → q.rest.length ≤ p.rest.length)
    (hg : ∀ p a q, g.run p = .ok (a, q) → q.rest.length ≤ p.rest.length) :
    Follows (fun p q => Twins t on x p q ∧ Within m n p q) f g
      fun a b p q => b = a ∧ Twins t on x p q ∧ Within m n p q := by
  rintro p q ⟨hpq, hwithin⟩ a p' hp
  obtain ⟨b, q', hq, heq, htwins⟩ := h p q ⟨hpq, hwithin⟩ a p' hp
  exact ⟨b, q', hq, heq, htwins, Nat.le_trans (hf p a p' hp) hwithin.1, Nat.le_trans (hg q b q' hq) hwithin.2⟩

theorem steady_readCount (digits : List Char) : Steady t on x (readCount digits) fun _ => True :=
  .ite (fun _ => .pure trivial) fun _ => .ite (fun _ => .throw) fun _ => .ite (fun _ => .throw) fun _ => .pure trivial

/-- Both take all digits ahead. -/
theorem follows_digits (hx : x.IsCalm) (m n : Nat) : Follows (fun p q => Twins t on x p q ∧ Within m n p q)
    (acceptWhile m Decimal.isDigit) (acceptWhile n Decimal.isDigit)
    fun a b p q => b = a ∧ Twins t on x p q ∧ Within m n p q :=
  .within ((follows_acceptWhile_of hx isNeutral_of_isDigit m n fun _ _ h => ⟨h.1, .inr h.2⟩).post
    fun _ _ _ _ h => ⟨h.1, h.2.2⟩) (fun _ _ _ => length_of_run_acceptWhile) fun _ _ _ => length_of_run_acceptWhile

/-- Both go past a neutral character, or neither does. -/
theorem follows_accept_within (hx : x.IsCalm) {c : Char} (hc : isNeutral c = true) (m n : Nat) :
    Follows (fun p q => Twins t on x p q ∧ Within m n p q) (accept c) (accept c)
      fun a b p q => b = a ∧ Twins t on x p q ∧ Within m n p q :=
  .within (((Steady.accept hx hc).pre fun _ _ h => h.1).post fun _ _ _ _ h => ⟨h.1, h.2.2⟩)
    (fun _ _ _ => length_of_run_accept) fun _ _ _ => length_of_run_accept

theorem Exchange.head?_eq_iff {all : Bool} {cs ds : List Char} (h : Exchange all x cs ds) {c : Char} (hslash : c ≠ '\\')
    (hsign : c ≠ '$') : ds.head? = some c ↔ cs.head? = some c := by
  cases h <;> simp_all [Ne.symm hslash, Ne.symm hsign]

theorem follows_finishCounts (hx : x.IsCalm) {p q : Progress} (h : Twins t on x p q) (lo hi : List Char) :
    Follows (Twins t on x) (finishCounts p lo hi) (finishCounts q lo hi) fun a b p q => b = a ∧ True ∧ Twins t on x p q := by
  refine (Steady.accept hx (by decide)).andThen fun closed _ => .ite (fun _ => ?_) fun _ => ?_
  · refine (steady_readCount lo).andThen fun least _ => (steady_readCount hi).andThen fun most _ => ?_
    exact .ite (fun _ => .failAt) fun _ => .pure fun _ _ h => ⟨rfl, trivial, h⟩
  · refine Follows.bind (Q := fun _ _ p' q' => p' = p ∧ q' = q) ?_ fun _ _ => .pure fun p' q' hpq => ⟨rfl, trivial, ?_⟩
    · intro p' q' _ a r hr
      exact ⟨⟨⟩, q, rfl, (run_set_eq_ok_iff.mp hr).symm, rfl⟩
    · rwa [hpq.1, hpq.2]

/-- Both read the same counts, or go back to where they were. -/
theorem steady_readCounts (hx : x.IsCalm) : Steady t on x readCounts fun _ => True := by
  refine Follows.get fun p q ⟨cs, h⟩ => ?_
  have hhead := (h.rest ▸ h.text).head?_eq_iff (c := '\x7d') (by decide) (by decide)
  have hstart : ∀ p' q', p' = p ∧ q' = q → Twins t on x p' q' ∧ Within p.rest.length q.rest.length p' q' := by
    rintro _ _ ⟨rfl, rfl⟩
    exact ⟨h.twins, Nat.le_refl _, Nat.le_refl _⟩
  refine .ite_iff (by rw [hhead]) (fun _ => .pure fun _ _ hpq => ⟨rfl, trivial, (hstart _ _ hpq).1⟩) fun _ => ?_
  have hfinish : ∀ lo hi, Follows (fun p' q' => Twins t on x p' q' ∧ Within p.rest.length q.rest.length p' q')
      (finishCounts p lo hi) (finishCounts q lo hi) fun a b p q => b = a ∧ True ∧ Twins t on x p q :=
    fun lo hi => (follows_finishCounts hx h.twins lo hi).pre fun _ _ h => h.1
  refine .pre ?_ hstart
  refine (follows_digits hx _ _).bind_eq fun lo => (follows_accept_within hx (by decide) _ _).bind_eq fun both => ?_
  exact .ite (fun _ => (follows_digits hx _ _).bind_eq fun hi => hfinish lo hi) fun _ => hfinish lo lo

end Counts

/-! ### Parts of a row that is being read -/

/-- A part of a row that is being read: a branch only stands inside of groups, or makes a whole row. -/
def Node.IsHeld (n : Node) : Prop := n.Normal ∧ ∀ rows, n ≠ .branch rows

section Held

variable (all : Bool) {n : Node}

theorem isHeld_anchor (a : Anchor) : (Node.anchor a).IsHeld := ⟨trivial, nofun⟩

theorem Node.IsPlain.isHeld (h : n.IsPlain) : n.IsHeld := by
  cases n <;> simp_all [IsPlain, IsUnit, sameUnit, IsHeld, Normal]

theorem Node.IsPlain.exchange_eq (h : n.IsPlain) : n.exchange all = n := by
  cases n with
  | anchor a => cases a <;> simp_all [IsPlain, exchange, Anchor.exchange]
  | _ => first | rfl | simp_all [IsPlain, IsUnit, sameUnit]

theorem Node.IsHeld.rejoined (h : n.IsHeld) : (n.exchange all).rejoined = [n.exchange all] := by
  cases n <;> first | rfl | exact absurd rfl (h.2 _)

theorem Node.IsHeld.unwrapped (h : n.IsHeld) :
    NormalRow n.unwrapped ∧ (n.exchange all).unwrapped = exchangeRow all n.unwrapped := by
  have halone : NormalRow [n] ∧ [n.exchange all] = exchangeRow all [n] := by
    rw [exchangeRow, exchangeRow, h.rejoined, List.append_nil]
    exact ⟨⟨h.1, trivial⟩, rfl⟩
  match n with
  | .group none on off body =>
    rw [Node.exchange, Node.unwrapped, Node.unwrapped]
    by_cases hplain : (on.isEmpty && off.isEmpty) = true
    · rw [if_pos hplain, if_pos hplain]
      exact ⟨h.1, rfl⟩
    · rw [if_neg hplain, if_neg hplain]
      exact halone
  | .group (some _) _ _ _ => exact halone
  | .any => exact halone
  | .literal _ _ => exact halone
  | .set _ _ => exact halone
  | .anchor _ => exact halone
  | .repeated _ _ _ _ => exact halone
  | .atomic _ => exact halone
  | .branch _ => exact absurd rfl (h.2 _)
  | .backreference _ => exact halone
  | .conditional _ _ _ => exact halone
  | .lookahead _ _ => exact halone
  | .lookbehind _ _ _ => exact halone

/-- A row is read with its parts turned around and out of their brackets. -/
theorem flatMap_unwrapped {ns : List Node} (h : ∀ n ∈ ns, n.IsHeld) : NormalRow (ns.reverse.flatMap Node.unwrapped) ∧
    (ns.map (Node.exchange all)).reverse.flatMap Node.unwrapped = exchangeRow all (ns.reverse.flatMap Node.unwrapped) := by
  induction ns with
  | nil => exact ⟨trivial, rfl⟩
  | cons n ns ih =>
    obtain ⟨hnormal, heq⟩ := ih fun m hm => h m (List.mem_cons_of_mem _ hm)
    obtain ⟨hn, hneq⟩ := (h n List.mem_cons_self).unwrapped all
    rw [List.map_cons, List.reverse_cons, List.reverse_cons, List.flatMap_append, List.flatMap_append, heq,
      exchangeRow_append, List.flatMap_singleton, List.flatMap_singleton, hneq]
    refine ⟨normalRow_iff.mpr fun m hm => ?_, rfl⟩
    rcases List.mem_append.mp hm with hm | hm
    · exact normalRow_iff.mp hnormal m hm
    · exact normalRow_iff.mp hn m hm

theorem repeatedBody_eq (n : Node) : repeatedBody n = n.unwrapped := by
  cases n with
  | group number => cases number <;> rfl
  | _ => rfl

end Held

/-! ### Repetitions -/

section Repetitions

variable {t : Change} {on : Flags} {x : Context}

/-- Rows that are being read at two places: what is held at the second is exchanged. -/
def Rows (t : Change) (on : Flags) (x : Context) (a b : List Node) (p q : Progress) : Prop :=
  b = a.map (Node.exchange t.all) ∧ (∀ n ∈ a, n.IsHeld) ∧ Twins t on x p q

theorem readRepetition_cons {start least : Nat} {most : Option Nat} {item : Node} (before : List Node)
    (hanchor : ∀ a, item ≠ .anchor a) (hrepeated : ∀ g l m b, item ≠ .repeated g l m b) :
    readRepetition start least most (item :: before) =
      readGreed >>= fun greed => pure (.repeated greed least most (repeatedBody item) :: before) :=
  readRepetition.eq_4 _ _ _ _ _ hanchor hrepeated

theorem steady_readGreed (hx : x.region = .row) : Steady t on x readGreed fun _ => True := by
  have hafter : ∀ cs, x.after '?' cs = x := fun cs => by simp [Context.after, hx]
  refine Steady.bind (S := fun _ => True) ?_ fun _ _ => .ite (fun _ => .pure trivial) fun _ => ?_
  · exact (follows_accept_calm (by decide) (by decide) hafter).post fun _ _ _ _ h => ⟨h.1, trivial, h.2⟩
  · exact (Steady.accept (.inl hx) (by decide)).bind fun _ _ => .ite (fun _ => .pure trivial) fun _ => .pure trivial

theorem follows_readRepetition (hx : x.region = .row) (start start' least : Nat) (most : Option Nat) {before : List Node}
    (hbefore : ∀ n ∈ before, n.IsHeld) : Follows (Twins t on x) (readRepetition start least most before)
      (readRepetition start' least most (before.map (Node.exchange t.all))) (Rows t on x) := by
  cases before with
  | nil => exact .failAt
  | cons item before =>
    by_cases hanchor : ∃ a, item = .anchor a
    · obtain ⟨a, rfl⟩ := hanchor
      exact .failAt
    by_cases hrepeated : ∃ g l m b, item = .repeated g l m b
    · obtain ⟨g, l, m, b, rfl⟩ := hrepeated
      exact .failAt
    rw [List.map_cons, readRepetition_cons _ (fun a h => hanchor ⟨a, h⟩) (fun g l m b h => hrepeated ⟨g, l, m, b, h⟩),
      readRepetition_cons]
    · refine (steady_readGreed hx).andThen fun greed _ => .pure fun p q h => ⟨?_, ?_, h⟩
      · rw [List.map_cons, Node.exchange, repeatedBody_eq, repeatedBody_eq,
          ((hbefore item List.mem_cons_self).unwrapped t.all).2]
      · refine List.forall_mem_cons.mpr ⟨⟨?_, nofun⟩, fun n hn => hbefore n (List.mem_cons_of_mem _ hn)⟩
        rw [Node.Normal, repeatedBody_eq]
        exact ((hbefore item List.mem_cons_self).unwrapped t.all).1
    · cases item <;> simp_all [Node.exchange]
    · cases item <;> simp_all [Node.exchange]

end Repetitions

end RuleTree.Regex
