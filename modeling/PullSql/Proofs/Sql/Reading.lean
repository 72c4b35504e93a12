import PullSql.Proofs.Sql.Grammar

/-!
# Readers and phrases

A reader is sound for a phrase when it takes nothing but tokens of the phrase (`Sound`), and complete
when it takes every token list of the phrase, provided that the token behind it cannot belong to it
(`Complete`). Both are shown here for single tokens and for repetitions.

Expressions are read with a bound on open parentheses, so completeness comes with a bound on the
number of tokens.
-/

namespace PullSql.Sql.Reader

open Grammar

variable {α β : Type}

/-- What a reader gives on a stream, and the stream it leaves. -/
def outcome (r : Reader α) (s : Stream) : Except Error α × Stream := r.run s

/-- Reading from `s` gives `a` and leaves `t`. -/
def Reads (r : Reader α) (s : Stream) (a : α) (t : Stream) : Prop := outcome r s = (.ok a, t)

/-- What is read was a phrase. -/
def Sound (r : Reader α) (P : Phrase α) : Prop :=
  ∀ {s a t}, Reads r s a t → ∃ ts, s.rest = ts ++ t.rest ∧ P s.parameters ts a t.parameters

/-- Every phrase of fewer than `d` tokens is read, if the token behind it is one of `F`. -/
def Complete (d : Nat) (r : Reader α) (P : Phrase α) (F : Token → Prop) : Prop :=
  ∀ {n ts a m}, P n ts a m → ts.length < d → ∀ rest : List Token, F (rest.headD .endOfInput) →
    Reads r ⟨ts ++ rest, n⟩ a ⟨rest, m⟩

/-! ## Steps -/

section Steps

variable {s t : Stream}

@[simp] theorem reads_pure {a b : α} : Reads (pure a) s b t ↔ a = b ∧ s = t := by
  show (Except.ok a, s) = (Except.ok b, t) ↔ _
  rw [Prod.mk.injEq, Except.ok.injEq]

theorem outcome_bind (r : Reader α) (f : α → Reader β) (s : Stream) :
    outcome (r >>= f) s = match outcome r s with
      | (.ok a, u) => outcome (f a) u
      | (.error e, u) => (.error e, u) := by
  show ExceptT.bindCont f (outcome r s).1 (outcome r s).2 = _
  rcases outcome r s with ⟨e | a, u⟩ <;> rfl

theorem reads_bind {r : Reader α} {f : α → Reader β} {b : β} :
    Reads (r >>= f) s b t ↔ ∃ a u, Reads r s a u ∧ Reads (f a) u b t := by
  unfold Reads
  rw [outcome_bind]
  rcases outcome r s with ⟨e | a, u⟩ <;> simp

theorem reads_map {r : Reader α} {f : α → β} {b : β} :
    Reads (f <$> r) s b t ↔ ∃ a, Reads r s a t ∧ f a = b := by
  rw [map_eq_pure_bind, reads_bind]
  simp

@[simp] theorem not_reads_fail {e : Expectation} {a : α} : ¬ Reads (fail e) s a t := by
  intro h
  cases h

@[simp] theorem reads_current {tok : Token} : Reads current s tok t ↔ s.current = tok ∧ s = t := by
  show (Except.ok s.current, s) = (Except.ok tok, t) ↔ _
  rw [Prod.mk.injEq, Except.ok.injEq]

@[simp] theorem reads_advance {u : Unit} : Reads advance s u t ↔ s.advance = t := by
  show (Except.ok (), s.advance) = (Except.ok u, t) ↔ _
  simp

@[simp] theorem reads_get {u : Stream} : Reads get s u t ↔ s = u ∧ s = t := by
  show (Except.ok s, s) = (Except.ok u, t) ↔ _
  rw [Prod.mk.injEq, Except.ok.injEq]

@[simp] theorem reads_set {u : Stream} {x : PUnit} : Reads (set u) s x t ↔ u = t := by
  show (Except.ok PUnit.unit, u) = (Except.ok x, t) ↔ _
  simp

end Steps

/-! ## Single tokens -/

section Tokens

variable {s t : Stream} {tok : Token}

theorem advance_eq_iff (h : s.current = tok) (ht : tok ≠ .endOfInput) :
    s.advance = t ↔ s = ⟨tok :: t.rest, t.parameters⟩ := by
  obtain ⟨_ | ⟨first, rest⟩, n⟩ := s
  · exact absurd h.symm ht
  · obtain rfl : first = tok := h
    obtain ⟨us, k⟩ := t
    simp [Stream.advance]

theorem reads_accept_true (ht : tok ≠ .endOfInput) :
    Reads (accept tok) s true t ↔ s = ⟨tok :: t.rest, t.parameters⟩ := by
  unfold accept
  rw [reads_bind]
  by_cases h : s.current = tok
  · simp [reads_map, h, advance_eq_iff h ht]
  · have hs : s ≠ ⟨tok :: t.rest, t.parameters⟩ := fun e => h (by rw [e]; rfl)
    simp [h, hs]

theorem reads_accept_false : Reads (accept tok) s false t ↔ s.current ≠ tok ∧ s = t := by
  unfold accept
  rw [reads_bind]
  by_cases h : s.current = tok
  · simp [reads_map, h]
  · simp [h]

/-- A token decides between two ways to go on. -/
theorem reads_choice (ht : tok ≠ .endOfInput) {r q : Reader α} {a : α} :
    Reads (do if ← accept tok then r else q) s a t ↔
      (∃ u : Stream, s = ⟨tok :: u.rest, u.parameters⟩ ∧ Reads r u a t) ∨
      s.current ≠ tok ∧ Reads q s a t := by
  rw [reads_bind, Bool.exists_bool, or_comm]
  simp [reads_accept_true ht, reads_accept_false]

theorem current_of_reads_expect {u : Unit} (h : Reads (expect tok) s u t) : s.current = tok := by
  obtain ⟨b, v, hb, h⟩ := reads_bind.mp h
  cases b with
  | true =>
    by_contra hs
    unfold accept at hb
    simp [reads_bind, hs] at hb
  | false => exact absurd h not_reads_fail

theorem reads_expect (ht : tok ≠ .endOfInput) {u : Unit} :
    Reads (expect tok) s u t ↔ s = ⟨tok :: t.rest, t.parameters⟩ := by
  unfold expect
  rw [reads_bind, ← reads_accept_true ht]
  simp

theorem reads_advance_bind {r : Reader α} {a : α} :
    Reads (advance >>= fun _ => r) s a t ↔ Reads r s.advance a t := by
  rw [reads_bind]
  simp

theorem reads_current_bind {r : Token → Reader α} {a : α} :
    Reads (current >>= r) s a t ↔ Reads (r s.current) s a t := by
  rw [reads_bind]
  simp

/-- Taking a token and giving something for it. -/
theorem reads_advance_pure (h : s.current = tok) (ht : tok ≠ .endOfInput) {a b : α} :
    Reads (advance >>= fun _ => pure a) s b t ↔ a = b ∧ s = ⟨tok :: t.rest, t.parameters⟩ := by
  rw [reads_advance_bind, reads_pure, advance_eq_iff h ht]

theorem reads_takeOf {pick : Token → Option α} {expected : Expectation}
    (hend : pick .endOfInput = none) {a : α} :
    Reads (takeOf pick expected) s a t ↔
      ∃ tok, pick tok = some a ∧ s = ⟨tok :: t.rest, t.parameters⟩ := by
  unfold takeOf
  rw [reads_current_bind]
  constructor
  · intro h
    split at h
    · rename_i b hb
      have ht : s.current ≠ .endOfInput := fun ht => by
        rw [ht, hend] at hb
        cases hb
      obtain ⟨rfl, hs⟩ := (reads_advance_pure rfl ht).mp h
      exact ⟨_, hb, hs⟩
    · exact absurd h not_reads_fail
  · rintro ⟨tok, htok, rfl⟩
    have hpick : pick (Stream.current ⟨tok :: t.rest, t.parameters⟩) = some a := htok
    rw [hpick]
    rfl

theorem identifierOf?_eq_some {name : String} :
    identifierOf? tok = some name ↔ tok = .identifier name := by
  cases tok <;> simp [identifierOf?]

theorem literalOf?_eq_some {text : String} : literalOf? tok = some text ↔ tok = .text text := by
  cases tok <;> simp [literalOf?]

theorem reads_identifier {name : String} :
    Reads identifier s name t ↔ s = ⟨.identifier name :: t.rest, t.parameters⟩ :=
  (reads_takeOf rfl).trans (by simp [identifierOf?_eq_some])

theorem reads_textLiteral {text : String} :
    Reads textLiteral s text t ↔ s = ⟨.text text :: t.rest, t.parameters⟩ :=
  (reads_takeOf rfl).trans (by simp [literalOf?_eq_some])

theorem reads_identifierAfter? {word : Keyword} {name? : Option String} :
    Reads (identifierAfter? word) s name? t ↔
      (s.current ≠ .keyword word ∧ s = t) ∧ none = name? ∨
      ∃ name, s = ⟨.keyword word :: .identifier name :: t.rest, t.parameters⟩ ∧
        some name = name? := by
  have hk : Token.keyword word ≠ .endOfInput := Token.noConfusion
  unfold identifierAfter?
  rw [reads_bind, Bool.exists_bool]
  simp [reads_accept_true hk, reads_accept_false, reads_map, reads_identifier]

end Tokens

/-! ## Repetition -/

/-- What makes a phrase behind the token that it begins with. -/
def After (tok : Token) (P : Phrase α) : Phrase α := fun n ts a m => P n (tok :: ts) a m

section Many

variable {opens : Token → Option β} {item : β → Reader α} {P : Phrase α}

theorem reads_manyWithin_none {s t : Stream} {as : List α} (h : opens s.current = none)
    (bound : Nat) : Reads (manyWithin opens item bound) s as t ↔ [] = as ∧ s = t := by
  cases bound with
  | zero => exact reads_pure
  | succ bound => simp only [manyWithin, reads_current_bind, h, reads_pure]

theorem reads_manyWithin_some {s t : Stream} {as : List α} {how : β} (h : opens s.current = some how)
    (bound : Nat) :
    Reads (manyWithin opens item (bound + 1)) s as t ↔
      ∃ a u as', Reads (item how) s.advance a u ∧ Reads (manyWithin opens item bound) u as' t ∧
        a :: as' = as := by
  simp only [manyWithin, reads_current_bind, h, reads_advance_bind]
  constructor
  · intro h
    obtain ⟨a, u, ha, h⟩ := reads_bind.mp h
    obtain ⟨as', v, has, h⟩ := reads_bind.mp h
    obtain ⟨rfl, rfl⟩ := reads_pure.mp h
    exact ⟨a, u, as', ha, has, rfl⟩
  · rintro ⟨a, u, as', ha, has, rfl⟩
    exact reads_bind.mpr ⟨a, u, ha, reads_bind.mpr ⟨as', t, has, reads_pure.mpr ⟨rfl, rfl⟩⟩⟩

theorem sound_manyWithin (he : opens .endOfInput = none)
    (hi : ∀ {tok how}, opens tok = some how → Sound (item how) (After tok P)) (bound : Nat) :
    Sound (manyWithin opens item bound) (Many P) := by
  induction bound with
  | zero =>
    intro s as t h
    obtain ⟨rfl, rfl⟩ := reads_pure.mp h
    exact ⟨[], rfl, .nil⟩
  | succ bound ih =>
    intro s as t h
    rcases ho : opens s.current with _ | how
    · obtain ⟨rfl, rfl⟩ := (reads_manyWithin_none ho _).mp h
      exact ⟨[], rfl, .nil⟩
    · obtain ⟨a, u, as', ha, has, rfl⟩ := (reads_manyWithin_some ho bound).mp h
      obtain ⟨ts, hts, ha⟩ := hi ho ha
      obtain ⟨us, hus, has⟩ := ih has
      obtain ⟨_ | ⟨tok, rest⟩, n⟩ := s
      · exact absurd (he.symm.trans ho) (by simp)
      · refine ⟨tok :: ts ++ us, ?_, .cons ha has⟩
        rw [List.append_assoc, ← hus, List.cons_append, ← hts]
        rfl

theorem sound_many (he : opens .endOfInput = none)
    (hi : ∀ {tok how}, opens tok = some how → Sound (item how) (After tok P)) :
    Sound (many opens item) (Many P) := by
  intro s as t h
  obtain ⟨u, v, hu, h⟩ := reads_bind.mp h
  obtain ⟨rfl, rfl⟩ := reads_get.mp hu
  exact sound_manyWithin he hi _ h

/-- Each phrase begins with a token that opens it. -/
def OpenedBy (opens : Token → Option β) (P : Phrase α) : Prop :=
  ∀ {n ts a m}, P n ts a m → ∃ tok how us, ts = tok :: us ∧ opens tok = some how

variable {G : Token → Prop} {d : Nat}

/-- What stands behind an item is the token that opens the next one, or what stands behind all. -/
theorem headD_of_many (hP : OpenedBy opens P) (hG : ∀ {tok how}, opens tok = some how → G tok)
    {n m : Nat} {ts : List Token} {as : List α} (h : Many P n ts as m) {rest : List Token}
    (hr : G (rest.headD .endOfInput)) : G ((ts ++ rest).headD .endOfInput) := by
  cases h with
  | nil => exact hr
  | cons ha _ =>
    obtain ⟨tok, how, us, rfl, ho⟩ := hP ha
    exact hG ho

theorem reads_manyWithin (hP : OpenedBy opens P) (hG : ∀ {tok how}, opens tok = some how → G tok)
    (hi : ∀ {tok how}, opens tok = some how → Complete d (item how) (After tok P) G)
    {n m : Nat} {ts : List Token} {as : List α} (h : Many P n ts as m) (hd : ts.length ≤ d)
    {rest : List Token} (hr : G (rest.headD .endOfInput))
    (hend : opens (rest.headD .endOfInput) = none) {bound : Nat} (hb : ts.length ≤ bound) :
    Reads (manyWithin opens item bound) ⟨ts ++ rest, n⟩ as ⟨rest, m⟩ := by
  induction h generalizing bound with
  | nil => exact (reads_manyWithin_none hend bound).mpr ⟨rfl, rfl⟩
  | @cons n k m ts us a as ha has ih =>
    obtain ⟨tok, how, ts, rfl, ho⟩ := hP ha
    simp only [List.length_append, List.length_cons] at hd hb
    obtain ⟨bound, rfl⟩ : ∃ b, bound = b + 1 := ⟨bound - 1, by omega⟩
    refine (reads_manyWithin_some ho bound).mpr ⟨a, ⟨us ++ rest, k⟩, as, ?_, ?_, rfl⟩
    · show Reads (item how) ⟨ts ++ us ++ rest, n⟩ _ _
      rw [List.append_assoc]
      exact hi ho ha (by omega) (us ++ rest) (headD_of_many hP hG has hr)
    · exact ih (by omega) (by omega)

theorem complete_many (hP : OpenedBy opens P) (hG : ∀ {tok how}, opens tok = some how → G tok)
    (hi : ∀ {tok how}, opens tok = some how → Complete d (item how) (After tok P) G) :
    Complete d (many opens item) (Many P) fun tok => opens tok = none ∧ G tok := by
  intro n ts as m h hd rest ⟨hend, hr⟩
  refine reads_bind.mpr ⟨_, _, reads_get.mpr ⟨rfl, rfl⟩, ?_⟩
  refine reads_manyWithin hP hG hi h (by omega) hr hend ?_
  simp

end Many

/-! ## Lists with marks -/

/-- A phrase with a mark in front of it. -/
def Behind (mark : Mark) (P : Phrase α) : Phrase α :=
  fun n ts a m => ∃ us, ts = .mark mark :: us ∧ P n us a m

section Separated

variable {sep : Mark} {P : Phrase α} {item : Reader α} {G : Token → Prop} {d : Nat}

/-- Behind its first item a list goes on with marks and items. -/
theorem separated_iff {n m : Nat} {ts : List Token} {as : List α} :
    Separated sep P n ts as m ↔
      ∃ us vs k a as', ts = us ++ vs ∧ as = a :: as' ∧ P n us a k ∧
        Many (Behind sep P) k vs as' m := by
  constructor
  · intro h
    induction h with
    | one ha => exact ⟨_, [], _, _, [], by simp, rfl, ha, .nil⟩
    | cons ha _ ih =>
      obtain ⟨us, vs, k, a, as', rfl, rfl, hb, hbs⟩ := ih
      exact ⟨_, _, _, _, _, rfl, rfl, ha, .cons ⟨us, rfl, hb⟩ hbs⟩
  · rintro ⟨us, vs, k, a, as', rfl, rfl, ha, has⟩
    induction has generalizing n us a with
    | nil => simpa using Separated.one ha
    | cons hb _ ih =>
      obtain ⟨ts, rfl, hb⟩ := hb
      exact .cons ha (ih ts _ hb)

theorem eq_mark_of_opens {tok : Token} {how : Unit}
    (h : (if tok = .mark sep then some () else none) = some how) : tok = .mark sep := by
  by_contra hne
  simp [hne] at h

theorem sound_behind (hi : Sound item P) {tok : Token} {how : Unit}
    (ho : (if tok = .mark sep then some () else none) = some how) :
    Sound item (After tok (Behind sep P)) := by
  intro s a t h
  obtain ⟨us, hus, h⟩ := hi h
  exact ⟨us, hus, us, by rw [eq_mark_of_opens ho], h⟩

theorem sound_separatedBy (hi : Sound item P) : Sound (separatedBy sep item) (Separated sep P) := by
  intro s as t h
  obtain ⟨a, u, ha, h⟩ := reads_bind.mp h
  obtain ⟨as', v, has, h⟩ := reads_bind.mp h
  obtain ⟨rfl, rfl⟩ := reads_pure.mp h
  obtain ⟨ts, hts, ha⟩ := hi ha
  obtain ⟨us, hus, has⟩ := sound_many (by simp) (sound_behind hi) has
  refine ⟨ts ++ us, by rw [hts, hus, List.append_assoc], ?_⟩
  exact separated_iff.mpr ⟨ts, us, _, a, as', rfl, rfl, ha, has⟩

theorem complete_separatedBy (hi : Complete d item P G) (hG : G (.mark sep)) :
    Complete d (separatedBy sep item) (Separated sep P) fun tok => tok ≠ .mark sep ∧ G tok := by
  intro n ts as m h hd rest ⟨hsep, hr⟩
  obtain ⟨us, vs, k, a, as', rfl, rfl, ha, has⟩ := separated_iff.mp h
  have hP : OpenedBy (fun tok => if tok = .mark sep then some () else none) (Behind sep P) := by
    rintro n ts a m ⟨us, rfl, -⟩
    exact ⟨.mark sep, (), us, rfl, if_pos rfl⟩
  have hG' : ∀ {tok how}, (if tok = .mark sep then some () else none) = some how → G tok := by
    intro tok how ho
    rw [eq_mark_of_opens ho]
    exact hG
  have hi' : ∀ {tok how}, (if tok = .mark sep then some () else none) = some how →
      Complete d item (After tok (Behind sep P)) G := by
    rintro tok how - n ts a m ⟨us, hus, h⟩
    cases hus
    exact hi h
  rw [List.length_append] at hd
  rw [List.append_assoc]
  refine reads_bind.mpr ⟨a, ⟨vs ++ rest, k⟩, ?_, ?_⟩
  · exact hi ha (by omega) _ (headD_of_many hP hG' has hr)
  · refine reads_bind.mpr ⟨as', ⟨rest, m⟩, ?_, reads_pure.mpr ⟨rfl, rfl⟩⟩
    exact complete_many hP hG' hi' has (by omega) rest ⟨if_neg hsep, hr⟩

theorem sound_parenthesized (hi : Sound item P) :
    Sound (parenthesized item) (Parenthesized P) := by
  intro s as t h
  obtain ⟨_, u, hu, h1⟩ := reads_bind.mp h
  obtain rfl := (reads_expect Token.noConfusion).mp hu
  have h2 := reads_current_bind.mp h1
  dsimp only at h2
  split at h2
  · obtain ⟨as', v, has, h3⟩ := reads_bind.mp h2
    obtain ⟨_, w, hw, h4⟩ := reads_bind.mp h3
    obtain ⟨rfl, rfl⟩ := reads_pure.mp has
    obtain ⟨rfl, rfl⟩ := reads_pure.mp h4
    obtain rfl := (reads_expect Token.noConfusion).mp hw
    exact ⟨[.mark .leftParen, .mark .rightParen], rfl, .empty⟩
  · obtain ⟨as', v, has, h3⟩ := reads_bind.mp h2
    obtain ⟨_, w, hw, h4⟩ := reads_bind.mp h3
    obtain ⟨rfl, rfl⟩ := reads_pure.mp h4
    obtain rfl := (reads_expect Token.noConfusion).mp hw
    obtain ⟨ts, hts, has⟩ := sound_separatedBy hi has
    refine ⟨.mark .leftParen :: ts ++ [.mark .rightParen], ?_, .items has⟩
    rw [hts]
    simp

theorem head?_separated {n m : Nat} {ts : List Token} {as : List α} {tok : Token}
    (hP : ∀ {n ts a m}, P n ts a m → ts ≠ [] ∧ ts.head? ≠ some tok)
    (h : Separated sep P n ts as m) (rest : List Token) :
    (ts ++ rest).headD .endOfInput ≠ tok := by
  obtain ⟨us, vs, k, a, as', rfl, rfl, ha, has⟩ := separated_iff.mp h
  obtain ⟨hne, hhead⟩ := hP ha
  cases us with
  | nil => exact absurd rfl hne
  | cons first us => exact fun e => hhead (congrArg some e)

/-- The items must not begin with the closing parenthesis. -/
theorem complete_parenthesized (hi : Complete d item P G) (hc : G (.mark .comma)) (hr : G (.mark .rightParen))
    (hP : ∀ {n ts a m}, P n ts a m → ts ≠ [] ∧ ts.head? ≠ some (.mark .rightParen)) :
    Complete d (parenthesized item) (Parenthesized P) fun _ => True := by
  intro n ts as m h hd rest _
  cases h with
  | empty => rfl
  | @items _ _ ts _ has =>
    have hlen : ts.length < d := by
      simp only [List.length_append, List.length_cons] at hd
      omega
    have hs : Stream.current ⟨ts ++ .mark .rightParen :: rest, n⟩ ≠ .mark .rightParen :=
      head?_separated hP has _
    have hitems := complete_separatedBy hi hc has hlen (.mark .rightParen :: rest)
      ⟨by simp, hr⟩
    rw [List.append_assoc, List.cons_append]
    refine reads_bind.mpr ⟨(), ⟨ts ++ .mark .rightParen :: rest, n⟩,
      (reads_expect Token.noConfusion).mpr rfl, reads_current_bind.mpr ?_⟩
    dsimp only
    rw [if_neg hs]
    refine reads_bind.mpr ⟨as, _, hitems, ?_⟩
    exact reads_bind.mpr ⟨(), ⟨rest, m⟩, (reads_expect Token.noConfusion).mpr rfl,
      reads_pure.mpr ⟨rfl, rfl⟩⟩

end Separated

end PullSql.Sql.Reader
