import PullSql.Proofs.Sql.Clauses

/-!
# What a reader looks at

A reader does not see farther than one token behind those that it takes, whether it succeeds or fails.
It does the same on every stream that goes on with these tokens (`Alike`).

1. Readers that are made of such readers are such readers (`Alike.bind`, `alike_look`, `alike_many`).
2. The bounds on repetitions and parentheses do not show: each is the number of tokens left, and two of
   these are compared as well (`alike_exprWithin`).

Main statement: `alike_bareStatement`.
-/

namespace PullSql.Sql.Reader

open Grammar

variable {α β γ : Type}

/-- On streams of fewer than `d` tokens the first reader takes some tokens. On a stream of fewer than
`d'` tokens that begins with them and goes on with the same next token, the second reader takes them
too, with the same result. -/
def Alike (d d' : Nat) (r r' : Reader α) : Prop :=
  ∀ ⦃s result t⦄, s.rest.length < d → outcome r s = (result, t) →
    ∃ pre, s.rest = pre ++ t.rest ∧ ∀ rest : List Token, rest.headD .endOfInput = t.current →
      (pre ++ rest).length < d' →
      outcome r' ⟨pre ++ rest, s.parameters⟩ = (result, ⟨rest, t.parameters⟩)

section Alike

variable {d d' : Nat} {r r' q q' : Reader α}

/-- A reader whose outcome depends on the next token only, and that takes no token. -/
theorem alike_of_untaken {f : Token → Nat → Except Error α} {g : Nat → Nat}
    (h : ∀ s, outcome r s = (f s.current s.parameters, ⟨s.rest, g s.parameters⟩)) :
    Alike d d' r r := by
  intro s result t _ hs
  rw [h] at hs
  cases hs
  refine ⟨[], rfl, fun rest hrest _ => ?_⟩
  rw [List.nil_append, h]
  show (f (rest.headD .endOfInput) _, _) = _
  rw [hrest]
  rfl

theorem alike_pure (a : α) : Alike d d' (pure a : Reader α) (pure a) :=
  alike_of_untaken (f := fun _ _ => .ok a) (g := id) fun _ => rfl

theorem alike_fail (e : Expectation) : Alike d d' (fail e : Reader α) (fail e) :=
  alike_of_untaken (f := fun tok _ => .error (.unexpectedToken tok e)) (g := id) fun _ => rfl

theorem alike_freshParameter : Alike d d' freshParameter freshParameter :=
  alike_of_untaken (f := fun _ n => .ok n) (g := (· + 1)) fun _ => rfl

/-- What stands in front of the next token. -/
theorem headD_append {pre rest : List Token} {s t : Stream} (hs : s.rest = pre ++ t.rest)
    (h : rest.headD .endOfInput = t.current) : (pre ++ rest).headD .endOfInput = s.current := by
  cases pre with
  | nil =>
    rw [List.nil_append] at hs
    rw [List.nil_append, h, Stream.current, Stream.current, hs]
  | cons tok pre =>
    rw [Stream.current, hs]
    rfl

theorem Alike.bind {f f' : α → Reader β} (hr : Alike d d' r r')
    (hf : ∀ a, Alike d d' (f a) (f' a)) : Alike d d' (r >>= f) (r' >>= f') := by
  intro s result t hd h
  rw [outcome_bind] at h
  rcases hu : outcome r s with ⟨e | a, u⟩
  · rw [hu] at h
    obtain ⟨rfl, rfl⟩ := Prod.mk.inj h
    obtain ⟨pre, hs, hpre⟩ := hr hd hu
    refine ⟨pre, hs, fun rest hrest hd' => ?_⟩
    rw [outcome_bind, hpre rest hrest hd']
  · rw [hu] at h
    obtain ⟨pre, hs, hpre⟩ := hr hd hu
    have hlen : u.rest.length < d := by
      rw [hs, List.length_append] at hd
      omega
    obtain ⟨pre', hs', hpre'⟩ := hf a hlen h
    refine ⟨pre ++ pre', by rw [hs, hs', List.append_assoc], fun rest hrest hd' => ?_⟩
    rw [List.append_assoc] at hd' ⊢
    have hlen' : (pre' ++ rest).length < d' := by
      rw [List.length_append] at hd'
      omega
    rw [outcome_bind, hpre _ (headD_append hs' hrest) hd']
    exact hpre' rest hrest hlen'

theorem Alike.mono {c c' : Nat} (h : Alike d d' r r') (hc : c ≤ d) (hc' : c' ≤ d') :
    Alike c c' r r' := by
  intro s result t hlen hs
  obtain ⟨pre, hpre, hmore⟩ := h (Nat.lt_of_lt_of_le hlen hc) hs
  exact ⟨pre, hpre, fun rest hrest hlen' => hmore rest hrest (Nat.lt_of_lt_of_le hlen' hc')⟩

theorem Alike.map (hr : Alike d d' r r') (f : α → β) : Alike d d' (f <$> r) (f <$> r') := by
  rw [map_eq_pure_bind, map_eq_pure_bind]
  exact hr.bind fun a => alike_pure (f a)

/-- A reader that looks at the next token and then may take it, which leaves one token fewer. -/
theorem alike_look {f f' : Token → Reader α}
    (h : ∀ tok, Alike d d' (f tok) (f' tok) ∨ tok ≠ .endOfInput ∧ ∃ g g',
      f tok = (advance >>= fun _ => g) ∧ f' tok = (advance >>= fun _ => g') ∧
        Alike (d - 1) (d' - 1) g g') :
    Alike d d' (current >>= f) (current >>= f') := by
  intro s result t hd hs
  have hlook : ∀ {f : Token → Reader α} {s : Stream},
      outcome (current >>= f) s = outcome (f s.current) s := fun {f s} => outcome_bind current f s
  rw [hlook] at hs
  rcases h s.current with hf | ⟨hne, g, g', hg, hg', hf⟩
  · obtain ⟨pre, hpre, hmore⟩ := hf hd hs
    refine ⟨pre, hpre, fun rest hrest hd' => ?_⟩
    rw [hlook, show Stream.current ⟨pre ++ rest, s.parameters⟩ = s.current from
      headD_append hpre hrest]
    exact hmore rest hrest hd'
  · have hadvance : ∀ {g : Reader α} {s : Stream},
        outcome (advance >>= fun _ => g) s = outcome g s.advance := fun {g s} =>
      outcome_bind advance (fun _ => g) s
    rw [hg, hadvance] at hs
    obtain ⟨_ | ⟨tok, more⟩, n⟩ := s
    · exact absurd rfl hne
    have hd : more.length + 1 < d := hd
    have hlen : more.length < d - 1 := by omega
    obtain ⟨pre, hpre, hmore⟩ := hf (s := ⟨more, n⟩) hlen hs
    have hpre : more = pre ++ t.rest := hpre
    refine ⟨tok :: pre, by rw [hpre]; rfl, fun rest hrest hd' => ?_⟩
    have hg' : f' tok = (advance >>= fun _ => g') := hg'
    show outcome (current >>= f') ⟨tok :: (pre ++ rest), n⟩ = _
    rw [hlook, show Stream.current ⟨tok :: (pre ++ rest), n⟩ = tok from rfl, hg', hadvance]
    have hd' : (pre ++ rest).length + 1 < d' := hd'
    exact hmore rest hrest (show (pre ++ rest).length < d' - 1 by omega)

/-- The bounds are large enough where there is no bound on what is read. -/
theorem outcome_of_alike {s t : Stream} {result : Except Error α} (h : ∀ d d', Alike d d' r r')
    (hs : outcome r s = (result, t)) :
    ∃ pre, s.rest = pre ++ t.rest ∧ ∀ rest : List Token, rest.headD .endOfInput = t.current →
      outcome r' ⟨pre ++ rest, s.parameters⟩ = (result, ⟨rest, t.parameters⟩) := by
  obtain ⟨pre, hpre, -⟩ := h _ 0 (Nat.lt_succ_self _) hs
  refine ⟨pre, hpre, fun rest hrest => ?_⟩
  obtain ⟨pre', hpre', hmore⟩ := h _ ((pre ++ rest).length + 1) (Nat.lt_succ_self _) hs
  obtain rfl : pre' = pre := List.append_cancel_right (hpre'.symm.trans hpre)
  exact hmore rest hrest (Nat.lt_succ_self _)

theorem alike_accept {tok : Token} (ht : tok ≠ .endOfInput) :
    Alike d d' (accept tok) (accept tok) := by
  refine alike_look fun next => ?_
  by_cases h : next = tok
  · simp only [h, if_true]
    exact .inr ⟨ht, _, _, rfl, rfl, alike_pure true⟩
  · simp only [h, if_false]
    exact .inl (alike_pure false)

/-- A bound that is read off the stream, beyond which no bound shows. -/
theorem alike_of_bounded {r r' : Nat → Reader α}
    (h : ∀ bound bound', Alike (min d (bound + 1)) (min d' (bound' + 1)) (r bound) (r' bound')) :
    Alike d d' (do r (← get).rest.length) (do r' (← get).rest.length) := by
  have hget : ∀ (r : Nat → Reader α) (s : Stream),
      outcome (do r (← get).rest.length) s = outcome (r s.rest.length) s :=
    fun r s => outcome_bind get _ s
  intro s result t hd hs
  rw [hget] at hs
  have hlen : s.rest.length < min d (s.rest.length + 1) := by omega
  obtain ⟨pre, hpre, -⟩ := h s.rest.length 0 hlen hs
  refine ⟨pre, hpre, fun rest hrest hd' => ?_⟩
  obtain ⟨pre', hpre', hmore⟩ := h s.rest.length (pre ++ rest).length hlen hs
  obtain rfl : pre' = pre := List.append_cancel_right (hpre'.symm.trans hpre)
  rw [hget]
  exact hmore rest hrest (by omega)

theorem alike_choice {tok : Token} (ht : tok ≠ .endOfInput) (hr : Alike d d' r r')
    (hq : Alike d d' q q') :
    Alike d d' (do if ← accept tok then r else q) (do if ← accept tok then r' else q') := by
  refine (alike_accept ht).bind fun taken => ?_
  cases taken
  · exact hq
  · exact hr

theorem alike_expect {tok : Token} (ht : tok ≠ .endOfInput) :
    Alike d d' (expect tok) (expect tok) := by
  refine (alike_accept ht).bind fun taken => ?_
  cases taken
  · exact alike_fail _
  · exact alike_pure ()

theorem alike_expectKeyword (word : Keyword) : Alike d d' (expectKeyword word) (expectKeyword word) :=
  alike_expect Token.noConfusion

theorem alike_expectMark (m : Mark) : Alike d d' (expectMark m) (expectMark m) :=
  alike_expect Token.noConfusion

theorem alike_takeOf {pick : Token → Option α} (hend : pick .endOfInput = none)
    (expected : Expectation) : Alike d d' (takeOf pick expected) (takeOf pick expected) := by
  refine alike_look fun next => ?_
  rcases ha : pick next with _ | a
  · exact .inl (alike_fail _)
  · refine .inr ⟨fun hn => ?_, _, _, rfl, rfl, alike_pure a⟩
    rw [hn, hend] at ha
    cases ha

theorem alike_identifier : Alike d d' identifier identifier := alike_takeOf rfl _

theorem alike_identifierAfter? (word : Keyword) :
    Alike d d' (identifierAfter? word) (identifierAfter? word) :=
  alike_choice Token.noConfusion (alike_identifier.map some) (alike_pure none)

end Alike

/-! ## Repetition -/

section Many

variable {d d' : Nat} {opens : Token → Option β} {item item' : β → Reader α} {r r' : Reader α}

theorem outcome_manyWithin_none {s : Stream} (h : opens s.current = none) (bound : Nat) :
    outcome (manyWithin opens item bound) s = (.ok [], s) :=
  (reads_manyWithin_none h bound).mpr ⟨rfl, rfl⟩

theorem outcome_manyWithin_some {s : Stream} {how : β} (h : opens s.current = some how) (bound : Nat) :
    outcome (manyWithin opens item (bound + 1)) s =
      outcome (do let first ← item how; return first :: (← manyWithin opens item bound)) s.advance := by
  have hcurrent : outcome current s = (.ok s.current, s) := rfl
  show outcome (current >>= _) s = _
  rw [outcome_bind, hcurrent]
  dsimp only
  rw [h]
  exact outcome_bind advance _ s

/-- Without an item both read nothing. -/
theorem alike_nothing {s t : Stream} {result : Except Error (List α)} {bound bound' c' : Nat}
    (ho : opens s.current = none) (h : outcome (manyWithin opens item bound) s = (result, t)) :
    ∃ pre, s.rest = pre ++ t.rest ∧ ∀ rest : List Token, rest.headD .endOfInput = t.current →
      (pre ++ rest).length < c' →
      outcome (manyWithin opens item' bound') ⟨pre ++ rest, s.parameters⟩ =
        (result, ⟨rest, t.parameters⟩) := by
  rw [outcome_manyWithin_none ho] at h
  cases h
  refine ⟨[], rfl, fun rest hrest _ => ?_⟩
  exact outcome_manyWithin_none (by rwa [List.nil_append, Stream.current, hrest]) bound'

/-- The bounds do not show, since each item takes a token. -/
theorem alike_manyWithin (he : opens .endOfInput = none)
    (hi : ∀ {tok how}, opens tok = some how → Alike d d' (item how) (item' how))
    (bound bound' : Nat) :
    Alike (min d (bound + 1)) (min d' (bound' + 1)) (manyWithin opens item bound)
      (manyWithin opens item' bound') := by
  induction bound generalizing bound' with
  | zero =>
    intro s result t hd h
    have hs : s.rest = [] := List.eq_nil_of_length_eq_zero (by omega)
    have ho : opens s.current = none := by rwa [Stream.current, hs]
    exact alike_nothing ho h
  | succ bound ih =>
    intro s result t hd h
    rcases ho : opens s.current with _ | how
    · exact alike_nothing ho h
    obtain ⟨_ | ⟨tok, more⟩, n⟩ := s
    · exact absurd (he.symm.trans ho) (by simp)
    rw [outcome_manyWithin_some ho] at h
    have hd : more.length + 1 < min d (bound + 1 + 1) := hd
    have hbody := ((hi ho).mono (Nat.min_le_left d (bound + 1)) (Nat.min_le_left d' (bound' - 1 + 1))).bind
      fun first => (ih (bound' - 1)).bind fun as => alike_pure (first :: as)
    obtain ⟨pre, hpre, hmore⟩ := hbody (s := ⟨more, n⟩) (show more.length < _ by omega) h
    have hpre : more = pre ++ t.rest := hpre
    refine ⟨tok :: pre, by rw [hpre]; rfl, fun rest hrest hd' => ?_⟩
    have hd' : (pre ++ rest).length + 1 < min d' (bound' + 1) := hd'
    obtain ⟨b, rfl⟩ : ∃ b, bound' = b + 1 := ⟨bound' - 1, by omega⟩
    show outcome (manyWithin opens item' (b + 1)) ⟨tok :: (pre ++ rest), n⟩ = _
    rw [outcome_manyWithin_some (s := ⟨tok :: (pre ++ rest), n⟩) ho]
    exact hmore rest hrest (show (pre ++ rest).length < min d' (b + 1) by omega)

theorem alike_many (he : opens .endOfInput = none)
    (hi : ∀ {tok how}, opens tok = some how → Alike d d' (item how) (item' how)) :
    Alike d d' (many opens item) (many opens item') :=
  alike_of_bounded fun bound bound' => alike_manyWithin he hi bound bound'

theorem alike_separatedBy (m : Mark) (hr : Alike d d' r r') :
    Alike d d' (separatedBy m r) (separatedBy m r') := by
  refine hr.bind fun first => ?_
  refine Alike.bind ?_ fun as => alike_pure (first :: as)
  exact alike_many (by simp) fun _ => hr

theorem alike_parenthesized (hr : Alike d d' r r') :
    Alike d d' (parenthesized r) (parenthesized r') := by
  refine (alike_expectMark .leftParen).bind fun _ => ?_
  refine alike_look fun next => .inl ?_
  split
  · exact (alike_pure []).bind fun as => (alike_expectMark .rightParen).bind fun _ => alike_pure as
  · exact (alike_separatedBy .comma hr).bind fun as =>
      (alike_expectMark .rightParen).bind fun _ => alike_pure as

end Many

/-! ## Expressions -/

section Expressions

variable {d d' : Nat} {nested nested' operand operand' : Reader Expr}

/-- Behind a parenthesis one token fewer is left. -/
theorem alike_atom (hn : Alike d d' nested nested') :
    Alike (d + 1) (d' + 1) (atom nested) (atom nested') := by
  refine alike_look fun next => ?_
  cases next with
  | integer n => exact .inr ⟨Token.noConfusion, _, _, rfl, rfl, alike_pure _⟩
  | double x => exact .inr ⟨Token.noConfusion, _, _, rfl, rfl, alike_pure _⟩
  | text s => exact .inr ⟨Token.noConfusion, _, _, rfl, rfl, alike_pure _⟩
  | identifier name =>
    refine .inr ⟨Token.noConfusion, _, _, rfl, rfl, alike_choice Token.noConfusion ?_ (alike_pure _)⟩
    exact alike_identifier.map fun field => Expr.field (Name.qualified name field)
  | mark m =>
    cases m with
    | question =>
      exact .inr ⟨Token.noConfusion, _, _, rfl, rfl, alike_freshParameter.map Expr.parameter⟩
    | leftParen =>
      refine .inr ⟨Token.noConfusion, _, _, rfl, rfl, hn.bind fun e => ?_⟩
      exact (alike_expectMark .rightParen).bind fun _ => alike_pure e
    | _ => exact .inl (alike_fail _)
  | keyword | endOfInput => exact .inl (alike_fail _)

theorem current_of_reads_minusSigns {s t : Stream} {signs : Nat} (h : Reads minusSigns s signs t) :
    t.current ≠ .mark .minus := by
  cases h
  have hhead := List.head?_dropWhile_not (fun t => decide (t = Token.mark .minus)) s.rest
  rcases hrest : s.rest.dropWhile fun t => decide (t = Token.mark .minus) with _ | ⟨tok, rest⟩
  · simp [Stream.current]
  · rw [hrest] at hhead
    simpa [Stream.current, hrest] using hhead

theorem alike_minusSigns : Alike d d' minusSigns minusSigns := by
  intro s result t _ h
  obtain ⟨signs, rfl⟩ : ∃ signs, result = .ok signs := by
    cases h
    exact ⟨_, rfl⟩
  obtain rfl := reads_minusSigns h
  refine ⟨List.replicate signs (.mark .minus), rfl, fun rest hrest _ => ?_⟩
  refine reads_minusSigns_replicate fun hminus => current_of_reads_minusSigns h ?_
  obtain ⟨more, rfl⟩ := List.head?_eq_some_iff.mp hminus
  exact hrest.symm

theorem alike_signed (hn : Alike d d' nested nested') :
    Alike (d + 1) (d' + 1) (signed nested) (signed nested') :=
  alike_minusSigns.bind fun signs => (alike_atom hn).map (Nat.repeat .negate signs)

theorem alike_power (hn : Alike d d' nested nested') :
    Alike (d + 1) (d' + 1) (power nested) (power nested') := by
  refine (alike_separatedBy .caret (alike_signed hn)).bind fun as => ?_
  cases as with
  | nil => exact alike_fail .expression
  | cons base exponents => exact alike_pure (tower base exponents)

theorem alike_leftChain {op? : Token → Option BinaryOp} (he : op? .endOfInput = none)
    (ho : Alike d d' operand operand') : Alike d d' (leftChain op? operand) (leftChain op? operand') :=
  ho.bind fun first => (alike_many he fun {_ op} _ => ho.map fun e => (op, e)).bind fun rest =>
    alike_pure (chain first rest)

theorem alike_sum (hn : Alike d d' nested nested') :
    Alike (d + 1) (d' + 1) (sum nested) (sum nested') :=
  alike_leftChain rfl (alike_leftChain rfl (alike_power hn))

theorem alike_exprWithin (d d' : Nat) : Alike d d' (exprWithin d) (exprWithin d') := by
  induction d generalizing d' with
  | zero => exact fun _ _ _ hd => absurd hd (Nat.not_lt_zero _)
  | succ d ih =>
    cases d' with
    | zero =>
      intro s result t hd h
      obtain ⟨pre, hpre, -⟩ := alike_sum (ih d) hd h
      exact ⟨pre, hpre, fun _ _ hd' => absurd hd' (Nat.not_lt_zero _)⟩
    | succ d' => exact alike_sum (ih d')

theorem alike_expr : Alike d d' expr expr :=
  alike_of_bounded fun bound bound' => (alike_exprWithin (bound + 1) (bound' + 1)).mono
    (Nat.min_le_right _ _) (Nat.min_le_right _ _)

end Expressions

/-! ## Clauses -/

section Clauses

variable {d d' : Nat}

/-- An item of a select list that is an expression. -/
def exprItem : Reader SelectItem := return .expr (← expr) (← identifierAfter? .AS)

theorem alike_exprItem : Alike d d' exprItem exprItem :=
  alike_expr.bind fun e => (alike_identifierAfter? .AS).map (SelectItem.expr e)

/-- What `name.*` would be as an expression. -/
theorem outcome_exprItem_star (name : String) (rest : List Token) (n : Nat) :
    outcome exprItem ⟨.identifier name :: .mark .dot :: .mark .asterisk :: rest, n⟩ =
      (.error (.unexpectedToken (.mark .asterisk) .identifier), ⟨.mark .asterisk :: rest, n⟩) := rfl

theorem outcome_selectItem {s : Stream} (hall : s.current ≠ .mark .asterisk)
    (hallOf : ∀ name rest, s.rest ≠ .identifier name :: .mark .dot :: .mark .asterisk :: rest) :
    outcome selectItem s = outcome exprItem s := by
  have hnot : outcome (accept (.mark .asterisk)) s = (.ok false, s) :=
    reads_accept_false.mpr ⟨hall, rfl⟩
  unfold selectItem
  rw [outcome_bind, hnot]
  show outcome (get >>= _) s = _
  rw [outcome_bind, show outcome get s = (.ok s, s) from rfl]
  dsimp only
  split
  · rename_i h
    exact absurd h (hallOf _ _)
  · rfl

/-- The three tokens of `name.*` are looked at together, but no expression stops within them. -/
theorem alike_selectItem : Alike d d' selectItem selectItem := by
  intro s result t hd h
  by_cases hall : s.current = .mark .asterisk
  · obtain ⟨_ | ⟨tok, rest⟩, n⟩ := s
    · cases hall
    obtain rfl : tok = .mark .asterisk := hall
    cases h
    exact ⟨[.mark .asterisk], rfl, fun _ _ _ => rfl⟩
  by_cases hallOf : ∃ name rest, s.rest = .identifier name :: .mark .dot :: .mark .asterisk :: rest
  · obtain ⟨name, rest, hs⟩ := hallOf
    obtain ⟨_, n⟩ := s
    obtain rfl := hs
    cases h
    exact ⟨[.identifier name, .mark .dot, .mark .asterisk], rfl, fun _ _ _ => rfl⟩
  · have hallOf : ∀ name rest, s.rest ≠ .identifier name :: .mark .dot :: .mark .asterisk :: rest :=
      fun name rest hs => hallOf ⟨name, rest, hs⟩
    rw [outcome_selectItem hall hallOf] at h
    obtain ⟨pre, hpre, hmore⟩ := alike_exprItem hd h
    refine ⟨pre, hpre, fun rest hrest hd' => ?_⟩
    have hread := hmore rest hrest hd'
    rw [← hread]
    refine outcome_selectItem ?_ fun name more hstar => ?_
    · rwa [Stream.current, headD_append hpre hrest]
    · rw [show pre ++ rest = _ from hstar, outcome_exprItem_star] at hread
      obtain rfl : Token.mark .asterisk :: more = rest := congrArg (fun p => p.2.rest) hread
      obtain rfl : pre = [.identifier name, .mark .dot] := List.append_cancel_right hstar
      obtain ⟨_ | ⟨tok, left⟩, n⟩ := t
      · cases hrest
      · obtain rfl : Token.mark .asterisk = tok := hrest
        exact hallOf name left hpre

theorem alike_source : Alike d d' source source := by
  refine alike_identifier.bind fun relation => (alike_identifierAfter? .AS).bind fun name? => ?_
  cases name? with
  | some name => exact alike_pure _
  | none =>
    refine alike_look fun next => ?_
    cases next with
    | identifier name => exact .inr ⟨Token.noConfusion, _, _, rfl, rfl, alike_pure _⟩
    | _ => exact .inl (alike_pure _)

theorem alike_select : Alike d d' select select := by
  refine (alike_separatedBy .comma alike_selectItem).bind fun items => ?_
  refine alike_choice Token.noConfusion ?_ (alike_pure _)
  exact (alike_separatedBy .comma alike_source).map fun sources => Select.mk items (some sources)

theorem alike_columnOption {tok : Token} {how : Reader ColumnOption}
    (h : columnOption? tok = some how) : Alike d d' how how := by
  unfold columnOption? at h
  split at h <;> cases h
  · exact alike_expr.map ColumnOption.default
  · exact (alike_expectKeyword .KEY).bind fun _ => alike_pure _
  · exact alike_pure _
  · exact (alike_takeOf rfl .string).map ColumnOption.comment

theorem alike_columnDef : Alike d d' columnDef columnDef := by
  refine alike_identifier.bind fun name => alike_identifier.bind fun type => ?_
  exact (alike_many rfl alike_columnOption).bind fun options => alike_pure _

theorem alike_createTable : Alike d d' createTable createTable := by
  refine (alike_expectKeyword .TABLE).bind fun _ => (alike_accept Token.noConfusion).bind fun b => ?_
  have htable : Alike d d' (do return ⟨← identifier, b, ← parenthesized columnDef⟩ : Reader CreateTable)
      (do return ⟨← identifier, b, ← parenthesized columnDef⟩) :=
    alike_identifier.bind fun table =>
      (alike_parenthesized alike_columnDef).map (CreateTable.mk table b)
  cases b with
  | true =>
    exact (alike_expectKeyword .NOT).bind fun _ => (alike_expectKeyword .EXISTS).bind fun _ => htable
  | false => exact htable

theorem alike_valueRow : Alike d d' valueRow valueRow :=
  (alike_expectMark .leftParen).bind fun _ => (alike_separatedBy .comma alike_expr).bind fun values =>
    (alike_expectMark .rightParen).bind fun _ => alike_pure values

theorem alike_insert : Alike d d' insert insert :=
  (alike_expectKeyword .INTO).bind fun _ => alike_identifier.bind fun table =>
    (alike_parenthesized alike_identifier).bind fun columns =>
      (alike_expectKeyword .VALUES).bind fun _ =>
        (alike_separatedBy .comma alike_valueRow).map (Insert.mk table columns)

theorem alike_bareStatement : Alike d d' bareStatement bareStatement := by
  refine alike_choice Token.noConfusion (alike_select.map _) ?_
  refine alike_choice Token.noConfusion ((alike_takeOf rfl .tables).bind fun _ => alike_pure _) ?_
  refine alike_choice Token.noConfusion (alike_createTable.map _) ?_
  exact alike_choice Token.noConfusion (alike_insert.map _) (alike_fail _)

end Clauses

end PullSql.Sql.Reader
