import PullSql.Proofs.Sql.Reading

/-!
# Reading expressions

The reader of expressions takes what `ExprPhrase` derives and builds its tree. The grammar recurs on
the left of an operator where the reader goes on to the right, so each level is first brought into the
shape in which it is read:

1. a signed atom is a number of minus signs and an atom (`sign_shape`);
2. a power is a list of signed atoms between `^` (`power_shape`);
3. a sum or a product is an operand and a list of operators with their operands (`chain_shape`).

Main statements: `sound_expr` and `complete_expr`.
-/

namespace PullSql.Sql

open Grammar Reader

/-! ## Shapes of expressions -/

namespace Grammar

variable {n k m : Nat} {ts us vs : List Token} {e a : Expr}

/-- A signed atom is a number of minus signs and an atom. -/
theorem sign_shape (h : ExprPhrase .sign n ts e m) :
    ∃ signs us a, ts = List.replicate signs (.mark .minus) ++ us ∧ e = Nat.repeat .negate signs a ∧
      ExprPhrase .atom n us a m := by
  generalize hl : Level.sign = level at h
  induction h with
  | left hop => subst hl; cases hop
  | negate _ ih =>
    obtain ⟨signs, us, a, rfl, rfl, ha⟩ := ih rfl
    exact ⟨signs + 1, us, a, rfl, rfl, ha⟩
  | tighter _ ha =>
    subst hl
    exact ⟨0, _, _, rfl, rfl, ha⟩
  | pow | integer | double | text | parameter | field | qualified | parens => cases hl

theorem signed_of_atom (h : ExprPhrase .atom n us a m) (signs : Nat) :
    ExprPhrase .sign n (List.replicate signs (.mark .minus) ++ us) (Nat.repeat .negate signs a) m := by
  induction signs with
  | zero => exact .tighter (by decide) h
  | succ signs ih => exact .negate ih

/-- A power is a list of signed atoms between `^`. -/
theorem power_shape (h : ExprPhrase .power n ts e m) :
    ∃ base exponents, Separated .caret (ExprPhrase .sign) n ts (base :: exponents) m ∧
      e = tower base exponents := by
  generalize hl : Level.power = level at h
  induction h with
  | left hop => subst hl; cases hop
  | pow ha _ _ ihb =>
    obtain ⟨base, exponents, hs, rfl⟩ := ihb rfl
    exact ⟨_, _, .cons ha hs, rfl⟩
  | tighter _ ha =>
    subst hl
    exact ⟨_, [], .one ha, rfl⟩
  | negate | integer | double | text | parameter | field | qualified | parens => cases hl

theorem power_of_separated {base : Expr} {exponents : List Expr}
    (h : Separated .caret (ExprPhrase .sign) n ts (base :: exponents) m) :
    ExprPhrase .power n ts (tower base exponents) m := by
  generalize has : base :: exponents = as at h
  induction h generalizing base exponents with
  | one ha =>
    cases has
    exact .tighter (by decide) ha
  | @cons _ _ _ _ _ _ as ha hs ih =>
    cases has
    cases as with
    | nil => cases hs
    | cons exponent rest => exact .pow ha (ih rfl)

/-- An operator of a level with the operand behind it. -/
def OperandPhrase (level : Level) : Phrase (BinaryOp × Expr) :=
  fun n ts p m => ∃ mark us, ts = .mark mark :: us ∧ LeftOp level mark p.1 ∧
    ExprPhrase level.next n us p.2 m

/-- An operand with the operators and operands behind it, grouped to the left. -/
def chain (first : Expr) (rest : List (BinaryOp × Expr)) : Expr :=
  rest.foldl (fun left (op, right) => .binary op left right) first

section Chain

variable {level : Level} {rest : List (BinaryOp × Expr)}

theorem chain_of_many (ha : ExprPhrase level n us a k)
    (h : Many (OperandPhrase level) k vs rest m) :
    ExprPhrase level n (us ++ vs) (chain a rest) m := by
  induction h generalizing n us a with
  | nil => simpa [chain] using ha
  | @cons _ _ _ _ _ p _ hb _ ih =>
    obtain ⟨op, b⟩ := p
    obtain ⟨mark, ts, rfl, hop, hb⟩ := hb
    rw [← List.append_assoc]
    exact ih (.left hop ha hb)

theorem many_snoc {α : Type} {P : Phrase α} {as : List α} {x : α} (h : Many P n ts as k)
    (hx : P k us x m) : Many P n (ts ++ us) (as ++ [x]) m := by
  induction h with
  | nil => simpa using Many.cons hx .nil
  | cons ha _ ih => simpa using Many.cons ha (ih hx)

/-- A sum or a product is an operand and the operators with their operands behind it. The left
operand of the last operator is the chain in front of it. -/
theorem chain_shape (hl : level = .sum ∨ level = .product) (h : ExprPhrase level n ts e m) :
    ∃ us vs k a rest, ts = us ++ vs ∧ e = chain a rest ∧ ExprPhrase level.next n us a k ∧
      Many (OperandPhrase level) k vs rest m := by
  induction h with
  | @left level mark op _ _ _ _ _ _ b hop _ hb iha _ =>
    obtain ⟨us, vs, k, a, rest, rfl, rfl, ha, hr⟩ := iha hl
    have hp : OperandPhrase level _ _ (op, b) _ := ⟨mark, _, rfl, hop, hb⟩
    refine ⟨us, _, k, a, rest ++ [(op, b)], List.append_assoc .., ?_, ha, many_snoc hr hp⟩
    simp [chain]
  | tighter _ ha => exact ⟨_, [], _, _, [], by simp, rfl, ha, .nil⟩
  | pow | negate | integer | double | text | parameter | field | qualified | parens =>
    simp at hl

end Chain

end Grammar

namespace Reader

variable {nested operand : Reader Expr} {level : Level} {op? : Token → Option BinaryOp}

/-! ## Soundness -/

theorem sound_atom (hn : Sound nested (ExprPhrase .sum)) :
    Sound (atom nested) (ExprPhrase .atom) := by
  intro s e t h
  obtain ⟨_ | ⟨tok, rest⟩, n⟩ := s
  · cases h
  cases tok with
  | integer i =>
    cases h
    exact ⟨[_], rfl, .integer i⟩
  | double d =>
    cases h
    exact ⟨[_], rfl, .double d⟩
  | text s =>
    cases h
    exact ⟨[_], rfl, .text s⟩
  | identifier name =>
    have h1 := reads_current_bind.mp h
    have h2 := reads_advance_bind.mp h1
    rcases (reads_choice Token.noConfusion).mp h2 with ⟨u, hu, h3⟩ | ⟨-, h3⟩
    · obtain ⟨field, hf, rfl⟩ := reads_map.mp h3
      obtain rfl := reads_identifier.mp hf
      cases hu
      exact ⟨[_, _, _], rfl, .qualified name field⟩
    · obtain ⟨rfl, rfl⟩ := reads_pure.mp h3
      exact ⟨[_], rfl, .field name⟩
  | mark mark =>
    cases mark with
    | question =>
      cases h
      exact ⟨[_], rfl, .parameter⟩
    | leftParen =>
      obtain ⟨a, u, ha, h⟩ := reads_bind.mp (reads_advance_bind.mp (reads_current_bind.mp h))
      obtain ⟨_, v, hv, h⟩ := reads_bind.mp h
      obtain ⟨rfl, rfl⟩ := reads_pure.mp h
      obtain rfl := (reads_expect Token.noConfusion).mp hv
      obtain ⟨ts, hts, ha⟩ := hn ha
      obtain rfl : rest = _ := hts
      have hp := ExprPhrase.parens ha
      exact ⟨_, by simp, hp⟩
    | _ => cases h
  | keyword | endOfInput => cases h

theorem reads_minusSigns {s t : Stream} {signs : Nat} (h : Reads minusSigns s signs t) :
    s = ⟨List.replicate signs (.mark .minus) ++ t.rest, t.parameters⟩ := by
  obtain ⟨rest, n⟩ := s
  cases h
  have hsigns : rest.takeWhile (fun t => decide (t = .mark .minus)) =
      List.replicate (rest.takeWhile fun t => decide (t = .mark .minus)).length (.mark .minus) :=
    List.eq_replicate_iff.mpr ⟨rfl, fun tok h =>
      of_decide_eq_true (List.all_eq_true.mp List.all_takeWhile tok h)⟩
  rw [← hsigns, List.takeWhile_append_dropWhile]

theorem sound_signed (hn : Sound nested (ExprPhrase .sum)) :
    Sound (signed nested) (ExprPhrase .sign) := by
  intro s e t h
  obtain ⟨signs, u, hu, h⟩ := reads_bind.mp h
  obtain ⟨a, ha, rfl⟩ := reads_map.mp h
  obtain rfl := reads_minusSigns hu
  obtain ⟨ts, hts, ha⟩ := sound_atom hn ha
  exact ⟨_, by rw [hts, List.append_assoc], signed_of_atom ha signs⟩

theorem sound_power (hn : Sound nested (ExprPhrase .sum)) :
    Sound (power nested) (ExprPhrase .power) := by
  intro s e t h
  obtain ⟨as, u, has, h⟩ := reads_bind.mp h
  obtain ⟨ts, hts, hs⟩ := sound_separatedBy (sound_signed hn) has
  cases as with
  | nil => cases hs
  | cons base exponents =>
    obtain ⟨rfl, rfl⟩ := reads_pure.mp h
    exact ⟨ts, hts, power_of_separated hs⟩

/-- The tokens that a reader takes for the operators of a level are these operators. -/
def ReadsOps (level : Level) (op? : Token → Option BinaryOp) : Prop :=
  ∀ {tok op}, op? tok = some op ↔ ∃ mark, tok = .mark mark ∧ LeftOp level mark op

theorem readsOps_product : ReadsOps .product productOp? := by
  intro tok op
  constructor
  · intro h
    unfold productOp? at h
    split at h <;> cases h
    · exact ⟨.asterisk, rfl, .mul⟩
    · exact ⟨.slash, rfl, .div⟩
  · rintro ⟨_, rfl, _ | _⟩ <;> rfl

theorem readsOps_sum : ReadsOps .sum sumOp? := by
  intro tok op
  constructor
  · intro h
    unfold sumOp? at h
    split at h <;> cases h
    · exact ⟨.plus, rfl, .add⟩
    · exact ⟨.minus, rfl, .sub⟩
  · rintro ⟨_, rfl, _ | _⟩ <;> rfl

theorem sound_operand (hop : ReadsOps level op?) (ho : Sound operand (ExprPhrase level.next))
    {tok : Token} {op : BinaryOp} (htok : op? tok = some op) :
    Sound (do return (op, ← operand)) (After tok (OperandPhrase level)) := by
  intro s p t h
  obtain ⟨b, hb, rfl⟩ := reads_map.mp h
  obtain ⟨ts, hts, hb⟩ := ho hb
  obtain ⟨mark, rfl, hl⟩ := hop.mp htok
  exact ⟨ts, hts, mark, ts, rfl, hl, hb⟩

theorem sound_leftChain (hop : ReadsOps level op?) (hl : level ≠ .atom)
    (ho : Sound operand (ExprPhrase level.next)) :
    Sound (leftChain op? operand) (ExprPhrase level) := by
  intro s e t h
  obtain ⟨a, u, ha, h⟩ := reads_bind.mp h
  obtain ⟨rest, v, hrest, h⟩ := reads_bind.mp h
  obtain ⟨rfl, rfl⟩ := reads_pure.mp h
  have hend : op? .endOfInput = none := by
    rcases hend : op? .endOfInput with _ | op
    · rfl
    · obtain ⟨mark, hmark, -⟩ := hop.mp hend
      cases hmark
  obtain ⟨ts, hts, ha⟩ := ho ha
  obtain ⟨us, hus, hrest⟩ := sound_many hend (sound_operand hop ho) hrest
  refine ⟨ts ++ us, by rw [hts, hus, List.append_assoc], ?_⟩
  exact chain_of_many (.tighter hl ha) hrest

theorem sound_exprWithin (depth : Nat) : Sound (exprWithin depth) (ExprPhrase .sum) := by
  induction depth with
  | zero => exact fun h => absurd h not_reads_fail
  | succ depth ih =>
    exact sound_leftChain readsOps_sum (by decide)
      (sound_leftChain readsOps_product (by decide) (sound_power ih))

theorem sound_expr : Sound expr (ExprPhrase .sum) := by
  intro s e t h
  obtain ⟨u, v, hu, h⟩ := reads_bind.mp h
  obtain ⟨rfl, rfl⟩ := reads_get.mp hu
  exact sound_exprWithin _ h

/-! ## Completeness -/

/-- The marks with which an expression of a level could go on. -/
def continues : Level → List Mark
  | .sum => [.plus, .minus, .asterisk, .slash, .caret, .dot]
  | .product => [.asterisk, .slash, .caret, .dot]
  | .power => [.caret, .dot]
  | .sign | .atom => [.dot]

/-- Behind such a token an expression of a level is at its end. -/
def Stops (level : Level) (tok : Token) : Prop := ∀ mark ∈ continues level, tok ≠ .mark mark

instance (level : Level) : DecidablePred (Stops level) := fun tok =>
  inferInstanceAs (Decidable (∀ mark ∈ continues level, tok ≠ .mark mark))

variable {d : Nat}

theorem complete_atom (hn : Complete d nested (ExprPhrase .sum) (Stops .sum)) :
    Complete (d + 1) (atom nested) (ExprPhrase .atom) (Stops .atom) := by
  intro n ts e m h hd rest hr
  cases h with
  | left hop => cases hop
  | tighter hl => exact absurd rfl hl
  | integer | double | text | parameter | qualified => rfl
  | field name =>
    have hdot : Stream.current ⟨rest, n⟩ ≠ .mark .dot := hr .dot (by decide)
    refine reads_current_bind.mpr (reads_advance_bind.mpr (reads_bind.mpr ⟨false, ⟨rest, n⟩, ?_, ?_⟩))
    · exact reads_accept_false.mpr ⟨hdot, rfl⟩
    · exact reads_pure.mpr ⟨rfl, rfl⟩
  | @parens _ _ ts _ ha =>
    have hlen : ts.length < d := by
      simp only [List.length_append, List.length_cons] at hd
      omega
    refine reads_current_bind.mpr (reads_advance_bind.mpr (reads_bind.mpr ?_))
    refine ⟨e, ⟨.mark .rightParen :: rest, m⟩, ?_, ?_⟩
    · show Reads nested ⟨ts ++ [.mark .rightParen] ++ rest, n⟩ _ _
      have hstop : Stops .sum (.mark .rightParen) := by decide
      rw [List.append_assoc]
      exact hn ha hlen (.mark .rightParen :: rest) hstop
    · exact reads_bind.mpr ⟨(), ⟨rest, m⟩, (reads_expect Token.noConfusion).mpr rfl,
        reads_pure.mpr ⟨rfl, rfl⟩⟩

theorem reads_minusSigns_replicate {n signs : Nat} {rest : List Token}
    (h : rest.head? ≠ some (.mark .minus)) :
    Reads minusSigns ⟨List.replicate signs (.mark .minus) ++ rest, n⟩ signs ⟨rest, n⟩ := by
  have hminus : ∀ tok ∈ List.replicate signs (Token.mark .minus),
      decide (tok = Token.mark .minus) = true := by
    intro tok ht
    exact decide_eq_true (List.eq_of_mem_replicate ht)
  have hrest : rest.takeWhile (fun t => decide (t = .mark .minus)) = [] ∧
      rest.dropWhile (fun t => decide (t = .mark .minus)) = rest := by
    cases rest with
    | nil => exact ⟨rfl, rfl⟩
    | cons tok rest =>
      have htok : tok ≠ .mark .minus := fun e => h (congrArg some e)
      simp [htok]
  show (Except.ok ((_ ++ rest).takeWhile _).length, Stream.mk ((_ ++ rest).dropWhile _) n) = _
  rw [List.takeWhile_append_of_pos hminus, List.dropWhile_append_of_pos hminus, hrest.1, hrest.2,
    List.append_nil, List.length_replicate]

theorem complete_signed (hn : Complete d nested (ExprPhrase .sum) (Stops .sum)) :
    Complete (d + 1) (signed nested) (ExprPhrase .sign) (Stops .sign) := by
  intro n ts e m h hd rest hr
  obtain ⟨signs, us, a, rfl, rfl, ha⟩ := sign_shape h
  rw [List.length_append] at hd
  rw [List.append_assoc]
  refine reads_bind.mpr ⟨signs, ⟨us ++ rest, n⟩, ?_, ?_⟩
  · apply reads_minusSigns_replicate
    cases ha with
    | left hop => cases hop
    | tighter hl => exact absurd rfl hl
    | _ => simp
  · exact reads_map.mpr ⟨a, complete_atom hn ha (by omega) rest hr, rfl⟩

theorem complete_power (hn : Complete d nested (ExprPhrase .sum) (Stops .sum)) :
    Complete (d + 1) (power nested) (ExprPhrase .power) (Stops .power) := by
  intro n ts e m h hd rest hr
  obtain ⟨base, exponents, hs, rfl⟩ := power_shape h
  have hcaret : Stops .sign (.mark .caret) := by decide
  have hstop : Stops .sign (rest.headD .endOfInput) := fun mark hm =>
    hr mark (List.mem_cons_of_mem _ hm)
  refine reads_bind.mpr ⟨base :: exponents, ⟨rest, m⟩, ?_, reads_pure.mpr ⟨rfl, rfl⟩⟩
  exact complete_separatedBy (complete_signed hn) hcaret hs hd rest
    ⟨hr .caret (by decide), hstop⟩

theorem stops_next_of_leftOp {mark : Mark} {op : BinaryOp} (h : LeftOp level mark op) :
    Stops level.next (.mark mark) := by
  cases h <;> decide

theorem mem_continues_of_leftOp {mark : Mark} {op : BinaryOp} (h : LeftOp level mark op) :
    mark ∈ continues level := by
  cases h <;> decide

theorem Stops.next {tok : Token} (h : Stops level tok) : Stops level.next tok := by
  have hsub : continues level.next ⊆ continues level := by cases level <;> decide
  exact fun mark hm => h mark (hsub hm)

theorem complete_operand (hop : ReadsOps level op?)
    (ho : Complete d operand (ExprPhrase level.next) (Stops level.next)) {tok : Token}
    {op : BinaryOp} (htok : op? tok = some op) :
    Complete d (do return (op, ← operand)) (After tok (OperandPhrase level)) (Stops level.next) := by
  rintro n ts ⟨op', b⟩ m ⟨mark, us, hts, hl, hb⟩ hd rest hr
  obtain ⟨rfl, rfl⟩ := List.cons.inj hts
  obtain rfl : op = op' := Option.some.inj (htok.symm.trans (hop.mpr ⟨mark, rfl, hl⟩))
  exact reads_map.mpr ⟨b, ho hb hd rest hr, rfl⟩

theorem complete_leftChain (hop : ReadsOps level op?) (hl : level = .sum ∨ level = .product)
    (ho : Complete d operand (ExprPhrase level.next) (Stops level.next)) :
    Complete d (leftChain op? operand) (ExprPhrase level) (Stops level) := by
  intro n ts e m h hd rest hr
  obtain ⟨us, vs, k, a, bs, rfl, rfl, ha, hbs⟩ := chain_shape hl h
  have hP : OpenedBy op? (OperandPhrase level) := by
    rintro n ts p m ⟨mark, us, rfl, hl, -⟩
    exact ⟨.mark mark, p.1, us, rfl, hop.mpr ⟨mark, rfl, hl⟩⟩
  have hG : ∀ {tok op}, op? tok = some op → Stops level.next tok := by
    intro tok op h
    obtain ⟨mark, rfl, hl⟩ := hop.mp h
    exact stops_next_of_leftOp hl
  have hend : op? (rest.headD .endOfInput) = none := by
    rcases hrest : op? (rest.headD .endOfInput) with _ | op
    · rfl
    · obtain ⟨mark, htok, hl⟩ := hop.mp hrest
      exact absurd htok (hr mark (mem_continues_of_leftOp hl))
  rw [List.length_append] at hd
  rw [List.append_assoc]
  refine reads_bind.mpr ⟨a, ⟨vs ++ rest, k⟩, ?_, ?_⟩
  · exact ho ha (by omega) _ (headD_of_many hP hG hbs hr.next)
  · refine reads_bind.mpr ⟨bs, ⟨rest, m⟩, ?_, reads_pure.mpr ⟨rfl, rfl⟩⟩
    exact complete_many hP hG (complete_operand hop ho) hbs (by omega) rest ⟨hend, hr.next⟩

theorem complete_exprWithin (depth : Nat) :
    Complete depth (exprWithin depth) (ExprPhrase .sum) (Stops .sum) := by
  induction depth with
  | zero => exact fun _ hd => absurd hd (Nat.not_lt_zero _)
  | succ depth ih =>
    exact complete_leftChain readsOps_sum (.inl rfl)
      (complete_leftChain readsOps_product (.inr rfl) (complete_power ih))

/-- The tokens left bound the open parentheses, so the bound on the tokens is gone. -/
theorem complete_expr : Complete d expr (ExprPhrase .sum) (Stops .sum) := by
  intro n ts e m h _ rest hr
  refine reads_bind.mpr ⟨_, _, reads_get.mpr ⟨rfl, rfl⟩, complete_exprWithin _ h ?_ rest hr⟩
  simp only [List.length_append]
  omega

end Reader

end PullSql.Sql
