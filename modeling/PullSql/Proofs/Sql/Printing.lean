import PullSql.Proofs.Double.Whole
import PullSql.Proofs.Sql.Scanning
import PullSql.Proofs.Sql.Statements

/-!
# Printing expressions

How expressions are written, from how tightly their operators bind and without any grammar.

1. `Prints` relates an expression to its tokens. Parentheses stand around every operand that binds too
   loosely for its place, and any number of them may stand around every expression.
2. The tokens derive the expression at the level of their place (`exprPhrase_of_prints`).
3. `Printable` says which expressions have a text (`printable_iff_exists_written`).

Main statement: `ofText_of_prints`.
-/

namespace PullSql.Sql.Printing

open Grammar (Level ExprPhrase)
open Spelling

/-! ## How tightly operators bind -/

/-- The sides of an operator. -/
inductive Side where
  | left | right
  deriving DecidableEq, Repr

/-- How tightly an operator binds. -/
def strength : BinaryOp → Nat
  | .add | .sub => 0
  | .mul | .div => 1
  | .pow => 2

/-- How tightly the prefix minus binds, which is tighter than all operators between operands. -/
def signStrength : Nat := 3

/-- The side to which operators that bind alike group. -/
def grouping : BinaryOp → Side
  | .add | .sub | .mul | .div => .left
  | .pow => .right

/-- How tightly an operand has to bind to need no parentheses. -/
def operandStrength (op : BinaryOp) (side : Side) : Nat :=
  if side = grouping op then strength op else strength op + 1

/-- The mark of an operator. -/
def mark : BinaryOp → Mark
  | .add => .plus
  | .sub => .minus
  | .mul => .asterisk
  | .div => .slash
  | .pow => .caret

/-! ## Texts of expressions -/

/-- `Prints b e ts` says that the tokens `ts` are a text of the expression `e` in a place where
operators that bind less tightly than `b` need parentheses. -/
inductive Prints : Nat → Expr → List Token → Prop
  | number {b d n} (hn : n < 2 ^ 53) (hd : Double.IsNat d n) :
      Prints b (.number d) [.integer (.ofNat n)]
  | text {b} (s : String) : Prints b (.text s) [.text s]
  | field {b} (name : String) : Prints b (.field name) [.identifier name]
  | parameter {b} (index : Nat) : Prints b (.parameter index) [.mark .question]
  | negate {b e ts} (hb : b ≤ signStrength) (he : Prints signStrength e ts) :
      Prints b (.negate e) (.mark .minus :: ts)
  | binary {b op l r ts us} (hb : b ≤ strength op) (hl : Prints (operandStrength op .left) l ts)
      (hr : Prints (operandStrength op .right) r us) :
      Prints b (.binary op l r) (ts ++ .mark (mark op) :: us)
  | parens {b e ts} (he : Prints 0 e ts) :
      Prints b e (.mark .leftParen :: ts ++ [.mark .rightParen])

/-- The numbers of the placeholders of an expression, from left to right. -/
def parameters : Expr → List Nat
  | .number _ | .text _ | .field _ => []
  | .parameter index => [index]
  | .negate e => parameters e
  | .binary _ l r => parameters l ++ parameters r

/-- The placeholders are numbered from zero in the order of the text. -/
def Numbered (e : Expr) : Prop := parameters e = List.range (parameters e).length

/-- An expression that has a text: its numbers are natural numbers below 2 ^ 53 and no text of it has
a backslash at its end. -/
def Printable : Expr → Prop
  | .number d => ∃ n < 2 ^ 53, Double.IsNat d n
  | .text s => s.toList.getLast? ≠ some '\\'
  | .field _ | .parameter _ => True
  | .negate e => Printable e
  | .binary _ l r => Printable l ∧ Printable r

/-! ## Derivations -/

/-- The level of the expressions that need no parentheses. -/
def level : Nat → Level
  | 0 => .sum
  | b + 1 => (level b).next

theorem level_add_four (b : Nat) : level (b + 4) = .atom := by
  simp only [level]
  cases level b <;> rfl

section Derivations

variable {n m : Nat} {ts : List Token} {e : Expr}

theorem exprPhrase_of_le {b c : Nat} (hb : b ≤ c) (h : ExprPhrase (level c) n ts e m) :
    ExprPhrase (level b) n ts e m := by
  induction hb with
  | refl => exact h
  | @step c _ ih =>
    refine ih ?_
    by_cases hc : level c = .atom
    · rw [level, hc] at h
      rwa [hc]
    · exact .tighter hc h

theorem exprPhrase_of_atom (b : Nat) (h : ExprPhrase .atom n ts e m) :
    ExprPhrase (level b) n ts e m := by
  rw [← level_add_four b] at h
  exact exprPhrase_of_le (Nat.le_add_right b 4) h

theorem exprPhrase_binary {k : Nat} {us : List Token} {l r : Expr} (op : BinaryOp)
    (hl : ExprPhrase (level (operandStrength op .left)) n ts l k)
    (hr : ExprPhrase (level (operandStrength op .right)) k us r m) :
    ExprPhrase (level (strength op)) n (ts ++ .mark (mark op) :: us) (.binary op l r) m := by
  cases op with
  | add => exact .left .add hl hr
  | sub => exact .left .sub hl hr
  | mul => exact .left .mul hl hr
  | div => exact .left .div hl hr
  | pow => exact .pow hl hr

/-- An integer token below 2 ^ 53 derives the number that it stands for. -/
theorem exprPhrase_integer {i : Nat} {d : Double} (hi : i < 2 ^ 53) (hd : d.IsNat i) :
    ExprPhrase .atom n [.integer (.ofNat i)] (.number d) n := by
  have hint : (Int64.ofNat i).toInt = i := Int64.toInt_ofNat_of_lt (by omega)
  obtain rfl := (Double.isNat_iff hi d).mp hd
  have h := ExprPhrase.integer (n := n) (.ofNat i)
  rwa [hint] at h

end Derivations

/-- A text of an expression derives it. The induction is over the text, and each part of the
expression has the placeholders that follow those in front of it. -/
theorem exprPhrase_of_prints {b : Nat} {e : Expr} {ts : List Token} (h : Prints b e ts) {n k : Nat}
    (hk : parameters e = List.range' n k) : ExprPhrase (level b) n ts e (n + k) := by
  induction h generalizing n k with
  | number hi hd =>
    obtain rfl : k = 0 := List.range'_eq_nil_iff.mp hk.symm
    exact exprPhrase_of_atom _ (exprPhrase_integer hi hd)
  | text s =>
    obtain rfl : k = 0 := List.range'_eq_nil_iff.mp hk.symm
    exact exprPhrase_of_atom _ (.text s)
  | field name =>
    obtain rfl : k = 0 := List.range'_eq_nil_iff.mp hk.symm
    exact exprPhrase_of_atom _ (.field name)
  | parameter index =>
    obtain ⟨rfl, rfl⟩ := List.range'_eq_singleton_iff.mp hk.symm
    exact exprPhrase_of_atom _ .parameter
  | negate hb _ ih => exact exprPhrase_of_le hb (.negate (ih hk))
  | @binary b op l r ts us hb _ _ ihl ihr =>
    have hk : parameters l ++ parameters r = List.range' n k := hk
    obtain ⟨j, hj, hl, hr⟩ := List.range'_eq_append_iff.mp hk.symm
    rw [Nat.mul_one] at hr
    have h := exprPhrase_binary op (ihl hl) (ihr hr)
    have hm : n + j + (k - j) = n + k := by omega
    rw [hm] at h
    exact exprPhrase_of_le hb h
  | parens _ ih => exact exprPhrase_of_atom _ (.parens (ih hk))

/-! ## What can be printed -/

theorem forall_writable_iff_of_prints {b : Nat} {e : Expr} {ts : List Token} (h : Prints b e ts) :
    (∀ t ∈ ts, Writable t) ↔ Printable e := by
  induction h with
  | @number b d n hn hd =>
    have hint : Writable (.integer (.ofNat n)) := by
      rw [Writable, Int64.toInt_ofNat_of_lt (by omega)]
      exact Int.natCast_nonneg n
    exact iff_of_true (List.forall_mem_singleton.mpr hint) ⟨n, hn, hd⟩
  | text s | field name => exact List.forall_mem_singleton
  | parameter index => exact List.forall_mem_singleton
  | negate _ _ ih => simpa [Printable] using ih
  | binary _ _ _ ihl ihr => simp [Printable, or_imp, forall_and, ihl, ihr]
  | parens _ ih => simpa [or_imp, forall_and] using ih

theorem exists_prints_of_printable {e : Expr} (h : Printable e) (b : Nat) : ∃ ts, Prints b e ts := by
  induction e generalizing b with
  | number d =>
    obtain ⟨n, hn, hd⟩ := h
    exact ⟨_, .number hn hd⟩
  | text s => exact ⟨_, .text s⟩
  | field name => exact ⟨_, .field name⟩
  | parameter index => exact ⟨_, .parameter index⟩
  | negate e ih =>
    obtain ⟨ts, hts⟩ := ih h signStrength
    exact ⟨_, .parens (.negate (Nat.zero_le _) hts)⟩
  | binary op l r ihl ihr =>
    obtain ⟨ts, hts⟩ := ihl h.1 (operandStrength op .left)
    obtain ⟨us, hus⟩ := ihr h.2 (operandStrength op .right)
    exact ⟨_, .parens (.binary (Nat.zero_le _) hts hus)⟩

theorem printable_iff_exists_written (e : Expr) :
    Printable e ↔ ∃ ts text, Prints 0 e ts ∧ Written (.keyword .SELECT :: ts) text := by
  constructor
  · intro h
    obtain ⟨ts, hts⟩ := exists_prints_of_printable h 0
    have hwritable := (forall_writable_iff_of_prints hts).mpr h
    obtain ⟨text, htext⟩ := (forall_writable_iff_exists_written (.keyword .SELECT :: ts)).mp
      (List.forall_mem_cons.mpr ⟨trivial, hwritable⟩)
    exact ⟨ts, text, hts, htext⟩
  · rintro ⟨ts, text, hts, htext⟩
    have hwritable := (forall_writable_iff_exists_written _).mpr ⟨text, htext⟩
    exact (forall_writable_iff_of_prints hts).mp (List.forall_mem_cons.mp hwritable).2

/-! ## Reading what was printed -/

theorem whole_of_prints {e : Expr} {ts : List Token} (hn : Numbered e) (h : Prints 0 e ts) :
    Grammar.Whole (.keyword .SELECT :: ts) (.select ⟨[.expr e none], none⟩) := by
  have hk : parameters e = List.range' 0 (parameters e).length := by
    rw [← List.range_eq_range']
    exact hn
  have he := exprPhrase_of_prints h hk
  exact ⟨_, _, .select (.bare (.one (.bare he))), .inl rfl⟩

theorem ofText_of_whole {sql : String} {ts : List Token} {s : Statement}
    (ht : tokens sql = .ok (ts ++ [.endOfInput])) (h : Grammar.Whole ts s) :
    Statement.ofText sql = .ok s := by
  have hend : Token.endOfInput ∉ ts := by
    obtain ⟨us, m, hs, rfl | rfl⟩ := h
    · exact Grammar.noEnd_statementPhrase hs
    · simp [Grammar.noEnd_statementPhrase hs]
  obtain ⟨t, hread⟩ := (Reader.reads_statement_iff_whole hend s).mpr h
  have hstatement : (Stream.readStatement ⟨ts ++ [.endOfInput], 0⟩).1 = .ok s :=
    congrArg Prod.fst hread
  rw [Statement.ofText, Stream.ofText, ht]
  exact hstatement

/-- **Printing and reading agree.** An expression has a text exactly when it is printable, and each
text of it behind SELECT, with any parentheses, quotes and separators, is read as that expression. -/
theorem ofText_of_prints :
    (∀ e, Printable e ↔
      ∃ ts text, Prints 0 e ts ∧ Written (.keyword .SELECT :: ts) text) ∧
    ∀ e ts text, Numbered e → Prints 0 e ts → Written (.keyword .SELECT :: ts) text →
      Statement.ofText (String.ofList text) = .ok (.select ⟨[.expr e none], none⟩) := by
  refine ⟨printable_iff_exists_written, ?_⟩
  rintro e ts _ hn hts ⟨front, body, back, rfl, hbody, hf, hb⟩
  exact ofText_of_whole (tokens_of_spaced hbody hf hb) (whole_of_prints hn hts)

/-- A tower of powers in a difference, two signs in a row and parentheses that could be left out. -/
theorem ofText_of_prints_of_product :
    let tower : Expr :=
      .binary .pow (.parameter 0) (.binary .pow (.field "a\"b") (.number (.ofInt 20)))
    let e : Expr := .binary .div
      (.binary .mul (.binary .sub (.number (.ofInt 1)) tower) (.negate (.negate (.parameter 1))))
      (.negate (.text "it's"))
    let ts : List Token := [.mark .leftParen, .integer 1, .mark .minus, .mark .question, .mark .caret,
      .identifier "a\"b", .mark .caret, .integer 20, .mark .rightParen, .mark .asterisk, .mark .minus,
      .mark .minus, .mark .leftParen, .mark .question, .mark .rightParen, .mark .slash, .mark .minus,
      .text "it's"]
    let text := "SELECT ( 1 - ? ^ \"a\"\"b\" ^ 20 ) * - --\n- ( ? ) / - 'it\\'s'".toList
    Numbered e ∧ Prints 0 e ts ∧ Written (.keyword .SELECT :: ts) text ∧
      Statement.ofText (String.ofList text) = .ok (.select ⟨[.expr e none], none⟩) := by
  intro tower e ts text
  have hnumbered : Numbered e := by
    unfold Numbered
    decide
  have hprints : Prints 0 e ts := by
    have hone : Double.IsNat (.ofInt 1) 1 := Double.isNat_ofInt (by decide)
    have htwenty : Double.IsNat (.ofInt 20) 20 := Double.isNat_ofInt (by decide)
    have htower : Prints (operandStrength .sub .right) tower _ := .binary (by decide) (.parameter 0)
      (.binary (by decide) (.field "a\"b") (.number (by decide) htwenty))
    have hdifference :
        Prints (operandStrength .mul .left) (.binary .sub (.number (.ofInt 1)) tower) _ :=
      .parens (.binary (by decide) (.number (by decide) hone) htower)
    have hsigns : Prints (operandStrength .mul .right) (.negate (.negate (.parameter 1))) _ :=
      .negate (by decide) (.negate (by decide) (.parens (.parameter 1)))
    have hproduct : Prints (operandStrength .div .left) (.binary .mul _ _) _ :=
      .binary (by decide) hdifference hsigns
    have htext : Prints (operandStrength .div .right) (.negate (.text "it's")) _ :=
      .negate (by decide) (.text "it's")
    exact .binary (Nat.zero_le _) hproduct htext
  have hwritten : Written (.keyword .SELECT :: ts) text := by
    have hspace := separator_blank
    have hcomment : Separator " --\n".toList := separator_lineComment List.not_mem_nil
    have hselect : Spells (.keyword .SELECT) "SELECT".toList :=
      .keyword (inSomeCase_self _)
    have htext : Spells (.text "it's") "'it\\'s'".toList := spells_text (by decide)
    have hproduct := Spaced.cons (.mark .rightParen) hspace (.cons (.mark .asterisk) hspace
      (.cons (.mark .minus) hcomment (.cons (.mark .minus) hspace (.cons (.mark .leftParen) hspace
        (.cons (.mark .question) hspace (.cons (.mark .rightParen) hspace (.cons (.mark .slash) hspace
          (.cons (.mark .minus) hspace (.one htext)))))))))
    have hdifference := Spaced.cons (.mark .leftParen) hspace
      (.cons (.integer (n := 1) (by decide)) hspace (.cons (.mark .minus) hspace
        (.cons (.mark .question) hspace (.cons (.mark .caret) hspace
          (.cons (.quoted "a\"b" (.inl rfl)) hspace (.cons (.mark .caret) hspace
            (.cons (.integer (n := 20) (by decide)) hspace hproduct)))))))
    exact ⟨[], _, [], by decide, .cons hselect hspace hdifference, .inl rfl, .inl rfl⟩
  exact ⟨hnumbered, hprints, hwritten, ofText_of_prints.2 e ts text hnumbered hprints hwritten⟩

end PullSql.Sql.Printing
