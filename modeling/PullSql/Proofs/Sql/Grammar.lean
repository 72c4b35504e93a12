import Mathlib.Data.List.Forall2
import PullSql.Sql.Reader.Statement

/-!
# The grammar of statements

What token lists mean, as a grammar and without any reading. A phrase relates tokens to the tree that
they derive. Placeholders are numbered in the order of the tokens, so a phrase also says at which
number it starts and which number comes next.

* `ExprPhrase` is an expression of a level of precedence.
* `StatementPhrase` is a statement, `Whole` a statement with its optional semicolon.
-/

namespace PullSql.Sql.Grammar

open Reader (ColumnOption)

/-- What tokens mean: `P n ts a m` says that the tokens `ts` derive `a`, placeholders being numbered
from `n` on, and that `m` is the next number behind them. -/
abbrev Phrase (α : Type) := Nat → List Token → α → Nat → Prop

variable {α : Type}

/-! ## Repetition -/

/-- Any number of phrases, `{P}`. -/
inductive Many (P : Phrase α) : Phrase (List α)
  | nil {n} : Many P n [] [] n
  | cons {n k m ts us a as} (ha : P n ts a k) (has : Many P k us as m) :
      Many P n (ts ++ us) (a :: as) m

/-- At least one phrase, with a mark between any two, `P {sep P}`. -/
inductive Separated (sep : Mark) (P : Phrase α) : Phrase (List α)
  | one {n m ts a} (ha : P n ts a m) : Separated sep P n ts [a] m
  | cons {n k m ts us a as} (ha : P n ts a k) (has : Separated sep P k us as m) :
      Separated sep P n (ts ++ .mark sep :: us) (a :: as) m

/-- A list in parentheses, which may be empty, `( [P {, P}] )`. -/
inductive Parenthesized (P : Phrase α) : Phrase (List α)
  | empty {n} : Parenthesized P n [.mark .leftParen, .mark .rightParen] [] n
  | items {n m ts as} (has : Separated .comma P n ts as m) :
      Parenthesized P n (.mark .leftParen :: ts ++ [.mark .rightParen]) as m

/-! ## Expressions -/

/-- The levels of precedence, the loosest first. -/
inductive Level where
  | sum | product | power | sign | atom
  deriving DecidableEq, Repr

/-- The level that binds next tighter. -/
def Level.next : Level → Level
  | sum => product
  | product => power
  | power => sign
  | sign => atom
  | atom => atom

/-- The operators that group to the left, with their levels. -/
inductive LeftOp : Level → Mark → BinaryOp → Prop
  | add : LeftOp .sum .plus .add
  | sub : LeftOp .sum .minus .sub
  | mul : LeftOp .product .asterisk .mul
  | div : LeftOp .product .slash .div

/-- An expression of a level. An operator that groups to the left has its own level on the left and
the next one on the right; `^` groups to the right. -/
inductive ExprPhrase : Level → Phrase Expr
  | left {level mark op n k m ts us a b} (hop : LeftOp level mark op)
      (ha : ExprPhrase level n ts a k) (hb : ExprPhrase level.next k us b m) :
      ExprPhrase level n (ts ++ .mark mark :: us) (.binary op a b) m
  | pow {n k m ts us a b} (ha : ExprPhrase .sign n ts a k) (hb : ExprPhrase .power k us b m) :
      ExprPhrase .power n (ts ++ .mark .caret :: us) (.binary .pow a b) m
  | negate {n m ts a} (ha : ExprPhrase .sign n ts a m) :
      ExprPhrase .sign n (.mark .minus :: ts) (.negate a) m
  | tighter {level n m ts a} (hl : level ≠ .atom) (ha : ExprPhrase level.next n ts a m) :
      ExprPhrase level n ts a m
  | integer {n} (i : Int64) : ExprPhrase .atom n [.integer i] (.number (.ofInt i.toInt)) n
  | double {n} (d : Double) : ExprPhrase .atom n [.double d] (.number d) n
  | text {n} (s : String) : ExprPhrase .atom n [.text s] (.text s) n
  | parameter {n} : ExprPhrase .atom n [.mark .question] (.parameter n) (n + 1)
  | field {n} (name : String) : ExprPhrase .atom n [.identifier name] (.field name) n
  | qualified {n} (qualifier name : String) :
      ExprPhrase .atom n [.identifier qualifier, .mark .dot, .identifier name]
        (.field (qualifier ++ "." ++ name)) n
  | parens {n m ts a} (ha : ExprPhrase .sum n ts a m) :
      ExprPhrase .atom n (.mark .leftParen :: ts ++ [.mark .rightParen]) a m

/-! ## Queries -/

/-- An item of a select list, `*`, `name.*` or `expr [AS name]`. -/
inductive ItemPhrase : Phrase SelectItem
  | all {n} : ItemPhrase n [.mark .asterisk] .all n
  | allOf {n} (name : String) :
      ItemPhrase n [.identifier name, .mark .dot, .mark .asterisk] (.allOf name) n
  | bare {n m ts e} (he : ExprPhrase .sum n ts e m) : ItemPhrase n ts (.expr e none) m
  | named {n m ts e} (he : ExprPhrase .sum n ts e m) (name : String) :
      ItemPhrase n (ts ++ [.keyword .AS, .identifier name]) (.expr e (some name)) m

/-- An entry of a FROM list, `name [[AS] name]`. -/
inductive SourcePhrase : Phrase Source
  | bare {n} (relation : String) : SourcePhrase n [.identifier relation] ⟨relation, none⟩ n
  | named {n} (relation name : String) :
      SourcePhrase n [.identifier relation, .identifier name] ⟨relation, some name⟩ n
  | namedAs {n} (relation name : String) :
      SourcePhrase n [.identifier relation, .keyword .AS, .identifier name]
        ⟨relation, some name⟩ n

/-- A query, `SELECT item {, item} [FROM source {, source}]`. -/
inductive SelectPhrase : Phrase Select
  | bare {n m ts items} (hi : Separated .comma ItemPhrase n ts items m) :
      SelectPhrase n (.keyword .SELECT :: ts) ⟨items, none⟩ m
  | from {n k m ts us items sources} (hi : Separated .comma ItemPhrase n ts items k)
      (hs : Separated .comma SourcePhrase k us sources m) :
      SelectPhrase n (.keyword .SELECT :: ts ++ .keyword .FROM :: us) ⟨items, some sources⟩ m

/-! ## Definitions -/

/-- An option of a column, `DEFAULT expr`, `PRIMARY KEY`, `AUTO_INCREMENT` or `COMMENT text`. -/
inductive OptionPhrase : Phrase ColumnOption
  | default {n m ts e} (he : ExprPhrase .sum n ts e m) :
      OptionPhrase n (.keyword .DEFAULT :: ts) (.default e) m
  | primaryKey {n} : OptionPhrase n [.keyword .PRIMARY, .keyword .KEY] .primaryKey n
  | autoIncrement {n} : OptionPhrase n [.keyword .AUTO_INCREMENT] .autoIncrement n
  | comment {n} (s : String) : OptionPhrase n [.keyword .COMMENT, .text s] (.comment s) n

/-- The column that options make: the last DEFAULT and the last COMMENT count. -/
def columnOf (name type : String) (options : List ColumnOption) : ColumnDef where
  name := name
  type := type
  default? := (options.filterMap fun | .default e => some e | _ => none).getLast?
  primaryKey := options.any fun | .primaryKey => true | _ => false
  autoIncrement := options.any fun | .autoIncrement => true | _ => false
  comment? := (options.filterMap fun | .comment s => some s | _ => none).getLast?

/-- A column, `name type {option}`. -/
inductive ColumnPhrase : Phrase ColumnDef
  | column {n m ts options} (name type : String) (ho : Many OptionPhrase n ts options m) :
      ColumnPhrase n (.identifier name :: .identifier type :: ts) (columnOf name type options) m

/-- A definition, `CREATE TABLE [IF NOT EXISTS] name ( [column {, column}] )`. -/
inductive CreatePhrase : Phrase CreateTable
  | always {n m ts columns} (table : String) (hc : Parenthesized ColumnPhrase n ts columns m) :
      CreatePhrase n (.keyword .CREATE :: .keyword .TABLE :: .identifier table :: ts)
        ⟨table, false, columns⟩ m
  | ifNotExists {n m ts columns} (table : String)
      (hc : Parenthesized ColumnPhrase n ts columns m) :
      CreatePhrase n
        (.keyword .CREATE :: .keyword .TABLE :: .keyword .IF :: .keyword .NOT ::
          .keyword .EXISTS :: .identifier table :: ts)
        ⟨table, true, columns⟩ m

/-! ## Insertions -/

/-- A name alone. -/
inductive NamePhrase : Phrase String
  | name {n} (name : String) : NamePhrase n [.identifier name] name n

/-- A row of values, `( expr {, expr} )`. -/
inductive RowPhrase : Phrase (List Expr)
  | row {n m ts values} (hv : Separated .comma (ExprPhrase .sum) n ts values m) :
      RowPhrase n (.mark .leftParen :: ts ++ [.mark .rightParen]) values m

/-- An insertion, `INSERT INTO name ( [name {, name}] ) VALUES row {, row}`. -/
inductive InsertPhrase : Phrase Insert
  | insert {n k m ts us columns rows} (table : String)
      (hc : Parenthesized NamePhrase n ts columns k) (hr : Separated .comma RowPhrase k us rows m) :
      InsertPhrase n
        (.keyword .INSERT :: .keyword .INTO :: .identifier table :: ts ++ .keyword .VALUES :: us)
        ⟨table, columns, rows⟩ m

/-! ## Statements -/

/-- Whether a word is TABLES up to the case of its ASCII letters. -/
def IsTables (word : String) : Prop :=
  List.Forall₂ (fun c letter => c = letter ∨ c = letter.toLower) word.toList "TABLES".toList

/-- A statement without what may stand behind it. -/
inductive StatementPhrase : Phrase Statement
  | select {n m ts query} (h : SelectPhrase n ts query m) : StatementPhrase n ts (.select query) m
  | showTables {n word} (h : IsTables word) :
      StatementPhrase n [.keyword .SHOW, .identifier word] .showTables n
  | createTable {n m ts definition} (h : CreatePhrase n ts definition m) :
      StatementPhrase n ts (.createTable definition) m
  | insert {n m ts insertion} (h : InsertPhrase n ts insertion m) :
      StatementPhrase n ts (.insert insertion) m

/-- The tokens in front of the end of the input derive a statement: one statement and perhaps a
semicolon, placeholders being numbered from zero on. -/
def Whole (ts : List Token) (s : Statement) : Prop :=
  ∃ us m, StatementPhrase 0 us s m ∧ (ts = us ∨ ts = us ++ [.mark .semicolon])

/-! ## No phrase holds the end of the input -/

/-- A phrase that the end of the input is no part of. -/
def NoEnd (P : Phrase α) : Prop := ∀ {n ts a m}, P n ts a m → Token.endOfInput ∉ ts

section NoEnd

variable {P : Phrase α}

theorem noEnd_many (hP : NoEnd P) : NoEnd (Many P) := by
  intro n ts as m h
  induction h with
  | nil => exact List.not_mem_nil
  | cons ha _ ih => simp [hP ha, ih]

theorem noEnd_separated (hP : NoEnd P) (sep : Mark) : NoEnd (Separated sep P) := by
  intro n ts as m h
  induction h with
  | one ha => exact hP ha
  | cons ha _ ih => simp [hP ha, ih]

theorem noEnd_parenthesized (hP : NoEnd P) : NoEnd (Parenthesized P) := by
  intro n ts as m h
  cases h with
  | empty => simp
  | items has => simp [noEnd_separated hP .comma has]

theorem noEnd_exprPhrase (level : Level) : NoEnd (ExprPhrase level) := by
  intro n ts e m h
  induction h with
  | left hop _ _ iha ihb => simp [iha, ihb]
  | pow _ _ iha ihb => simp [iha, ihb]
  | negate _ ih => simp [ih]
  | tighter _ _ ih => exact ih
  | parens _ ih => simp [ih]
  | integer | double | text | parameter | field | qualified => simp

theorem noEnd_itemPhrase : NoEnd ItemPhrase := by
  intro n ts item m h
  cases h with
  | all | allOf => simp
  | bare he => exact noEnd_exprPhrase .sum he
  | named he => simp [noEnd_exprPhrase .sum he]

theorem noEnd_sourcePhrase : NoEnd SourcePhrase := by
  intro n ts source m h
  cases h <;> simp

theorem noEnd_selectPhrase : NoEnd SelectPhrase := by
  intro n ts query m h
  cases h with
  | bare hi => simp [noEnd_separated noEnd_itemPhrase .comma hi]
  | «from» hi hs =>
    simp [noEnd_separated noEnd_itemPhrase .comma hi, noEnd_separated noEnd_sourcePhrase .comma hs]

theorem noEnd_optionPhrase : NoEnd OptionPhrase := by
  intro n ts option m h
  cases h with
  | default he => simp [noEnd_exprPhrase .sum he]
  | primaryKey | autoIncrement | comment => simp

theorem noEnd_columnPhrase : NoEnd ColumnPhrase := by
  intro n ts column m h
  cases h with
  | column name type ho => simp [noEnd_many noEnd_optionPhrase ho]

theorem noEnd_createPhrase : NoEnd CreatePhrase := by
  intro n ts definition m h
  cases h with
  | always table hc => simp [noEnd_parenthesized noEnd_columnPhrase hc]
  | ifNotExists table hc => simp [noEnd_parenthesized noEnd_columnPhrase hc]

theorem noEnd_namePhrase : NoEnd NamePhrase := by
  intro n ts name m h
  cases h
  simp

theorem noEnd_rowPhrase : NoEnd RowPhrase := by
  intro n ts values m h
  cases h with
  | row hv => simp [noEnd_separated (noEnd_exprPhrase .sum) .comma hv]

theorem noEnd_insertPhrase : NoEnd InsertPhrase := by
  intro n ts insertion m h
  cases h with
  | insert table hc hr =>
    simp [noEnd_parenthesized noEnd_namePhrase hc, noEnd_separated noEnd_rowPhrase .comma hr]

theorem noEnd_statementPhrase : NoEnd StatementPhrase := by
  intro n ts s m h
  cases h with
  | select h => exact noEnd_selectPhrase h
  | showTables => simp
  | createTable h => exact noEnd_createPhrase h
  | insert h => exact noEnd_insertPhrase h

end NoEnd

end PullSql.Sql.Grammar
