import PullSql.Name
import PullSql.Sql.Reader

/-!
# Reading expressions

`+` and `-` bind loosest, then `*` and `/`, then `^`, then the prefix minus. The first two levels
group to the left and `^` groups to the right. Each level is a reader built from the one below it, and
parentheses lead back to the first.
-/

namespace PullSql.Sql.Reader

/-! ## Atoms and signs -/

/-- Takes the number of the next placeholder. -/
def freshParameter : Reader Nat :=
  modifyGet fun s => (s.parameters, { s with parameters := s.parameters + 1 })

/-- Reads an expression without operators; `nested` reads what stands in parentheses. -/
def atom (nested : Reader Expr) : Reader Expr := do
  match ← current with
  | .integer n =>
    advance
    return .number (.ofInt n.toInt)
  | .double d =>
    advance
    return .number d
  | .text s =>
    advance
    return .text s
  | .mark .question =>
    advance
    return .parameter (← freshParameter)
  | .mark .leftParen =>
    advance
    let e ← nested
    expectMark .rightParen
    return e
  | .identifier name =>
    advance
    if ← accept (.mark .dot) then return .field (Name.qualified name (← identifier))
    else return .field name
  | _ => fail .expression

/-- Takes the minus signs at the front and counts them. -/
def minusSigns : Reader Nat :=
  modifyGet fun s =>
    let isMinus := fun t => decide (t = Token.mark .minus)
    ((s.rest.takeWhile isMinus).length, { s with rest := s.rest.dropWhile isMinus })

/-- Reads an atom behind any number of minus signs. -/
def signed (nested : Reader Expr) : Reader Expr := do
  let signs ← minusSigns
  return Nat.repeat .negate signs (← atom nested)

/-! ## Operators -/

/-- A tower of powers, grouped to the right. -/
def tower (base : Expr) : List Expr → Expr
  | [] => base
  | exponent :: rest => .binary .pow base (tower exponent rest)

/-- Reads signed atoms between `^`. -/
def power (nested : Reader Expr) : Reader Expr := do
  match ← separatedBy .caret (signed nested) with
  | base :: exponents => return tower base exponents
  | [] => fail .expression

/-- Reads operands between operators of one level, grouped to the left. -/
def leftChain (op? : Token → Option BinaryOp) (operand : Reader Expr) : Reader Expr := do
  let first ← operand
  let rest ← many op? fun op => return (op, ← operand)
  return rest.foldl (fun left (op, right) => .binary op left right) first

/-- The operators that multiply and divide. -/
def productOp? : Token → Option BinaryOp
  | .mark .asterisk => some .mul
  | .mark .slash => some .div
  | _ => none

/-- The operators that add and subtract. -/
def sumOp? : Token → Option BinaryOp
  | .mark .plus => some .add
  | .mark .minus => some .sub
  | _ => none

/-- Reads an expression of all levels. -/
def sum (nested : Reader Expr) : Reader Expr :=
  leftChain sumOp? (leftChain productOp? (power nested))

/-- Reads an expression with at most `depth` levels of parentheses open at once. -/
def exprWithin : Nat → Reader Expr
  | 0 => fail .expression
  | depth + 1 => sum (exprWithin depth)

/-- Reads an expression. Every open parenthesis is a token, so the tokens left bound their depth. -/
def expr : Reader Expr := do exprWithin ((← get).rest.length + 1)

end PullSql.Sql.Reader
