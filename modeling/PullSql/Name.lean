import PullSql.Text.Upper

/-!
# Names

Relations, fields and aliases are named by any text. Two names mean the same thing when their
upper-case forms are equal, and a dot sets a qualifier apart from the name it qualifies.
-/

namespace PullSql.Name

/-- Whether two names mean the same, letter case ignored. -/
def same (a b : String) : Bool := a == b || Text.upper a == Text.upper b

/-- The name of a field under an alias, `alias.name`. -/
def qualified (qualifier name : String) : String := qualifier ++ "." ++ name

/-- Whether a name has a qualifier, that is, a dot. -/
def isQualified (name : String) : Bool := name.toList.contains '.'

theorem same_iff {a b : String} : same a b = true ↔ Text.upper a = Text.upper b := by
  simp only [same, Bool.or_eq_true, beq_iff_eq, or_iff_right_iff_imp]
  exact congrArg Text.upper

theorem same_refl (a : String) : same a a = true := same_iff.mpr rfl

end PullSql.Name
