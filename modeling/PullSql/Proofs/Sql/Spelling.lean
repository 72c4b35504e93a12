import Mathlib.Data.List.Forall2
import PullSql.Sql.Scanner

/-!
# The spelling of tokens

How tokens are written, as rules and without any scanning. A token has many spellings, and there are
many ways to set tokens apart.

* `Spells` relates a token to its spellings, `Writable` says which tokens have one
  (`writable_iff_exists_spells`).
* `Filler` and `Separator` are the blanks and comments between tokens.
* `Written` relates a list of tokens to the texts in which separators keep them apart. Tokens have one
  exactly when each of them is writable (`forall_writable_iff_exists_written`).
-/

namespace PullSql.Sql.Spelling

/-! ## Words and quotes -/

/-- A word in any mix of the cases of its letters, the word being in capitals. -/
def InSomeCase (word cs : List Char) : Prop :=
  List.Forall₂ (fun c letter => c = letter ∨ c = letter.toLower) cs word

/-- A letter followed by letters, digits and underscores. -/
def IsBare (name : List Char) : Prop :=
  ∃ c rest, name = c :: rest ∧ c.isAlpha = true ∧ ∀ d ∈ rest, d.isAlphanum = true ∨ d = '_'

/-- What stands between the quotes of a text literal. Each quote of the text is written behind a
backslash or another quote, and a backslash that stands for itself is not in front of a quote. -/
inductive TextBody : List Char → List Char → Prop
  | nil : TextBody [] []
  | escaped {s body} (h : TextBody s body) : TextBody ('\'' :: s) ('\\' :: '\'' :: body)
  | doubled {s body} (h : TextBody s body) : TextBody ('\'' :: s) ('\'' :: '\'' :: body)
  | plain {c s body} (hc : c ≠ '\'') (hb : c = '\\' → ∃ d ∈ body.head?, d ≠ '\'')
      (h : TextBody s body) : TextBody (c :: s) (c :: body)

/-- A text with a backslash in front of each of its quotes. -/
def escapeQuotes (s : List Char) : List Char :=
  s.flatMap fun c => if c = '\'' then ['\\', '\''] else [c]

/-- A name with the given quote doubled. -/
def doubleQuotes (quote : Char) (name : List Char) : List Char :=
  name.flatMap fun c => if c = quote then [quote, quote] else [c]

/-! ## Tokens -/

/-- The ways to write a token. -/
inductive Spells : Token → List Char → Prop
  | keyword {k : Keyword} {cs} (h : InSomeCase k.text.toList cs) : Spells (.keyword k) cs
  | integer {n : Int64} (hn : 0 ≤ n.toInt) : Spells (.integer n) (Nat.toDigits 10 n.toInt.toNat)
  | text {s : String} {body} (h : TextBody s.toList body) :
      Spells (.text s) ('\'' :: body ++ ['\''])
  /-- A name that is no keyword may stand as it is. -/
  | bare {name : String} (h : IsBare name.toList)
      (hk : ∀ k : Keyword, ¬ InSomeCase k.text.toList name.toList) :
      Spells (.identifier name) name.toList
  | quoted (name : String) {quote : Char} (hq : quote = '"' ∨ quote = '\x60') :
      Spells (.identifier name) (quote :: doubleQuotes quote name.toList ++ [quote])
  | mark (m : Mark) : Spells (.mark m) [m.char]

/-- A token that can be written: no double, no negative integer, no text with a backslash at its end
and not the end of the input. -/
def Writable : Token → Prop
  | .keyword _ | .identifier _ | .mark _ => True
  | .integer n => 0 ≤ n.toInt
  | .text s => s.toList.getLast? ≠ some '\\'
  | .double _ | .endOfInput => False

@[simp] theorem writable_mark (m : Mark) : Writable (.mark m) := trivial

/-! ## Gaps -/

/-- Blanks and closed comments in any order. -/
inductive Filler : List Char → Prop
  | nil : Filler []
  | blank {c cs} (hc : Text.isBlank c = true) (h : Filler cs) : Filler (c :: cs)
  | line {body cs} (hb : '\n' ∉ body) (h : Filler cs) :
      Filler ('-' :: '-' :: body ++ '\n' :: cs)
  | block {body cs} (hb : ¬ ['*', '/'] <:+: body) (h : Filler cs) :
      Filler ('/' :: '*' :: body ++ '*' :: '/' :: cs)

/-- What sets tokens apart begins with a blank. -/
def Separator (gap : List Char) : Prop :=
  ∃ c rest, gap = c :: rest ∧ Text.isBlank c = true ∧ Filler rest

/-! ## Texts -/

/-- Spellings of tokens with a separator between any two. -/
inductive Spaced : List Token → List Char → Prop
  | nil : Spaced [] []
  | one {t cs} (ht : Spells t cs) : Spaced [t] cs
  | cons {t u ts cs gap rest} (ht : Spells t cs) (hg : Separator gap)
      (hr : Spaced (u :: ts) rest) : Spaced (t :: u :: ts) (cs ++ gap ++ rest)

/-- Tokens set apart, perhaps with a separator in front and one behind. -/
def Written (ts : List Token) (text : List Char) : Prop :=
  ∃ front body back, text = front ++ body ++ back ∧ Spaced ts body ∧
    (front = [] ∨ Separator front) ∧ (back = [] ∨ Separator back)

/-! ## What can be written -/

theorem textBody_escapeQuotes {s : List Char} (h : s.getLast? ≠ some '\\') :
    TextBody s (escapeQuotes s) := by
  induction s with
  | nil => exact .nil
  | cons c s ih =>
    have hs : s.getLast? ≠ some '\\' := by
      cases s with
      | nil => simp
      | cons d s => rwa [List.getLast?_cons_cons] at h
    by_cases hc : c = '\''
    · subst hc
      exact .escaped (ih hs)
    · have he : escapeQuotes (c :: s) = c :: escapeQuotes s := by simp [escapeQuotes, hc]
      rw [he]
      refine .plain hc ?_ (ih hs)
      rintro rfl
      cases s with
      | nil => exact absurd rfl h
      | cons d s =>
        by_cases hd : d = '\''
        · exact ⟨'\\', by simp [escapeQuotes, hd], by decide⟩
        · exact ⟨d, by simp [escapeQuotes, hd], hd⟩

theorem spells_text {s : String} (h : s.toList.getLast? ≠ some '\\') :
    Spells (.text s) ('\'' :: escapeQuotes s.toList ++ ['\'']) :=
  .text (textBody_escapeQuotes h)

theorem getLast?_of_textBody {s body : List Char} (h : TextBody s body) :
    s.getLast? ≠ some '\\' := by
  induction h with
  | nil => simp
  | @escaped s _ _ ih | @doubled s _ _ ih =>
    cases s with
    | nil => simp
    | cons d s => rwa [List.getLast?_cons_cons]
  | @plain c s body hc hb h ih =>
    cases s with
    | nil =>
      cases h
      rintro hl
      obtain rfl : c = '\\' := by simpa using hl
      obtain ⟨d, hd, -⟩ := hb rfl
      cases hd
    | cons d s => rwa [List.getLast?_cons_cons]

theorem inSomeCase_self (word : List Char) : InSomeCase word word :=
  List.forall₂_same.mpr fun _ _ => .inl rfl

theorem writable_iff_exists_spells (t : Token) : Writable t ↔ ∃ cs, Spells t cs := by
  constructor
  · intro h
    cases t with
    | keyword k => exact ⟨_, .keyword (inSomeCase_self _)⟩
    | integer n => exact ⟨_, .integer h⟩
    | text s => exact ⟨_, spells_text h⟩
    | identifier name => exact ⟨_, .quoted name (.inl rfl)⟩
    | mark m => exact ⟨_, .mark m⟩
    | double | endOfInput => exact h.elim
  · rintro ⟨cs, h⟩
    cases h with
    | keyword | bare | quoted | mark => trivial
    | integer hn => exact hn
    | text h => exact getLast?_of_textBody h

theorem separator_blank : Separator [' '] :=
  ⟨' ', [], rfl, rfl, .nil⟩

theorem separator_lineComment {body : List Char} (hb : '\n' ∉ body) :
    Separator (' ' :: '-' :: '-' :: body ++ ['\n']) :=
  ⟨' ', _, rfl, rfl, .line hb .nil⟩

theorem exists_spaced {ts : List Token} (h : ∀ t ∈ ts, Writable t) : ∃ body, Spaced ts body := by
  induction ts with
  | nil => exact ⟨[], .nil⟩
  | cons t ts ih =>
    obtain ⟨ht, hts⟩ := List.forall_mem_cons.mp h
    obtain ⟨cs, hcs⟩ := (writable_iff_exists_spells t).mp ht
    obtain ⟨body, hbody⟩ := ih hts
    cases ts with
    | nil => exact ⟨cs, .one hcs⟩
    | cons u ts => exact ⟨_, .cons hcs separator_blank hbody⟩

theorem forall_writable_of_spaced {ts : List Token} {body : List Char} (h : Spaced ts body) :
    ∀ t ∈ ts, Writable t := by
  induction h with
  | nil => simp
  | one ht => exact List.forall_mem_singleton.mpr ((writable_iff_exists_spells _).mpr ⟨_, ht⟩)
  | cons ht _ _ ih =>
    exact List.forall_mem_cons.mpr ⟨(writable_iff_exists_spells _).mpr ⟨_, ht⟩, ih⟩

/-- Tokens have a text exactly when each of them can be written. -/
theorem forall_writable_iff_exists_written (ts : List Token) :
    (∀ t ∈ ts, Writable t) ↔ ∃ text, Written ts text := by
  constructor
  · intro h
    obtain ⟨body, hbody⟩ := exists_spaced h
    exact ⟨_, [], body, [], rfl, hbody, .inl rfl, .inl rfl⟩
  · rintro ⟨_, _, body, _, -, hbody, -, -⟩
    exact forall_writable_of_spaced hbody

end PullSql.Sql.Spelling
