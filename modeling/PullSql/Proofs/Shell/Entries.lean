import Mathlib.Data.List.Basic
import PullSql.Shell

/-!
# Entries of a session

The lines of a session that are not blank fall into entries. A command is a line of its own, and a
statement runs up to the first line that ends in a semicolon.

1. The lines can be divided in exactly one way (`exists_divides`, `Divides.unique`). No entry begins
   another one, and none begins the lines of a statement that is still open.
2. A session answers its entries one after another, each by its own lines alone, up to one that quits
   (`run_eq`). The invariant of the loop is that the buffer holds the lines of a statement that is still
   open (`Waiting`).
-/

namespace PullSql.Shell

/-! ## Lines -/

/-- A line without the blanks at its ends. -/
def trimmed (line : String) : String := String.ofList (Text.trim line.toList)

/-- The lines that are not blank, trimmed. -/
def textLines (lines : List String) : List String := (lines.map trimmed).filter (· ≠ "")

/-- Such a line is a command, unless it stands inside a statement. -/
def OpensCommand (line : String) : Prop := line.toList.head? = some '.'

/-- Such a line ends a statement. -/
def EndsStatement (line : String) : Prop := line.toList.getLast? = some ';'

instance : DecidablePred OpensCommand := fun line =>
  inferInstanceAs (Decidable (line.toList.head? = some '.'))

instance : DecidablePred EndsStatement := fun line =>
  inferInstanceAs (Decidable (line.toList.getLast? = some ';'))

/-! ## Entries -/

/-- What a session answers at once. -/
inductive IsEntry : List String → Prop
  | command {line : String} (h : OpensCommand line) : IsEntry [line]
  | statement {lines : List String} {last : String}
      (hfirst : ∀ line ∈ (lines ++ [last]).head?, ¬ OpensCommand line)
      (hlines : ∀ line ∈ lines, ¬ EndsStatement line) (hlast : EndsStatement last) :
      IsEntry (lines ++ [last])

/-- The lines of a statement that is still open, or no lines at all. -/
structure Waiting (lines : List String) : Prop where
  first : ∀ line ∈ lines.head?, ¬ OpensCommand line
  lines : ∀ line ∈ lines, ¬ EndsStatement line

/-- The lines are those of the entries and then those of a statement that is still open. -/
structure Divides (lines : List String) (entries : List (List String)) (rest : List String) :
    Prop where
  eq : lines = entries.flatten ++ rest
  entries : ∀ entry ∈ entries, IsEntry entry
  rest : Waiting rest

theorem waiting_nil : Waiting [] := ⟨by simp, by simp⟩

theorem IsEntry.ne_nil {entry : List String} (h : IsEntry entry) : entry ≠ [] := by
  cases h <;> simp

/-- The line that ends an entry does not stand in front of the end of a statement. -/
theorem IsEntry.not_prefix_waiting {entry lines : List String} (h : IsEntry entry)
    (hw : Waiting lines) : ¬ entry <+: lines := by
  intro hp
  cases h with
  | command h =>
    obtain ⟨rest, rfl⟩ := hp
    exact hw.first _ rfl h
  | statement _ _ hlast => exact hw.lines _ (hp.subset (List.mem_concat_self)) hlast

theorem IsEntry.eq_of_prefix {entry entry' : List String} (h : IsEntry entry) (h' : IsEntry entry')
    (hp : entry <+: entry') : entry = entry' := by
  cases h' with
  | command =>
    rcases List.prefix_concat_iff.mp (show entry <+: [] ++ [_] from hp) with hp | hp
    · exact hp
    · exact absurd (List.prefix_nil.mp hp) h.ne_nil
  | @statement lines last hfirst hlines _ =>
    rcases List.prefix_concat_iff.mp hp with hp | hp
    · exact hp
    · refine absurd hp (h.not_prefix_waiting ⟨fun line hline => hfirst line ?_, hlines⟩)
      rw [List.head?_append, Option.mem_def.mp hline]
      rfl

/-- An entry at the front is the first entry of every division. -/
theorem Divides.uncons {entry lines rest : List String} {entries : List (List String)}
    (h : Divides (entry ++ lines) entries rest) (he : IsEntry entry) :
    ∃ entries', entries = entry :: entries' ∧ Divides lines entries' rest := by
  obtain ⟨heq, hentries, hrest⟩ := h
  cases entries with
  | nil =>
    have hp : entry <+: rest := ⟨lines, heq⟩
    exact absurd hp (he.not_prefix_waiting hrest)
  | cons first entries =>
    obtain ⟨hf, hmore⟩ := List.forall_mem_cons.mp hentries
    rw [List.flatten_cons, List.append_assoc] at heq
    obtain rfl : entry = first := by
      rcases List.prefix_or_prefix_of_prefix ⟨lines, heq⟩ ⟨_, rfl⟩ with hp | hp
      · exact he.eq_of_prefix hf hp
      · exact (hf.eq_of_prefix he hp).symm
    exact ⟨entries, rfl, List.append_cancel_left heq, hmore, hrest⟩

theorem Divides.unique {lines rest rest' : List String} {entries entries' : List (List String)}
    (h : Divides lines entries rest) (h' : Divides lines entries' rest') :
    entries = entries' ∧ rest = rest' := by
  induction entries generalizing lines entries' with
  | nil =>
    obtain rfl : lines = rest := h.eq
    cases entries' with
    | nil => exact ⟨rfl, h'.eq⟩
    | cons entry entries' =>
      have hp : entry <+: lines := by
        rw [h'.eq, List.flatten_cons, List.append_assoc]
        exact List.prefix_append _ _
      exact absurd hp ((h'.entries entry List.mem_cons_self).not_prefix_waiting h.rest)
  | cons entry entries ih =>
    obtain ⟨heq, hentries, hrest⟩ := h
    obtain ⟨he, hmore⟩ := List.forall_mem_cons.mp hentries
    rw [List.flatten_cons, List.append_assoc] at heq
    rw [heq] at h'
    obtain ⟨entries'', rfl, h''⟩ := h'.uncons he
    obtain ⟨rfl, rfl⟩ := ih ⟨rfl, hmore, hrest⟩ h''
    exact ⟨rfl, rfl⟩

theorem Divides.cons {entry lines rest : List String} {entries : List (List String)}
    (he : IsEntry entry) (h : Divides lines entries rest) :
    Divides (entry ++ lines) (entry :: entries) rest := by
  refine ⟨?_, List.forall_mem_cons.mpr ⟨he, h.entries⟩, h.rest⟩
  rw [List.flatten_cons, List.append_assoc, ← h.eq]

/-- One more line of a statement that is still open, which may be its first one. -/
theorem Waiting.head?_concat {pending : List String} {line : String} (hw : Waiting pending)
    (hc : ¬ (pending = [] ∧ OpensCommand line)) :
    ∀ first ∈ (pending ++ [line]).head?, ¬ OpensCommand first := by
  cases pending with
  | nil =>
    intro first hfirst h
    obtain rfl : line = first := Option.some.inj hfirst
    exact hc ⟨rfl, h⟩
  | cons first pending => exact hw.first

theorem Waiting.concat {pending : List String} {line : String} (hw : Waiting pending)
    (hc : ¬ (pending = [] ∧ OpensCommand line)) (he : ¬ EndsStatement line) :
    Waiting (pending ++ [line]) := by
  refine ⟨hw.head?_concat hc, fun l hl => ?_⟩
  rcases List.mem_append.mp hl with hl | hl
  · exact hw.lines l hl
  · rwa [List.mem_singleton.mp hl]

/-- The words of a line. -/
def wordsOf (line : String) : List String := (Text.words line.toList).map String.ofList

/-- The output of an entry. -/
def answer (shell : Shell) : List String → Output
  | [] => {}
  | first :: more =>
    if OpensCommand first then shell.answerCommand (wordsOf first)
    else shell.execute (endedLines (first :: more))

/-- Whether an entry ends the session. -/
def isQuit : List String → Bool
  | [] => false
  | first :: _ => OpensCommand first && quits (wordsOf first)

/-- The entries that a session answers. -/
def answered (entries : List (List String)) : List (List String) :=
  entries.takeWhile (! isQuit ·)

/-- The outputs of the list, one after another. -/
def outputs (list : List Output) : Output :=
  ⟨String.join (list.map (·.stdout)), (list.map (·.stderr)).flatten⟩

theorem outputs_cons (output : Output) (list : List Output) :
    outputs (output :: list) = output ++ outputs list := by
  simp only [outputs, List.map_cons, String.join_cons, List.flatten_cons]
  rfl

theorem empty_append (output : Output) : ({} : Output) ++ output = output := by
  show Output.mk ("" ++ output.stdout) ([] ++ output.stderr) = output
  rw [String.empty_append, List.nil_append]

theorem endedLines_concat (lines : List String) (line : String) :
    endedLines (lines ++ [line]) = endedLines lines ++ line ++ "\n" := by
  simp [endedLines, String.join_append, String.join_cons, String.append_assoc]

theorem isEmpty_endedLines (lines : List String) : (endedLines lines).isEmpty = lines.isEmpty := by
  cases lines with
  | nil => rfl
  | cons line lines =>
    have h : endedLines (line :: lines) ≠ "" := by
      simp [endedLines, String.join_cons, String.append_eq_empty_iff]
    rw [List.isEmpty_cons, String.isEmpty_eq_false_iff]
    exact h

/-! ## One line -/

section ReadLine

variable (shell : Shell) {pending : List String} {line : String}

theorem toList_trimmed (line : String) : (trimmed line).toList = Text.trim line.toList :=
  String.toList_ofList

theorem isEmpty_trim (line : String) : (Text.trim line.toList).isEmpty = decide (trimmed line = "") := by
  rw [Bool.eq_iff_iff, List.isEmpty_iff, decide_eq_true_eq, trimmed, String.ofList_eq_empty_iff]

theorem readLine_blank (h : trimmed line = "") (buffer : String) :
    shell.readLine buffer line = ({}, some buffer) := by
  unfold readLine
  simp only [isEmpty_trim, h, decide_true, if_true]

theorem readLine_command (h : trimmed line ≠ "") (hc : OpensCommand (trimmed line)) :
    shell.readLine (endedLines []) line =
      if quits (wordsOf (trimmed line)) then ({}, none)
      else (shell.answerCommand (wordsOf (trimmed line)), some (endedLines [])) := by
  have hc : (Text.trim line.toList).head? = some '.' := by rwa [OpensCommand, toList_trimmed] at hc
  unfold readLine
  simp [isEmpty_trim, h, hc, isEmpty_endedLines, wordsOf, toList_trimmed]

/-- A line of a statement. -/
theorem readLine_text (h : trimmed line ≠ "") (hc : ¬ (pending = [] ∧ OpensCommand (trimmed line))) :
    shell.readLine (endedLines pending) line =
      if EndsStatement (trimmed line) then
        (shell.execute (endedLines (pending ++ [trimmed line])), some (endedLines []))
      else ({}, some (endedLines (pending ++ [trimmed line]))) := by
  have hc : ((endedLines pending).isEmpty && decide ((Text.trim line.toList).head? = some '.')) =
      false := by
    rw [Bool.eq_false_iff, Ne, Bool.and_eq_true, isEmpty_endedLines, List.isEmpty_iff,
      decide_eq_true_eq, ← toList_trimmed]
    exact hc
  have htext : String.ofList (Text.trim line.toList) = trimmed line := rfl
  have he : ((Text.trim line.toList).getLast? = some ';') = EndsStatement (trimmed line) := by
    rw [EndsStatement, toList_trimmed]
  unfold readLine
  simp only [isEmpty_trim, h, decide_false, hc, Bool.false_eq_true, if_false, he, htext,
    endedLines_concat]
  rfl

end ReadLine

/-! ## SQL text -/

section Execute

variable (shell : Shell) {sql : String}

theorem execute_blank (h : trimmed sql = "") : shell.execute sql = {} := by
  have hempty : (Text.trim sql.toList).isEmpty = true := by rw [isEmpty_trim, decide_eq_true h]
  unfold execute
  simp only [hempty, if_true]

theorem execute_eq (h : trimmed sql ≠ "") :
    shell.execute sql = .ofWarnings (shell.database.warnings (trimmed sql)) ++
      shell.outcome (shell.database.collect (trimmed sql)) := by
  have hne : (Text.trim sql.toList).isEmpty = false := by rw [isEmpty_trim, decide_eq_false h]
  have htext : String.ofList (Text.trim sql.toList) = trimmed sql := rfl
  unfold execute
  simp only [hne, Bool.false_eq_true, if_false, htext]

end Execute

/-! ## Sessions -/

section Session

variable (shell : Shell)

theorem session_cons (buffer line : String) (lines : List String) :
    shell.session buffer (line :: lines) =
      match shell.readLine buffer line with
      | (output, some buffer) => output ++ shell.session buffer lines
      | (output, none) => output := rfl

theorem textLines_cons_of_eq {line : String} (h : trimmed line = "") (lines : List String) :
    textLines (line :: lines) = textLines lines := by
  simp [textLines, h]

theorem textLines_cons_of_ne {line : String} (h : trimmed line ≠ "") (lines : List String) :
    textLines (line :: lines) = trimmed line :: textLines lines := by
  simp [textLines, h]

theorem answered_cons (entry : List String) (entries : List (List String)) :
    answered (entry :: entries) = if isQuit entry then [] else entry :: answered entries := by
  rw [answered, List.takeWhile_cons]
  cases isQuit entry <;> rfl

/-- Lines that open no command are run as SQL text, and no session ends with them. -/
theorem answer_of_not_opensCommand {entry : List String}
    (h : ∀ line ∈ entry.head?, ¬ OpensCommand line) :
    shell.answer entry = shell.execute (endedLines entry) := by
  cases entry with
  | nil => exact (execute_blank shell rfl).symm
  | cons first more => exact if_neg (h first rfl)

theorem isQuit_of_not_opensCommand {entry : List String}
    (h : ∀ line ∈ entry.head?, ¬ OpensCommand line) : isQuit entry = false := by
  cases entry with
  | nil => rfl
  | cons first more => simp [isQuit, h first rfl]

/-- The loop over the lines, with the lines of an open statement in its buffer. -/
theorem session_eq {pending : List String} (hw : Waiting pending) (lines : List String)
    {entries : List (List String)} {rest : List String}
    (h : Divides (pending ++ textLines lines) entries rest) :
    shell.session (endedLines pending) lines =
      outputs ((answered entries).map shell.answer) := by
  induction lines generalizing pending entries with
  | nil =>
    have hd : Divides (pending ++ textLines []) [] pending :=
      ⟨List.append_nil pending, by simp, hw⟩
    obtain ⟨rfl, -⟩ := h.unique hd
    rfl
  | cons line lines ih =>
    rw [session_cons]
    by_cases hb : trimmed line = ""
    · rw [textLines_cons_of_eq hb] at h
      rw [readLine_blank shell hb]
      exact (empty_append _).trans (ih hw h)
    rw [textLines_cons_of_ne hb] at h
    by_cases hc : pending = [] ∧ OpensCommand (trimmed line)
    · obtain ⟨rfl, hc⟩ := hc
      have h : Divides ([trimmed line] ++ textLines lines) entries rest := h
      obtain ⟨entries, rfl, hmore⟩ := h.uncons (.command hc)
      rw [readLine_command shell hb hc, answered_cons]
      have hquit : isQuit [trimmed line] = quits (wordsOf (trimmed line)) := by simp [isQuit, hc]
      rw [hquit]
      by_cases hq : quits (wordsOf (trimmed line))
      · rw [if_pos hq, if_pos hq]
        rfl
      · have ha : shell.answer [trimmed line] = shell.answerCommand (wordsOf (trimmed line)) :=
          by rw [answer, if_pos hc]
        rw [if_neg hq, if_neg hq, List.map_cons, outputs_cons, ha, ← ih waiting_nil hmore]
    rw [readLine_text shell hb hc]
    rw [List.append_cons] at h
    by_cases he : EndsStatement (trimmed line)
    · have hfirst := hw.head?_concat hc
      obtain ⟨entries, rfl, hmore⟩ := h.uncons (.statement hfirst hw.lines he)
      rw [if_pos he, answered_cons, isQuit_of_not_opensCommand hfirst, if_neg Bool.false_ne_true,
        List.map_cons, outputs_cons, answer_of_not_opensCommand shell hfirst, ← ih waiting_nil hmore]
    · rw [if_neg he]
      exact (empty_append _).trans (ih (hw.concat hc he) h)

/-- A session answers the entries of its lines. -/
theorem run_eq {input : String} {entries : List (List String)} {rest : List String}
    (h : Divides (textLines (linesOf input)) entries rest) :
    shell.run input =
      .ofText greeting ++ outputs ((answered entries).map shell.answer) ++ .ofText farewell := by
  have hs := session_eq shell waiting_nil (linesOf input) h
  show _ ++ shell.session (endedLines []) (linesOf input) ++ _ = _
  rw [hs]

end Session

end PullSql.Shell
