import PullSql.Proofs.Shell.Entries
import PullSql.Proofs.Sql.LineBreaks

/-!
# Statements over several lines

The shell trims the lines of a statement, drops the blank ones and puts a line break behind each of the
others. What it runs is therefore the collapsed text of the statement (`toList_endedLines_textLines`),
and that has the same tokens up to line breaks inside quotes (`run_statement`).

What the shell does with lines it does wherever they begin and end, inside quotes too. So it ends a
statement at a semicolon that a literal has at the end of a line (`run_semicolon_in_quotes`), and a
literal loses blanks next to a line break (`run_blanks_in_quotes`) and characters to a backspace
(`run_backspace_in_quotes`).
-/

namespace PullSql.Shell

open Sql Text Sql.Spelling

/-! ## Trimmed texts -/

section Trim

variable {c : Char} {s : List Char}

theorem trimEnd_cons (c : Char) (s : List Char) :
    trimEnd (c :: s) = if (trimEnd s).isEmpty && isBlank c then [] else c :: trimEnd s := rfl

theorem trimEnd_concat (hc : isBlank c = true) (s : List Char) :
    trimEnd (s ++ [c]) = trimEnd s := by
  unfold trimEnd
  rw [List.foldr_append]
  congr 1
  simp [hc]

/-- Nothing is trimmed behind a visible character. -/
theorem trimEnd_of_getLast? (hs : s.getLast? = some c) (hc : isBlank c = false) : trimEnd s = s := by
  induction s with
  | nil => rfl
  | cons d s ih =>
    cases s with
    | nil =>
      obtain rfl : d = c := Option.some.inj hs
      rw [trimEnd_cons, if_neg (by simp [hc])]
      rfl
    | cons e s =>
      rw [List.getLast?_cons_cons] at hs
      rw [trimEnd_cons, ih hs, if_neg (by simp)]

theorem getLast?_dropWhile (hs : s.getLast? = some c) (hc : isBlank c = false) :
    (s.dropWhile isBlank).getLast? = some c := by
  induction s with
  | nil => cases hs
  | cons d s ih =>
    by_cases hd : isBlank d = true
    · rw [List.dropWhile_cons_of_pos hd]
      cases s with
      | nil =>
        obtain rfl : d = c := Option.some.inj hs
        rw [hd] at hc
        cases hc
      | cons e s => exact ih (by rwa [List.getLast?_cons_cons] at hs)
    · rwa [List.dropWhile_cons_of_neg hd]

theorem trim_of_getLast? (hs : s.getLast? = some c) (hc : isBlank c = false) :
    trim s = s.dropWhile isBlank :=
  trimEnd_of_getLast? (getLast?_dropWhile hs hc) hc

/-- Only a text of blanks is trimmed to nothing. -/
theorem trim_eq_nil_iff (s : List Char) : trim s = [] ↔ s.dropWhile isBlank = [] := by
  unfold trim
  constructor
  · intro h
    by_contra hne
    obtain ⟨d, t, ht⟩ := List.exists_cons_of_ne_nil hne
    have hd : isBlank d = false := by
      have hhead := List.head?_dropWhile_not isBlank s
      rw [ht] at hhead
      simpa using hhead
    rw [ht, trimEnd_cons, if_neg (by simp [hd])] at h
    cases h
  · intro h
    rw [h]
    rfl

theorem mem_of_mem_trimEnd (h : c ∈ trimEnd s) : c ∈ s := by
  induction s with
  | nil => exact h
  | cons d s ih =>
    rw [trimEnd_cons] at h
    split_ifs at h
    · cases h
    · exact List.mem_cons.mpr ((List.mem_cons.mp h).imp_right ih)

theorem trim_dropWhile (s : List Char) : trim (s.dropWhile isBlank) = trim s := by
  unfold trim
  rw [List.dropWhile_idempotent]

theorem trim_concat (hc : isBlank c = true) (s : List Char) : trim (s ++ [c]) = trim s := by
  unfold trim
  rw [List.dropWhile_append]
  split_ifs with h
  · rw [List.isEmpty_iff.mp h, List.dropWhile_cons_of_pos hc]
    rfl
  · exact trimEnd_concat hc _

/-- The last character of a text stays when it is visible. -/
theorem getLast?_collapse (hs : s.getLast? = some c) (hc : isBlank c = false) :
    (collapse s).getLast? = some c := by
  induction s with
  | nil => cases hs
  | cons d s ih =>
    cases s with
    | nil =>
      obtain rfl : d = c := Option.some.inj hs
      rw [collapse_cons_of_not_blank hc]
      rfl
    | cons e s =>
      rw [List.getLast?_cons_cons] at hs
      have hlast := ih hs
      have hcons : ∀ a, ∀ {t : List Char}, t.getLast? = some c → (a :: t).getLast? = some c := by
        intro a t ht
        rw [List.getLast?_cons, ht]
        rfl
      rw [collapse_cons]
      unfold collapseCons
      split_ifs
      · exact hcons _ (getLast?_dropWhile hlast hc)
      · exact hlast
      · exact hcons _ hlast

end Trim

/-! ## Lines -/

/-- Induction over the lines of a text. -/
theorem lines_induction {P : List Char → Prop} (one : ∀ line, '\n' ∉ line → P line)
    (more : ∀ line rest, '\n' ∉ line → P rest → P (line ++ '\n' :: rest)) (s : List Char) : P s := by
  induction hn : s.length using Nat.strong_induction_on generalizing s with
  | h n ih =>
    by_cases hs : '\n' ∈ s
    · obtain ⟨line, rest, rfl, hline⟩ := List.eq_append_cons_of_mem hs
      refine more line rest hline (ih rest.length ?_ rest rfl)
      rw [← hn, List.length_append, List.length_cons]
      omega
    · exact one s hs

/-- The lines of a text. -/
def linesIn (s : List Char) : List (List Char) := s.splitOnP (· = '\n')

theorem linesIn_one {line : List Char} (h : '\n' ∉ line) : linesIn line = [line] := by
  refine List.splitOnP_eq_singleton fun c hc => ?_
  simp only [decide_eq_false_iff_not]
  rintro rfl
  exact h hc

theorem linesIn_more {line : List Char} (h : '\n' ∉ line) (rest : List Char) :
    linesIn (line ++ '\n' :: rest) = line :: linesIn rest := by
  have hsplit := List.splitOnP_append_cons (p := (· = '\n')) line rest (decide_eq_true rfl)
  exact hsplit.trans (congrArg (· ++ linesIn rest) (linesIn_one h))

/-- Collapsing trims the end of a line and the blanks and blank lines behind it. -/
theorem collapse_more {line : List Char} (h : '\n' ∉ line) (rest : List Char) :
    collapse (line ++ '\n' :: rest) = trimEnd line ++ '\n' :: (collapse rest).dropWhile isBlank := by
  induction line with
  | nil => rfl
  | cons c line ih =>
    rw [List.mem_cons, not_or] at h
    have hne : ∀ d ∈ trimEnd line, d ≠ '\n' := by
      rintro d hd rfl
      exact h.2 (mem_of_mem_trimEnd hd)
    rw [List.cons_append, collapse_cons, ih h.2, collapseCons, if_neg (Ne.symm h.1), trimEnd_cons]
    rcases htrim : trimEnd line with _ | ⟨d, text⟩
    · by_cases hc : isBlank c = true <;> simp [hc]
    · rw [htrim] at hne
      have hd : d ≠ '\n' := hne d List.mem_cons_self
      simp [hd]

/-- The lines that are left when each is trimmed, each ended. -/
def endedTexts (s : List Char) : List Char :=
  (((linesIn s).map trim).filter (! ·.isEmpty)).flatMap (· ++ ['\n'])

/-- The trimmed lines of a text are its collapsed text. -/
theorem endedTexts_eq {s : List Char} {c : Char} (hs : s.getLast? = some c) (hc : isBlank c = false) :
    endedTexts s = (collapse s).dropWhile isBlank ++ ['\n'] := by
  induction s using lines_induction with
  | one line hline =>
    have hlast := getLast?_dropWhile hs hc
    have hne : line.dropWhile isBlank ≠ [] := by
      intro h
      rw [h] at hlast
      cases hlast
    rw [collapse_of_no_break hline, endedTexts, linesIn_one hline, List.map_singleton,
      trim_of_getLast? hs hc]
    simp [hne]
  | more line rest hline ih =>
    have hrest : rest.getLast? = some c := by
      rw [List.getLast?_append_cons] at hs
      cases rest with
      | nil =>
        obtain rfl : '\n' = c := Option.some.inj hs
        exact absurd hc (by decide)
      | cons d rest => rwa [List.getLast?_cons_cons] at hs
    have hmore : endedTexts (line ++ '\n' :: rest) =
        if trim line = [] then endedTexts rest else trim line ++ '\n' :: endedTexts rest := by
      unfold endedTexts
      rw [linesIn_more hline]
      split_ifs with h <;> simp [h]
    rw [hmore, ih hrest, dropWhile_collapse, dropWhile_collapse, List.dropWhile_append]
    simp only [trim_eq_nil_iff, List.isEmpty_iff]
    split_ifs with h
    · rfl
    · have hline' : '\n' ∉ line.dropWhile isBlank := fun hn =>
        hline ((List.dropWhile_suffix isBlank).subset hn)
      rw [collapse_more hline', dropWhile_collapse, List.append_assoc]
      rfl

theorem mem_of_mem_linesIn {s line : List Char} {c : Char} (hline : line ∈ linesIn s) (hc : c ∈ line) :
    c ∈ s := by
  induction s using lines_induction with
  | one s hs =>
    rw [linesIn_one hs, List.mem_singleton] at hline
    rwa [← hline]
  | more first rest hfirst ih =>
    rw [linesIn_more hfirst, List.mem_cons] at hline
    rcases hline with rfl | hline
    · exact List.mem_append_left _ hc
    · exact List.mem_append_right _ (List.mem_cons_of_mem _ (ih hline))

/-- The last line ends as the text does. -/
theorem exists_last_line {s : List Char} {c : Char} (hs : s.getLast? = some c) (hc : c ≠ '\n') :
    ∃ init last, linesIn s = init ++ [last] ∧ last.getLast? = some c := by
  induction s using lines_induction with
  | one s h => exact ⟨[], s, linesIn_one h, hs⟩
  | more line rest hline ih =>
    rw [List.getLast?_append_cons] at hs
    cases rest with
    | nil => exact absurd (Option.some.inj hs).symm hc
    | cons d rest =>
      rw [List.getLast?_cons_cons] at hs
      obtain ⟨init, last, h, hlast⟩ := ih hs
      exact ⟨line :: init, last, by rw [linesIn_more hline, h]; rfl, hlast⟩

/-! ## The lines of a statement -/

section Lines

variable {s : String}

theorem map_typed (hback : backspace ∉ s.toList) :
    ((linesIn s.toList).map fun line => String.ofList (typed line)) =
      (linesIn s.toList).map String.ofList := by
  refine List.map_congr_left fun line hline => ?_
  rw [typed_eq_self fun h => hback (mem_of_mem_linesIn hline h)]

theorem linesOf_break (hback : backspace ∉ s.toList) :
    linesOf (s ++ "\n") = (linesIn s.toList).map String.ofList := by
  have hlines : (s ++ "\n").toList.splitOnP (· = '\n') = linesIn s.toList ++ [[]] := by
    rw [String.toList_append]
    exact List.splitOnP_append_cons s.toList [] (decide_eq_true rfl)
  rw [← map_typed hback]
  unfold linesOf
  simp only [hlines, List.getLast?_concat, List.dropLast_concat, if_true]

theorem linesOf_eq {c : Char} (hs : s.toList.getLast? = some c) (hc : c ≠ '\n')
    (hback : backspace ∉ s.toList) : linesOf s = (linesIn s.toList).map String.ofList := by
  obtain ⟨init, last, h, hlast⟩ := exists_last_line hs hc
  have hne : (s.toList.splitOnP (· = '\n')).getLast? ≠ some [] := by
    show (linesIn s.toList).getLast? ≠ some []
    rw [h, List.getLast?_concat]
    rintro ⟨⟩
    cases hlast
  rw [← map_typed hback]
  unfold linesOf
  simp only [hne, if_false]
  rfl

theorem endedLines_cons (line : String) (lines : List String) :
    (endedLines (line :: lines)).toList = line.toList ++ '\n' :: (endedLines lines).toList := by
  simp [endedLines, String.join_cons]

theorem toList_endedLines_textLines (lines : List (List Char)) :
    (endedLines (textLines (lines.map String.ofList))).toList =
      ((lines.map trim).filter (! ·.isEmpty)).flatMap (· ++ ['\n']) := by
  induction lines with
  | nil => rfl
  | cons line lines ih =>
    have htrimmed : trimmed (String.ofList line) = String.ofList (trim line) := by
      rw [trimmed, String.toList_ofList]
    by_cases h : trim line = []
    · rw [List.map_cons, textLines_cons_of_eq (by rw [htrimmed, h]), ih]
      simp [h]
    · have hne : trimmed (String.ofList line) ≠ "" := by
        rwa [htrimmed, Ne, String.ofList_eq_empty_iff]
      rw [List.map_cons, textLines_cons_of_ne hne, endedLines_cons, ih, htrimmed]
      simp [h]

end Lines

/-! ## Texts that run alike -/

theorem execute_congr (shell : Shell) {a b : String} (h : trim a.toList = trim b.toList) :
    shell.execute a = shell.execute b := by
  unfold execute
  rw [h]

theorem ofText_congr {a b : String} (h : tokens a = tokens b) :
    Statement.ofText a = Statement.ofText b := by
  unfold Statement.ofText Stream.ofText
  rw [h]

/-- Trimming a text that ends with a visible character leaves its tokens. -/
theorem tokens_trim {a : String} {c : Char} (hlast : a.toList.getLast? = some c)
    (hc : isBlank c = false) {ts : List Token} (h : tokens a = .ok ts) :
    trim a.toList ≠ [] ∧ tokens (String.ofList (trim a.toList)) = .ok ts := by
  have htrim := trim_of_getLast? hlast hc
  constructor
  · intro hnil
    have hl := getLast?_dropWhile hlast hc
    rw [← htrim, hnil] at hl
    cases hl
  · have hgap : skipGap a.toList = skipGap (String.ofList (trim a.toList)).toList := by
      rw [String.toList_ofList, htrim]
      exact (afterGap_outside_dropWhile a.toList).symm
    have htokens := tokens_of_simulates simulates_skipGap (fun _ => Iff.rfl) hgap h
    rwa [List.map_id] at htokens

theorem execute_eq_of_tokens (shell : Shell) {a b : String} {c d : Char} {ts : List Token}
    (ha : a.toList.getLast? = some c) (hc : isBlank c = false) (hb : b.toList.getLast? = some d)
    (hd : isBlank d = false) (hta : tokens a = .ok ts) (htb : tokens b = .ok ts) :
    shell.execute a = shell.execute b := by
  obtain ⟨hane, ha⟩ := tokens_trim ha hc hta
  obtain ⟨hbne, hb⟩ := tokens_trim hb hd htb
  have hstatement : Statement.ofText (trimmed a) = Statement.ofText (trimmed b) :=
    ofText_congr (ha.trans hb.symm)
  have hane : trimmed a ≠ "" := fun h => hane (String.ofList_eq_empty_iff.mp h)
  have hbne : trimmed b ≠ "" := fun h => hbne (String.ofList_eq_empty_iff.mp h)
  rw [execute_eq shell hane, execute_eq shell hbne]
  unfold Database.warnings Database.collect Database.query
  rw [hstatement]

/-- A text that is a statement does not begin with a dot. -/
theorem head?_ne_dot {s : String} {statement : Statement} (h : Statement.ofText s = .ok statement) :
    (s.toList.dropWhile isBlank).head? ≠ some '.' := by
  intro hs
  obtain ⟨r, hr⟩ := List.head?_eq_some_iff.mp hs
  have hgap : skipGap s.toList = '.' :: r := by
    rw [skipGap, ← afterGap_outside_dropWhile, hr]
    exact skipGap_cons (by decide) fun h => absurd h (by decide)
  have hnext : (Scanner.ofText s).next = (.ok (.mark .dot), (Scanner.ofText s).moveTo r) :=
    next_eq_ok_iff.mpr (.inr ⟨'.', r, r, hgap, .mark rfl, rfl⟩)
  have htokens : tokens s = (((Scanner.ofText s).moveTo r).tokensWithin s.toList.length).map
      (.mark .dot :: ·) := tokensWithin_of_token hnext Token.noConfusion
  unfold Statement.ofText Stream.ofText at h
  rw [htokens] at h
  rcases hmore : ((Scanner.ofText s).moveTo r).tokensWithin s.toList.length with e | ts
  · rw [hmore] at h
    cases h
  · rw [hmore] at h
    cases h

/-! ## One statement -/

section Statement

variable {s : String} (hlast : s.toList.getLast? = some ';') (hback : backspace ∉ s.toList)
include hlast hback

theorem toList_textLines :
    (endedLines (textLines (linesOf s))).toList = (collapse s.toList).dropWhile isBlank ++ ['\n'] := by
  rw [linesOf_eq hlast (by decide) hback, toList_endedLines_textLines]
  exact endedTexts_eq hlast (by decide)

/-- What the shell runs for a text is its collapsed form. -/
theorem execute_textLines (shell : Shell) :
    shell.execute (endedLines (textLines (linesOf s))) =
      shell.execute (String.ofList (collapse s.toList)) := by
  refine execute_congr shell ?_
  rw [toList_textLines hlast hback, trim_concat (by decide), trim_dropWhile, String.toList_ofList]

theorem not_opensCommand_textLines (hdot : (s.toList.dropWhile isBlank).head? ≠ some '.') :
    ∀ line ∈ (textLines (linesOf s)).head?, ¬ OpensCommand line := by
  intro line hline hopens
  obtain ⟨more, hmore⟩ := List.head?_eq_some_iff.mp hline
  have hends := toList_textLines hlast hback
  obtain ⟨word, hword⟩ := List.head?_eq_some_iff.mp hopens
  rw [hmore, endedLines_cons, hword, dropWhile_collapse] at hends
  refine hdot ((head?_collapse (by decide)).mp ?_)
  rcases hcollapse : collapse (s.toList.dropWhile isBlank) with _ | ⟨c, t⟩
  · rw [hcollapse] at hends
    cases hends
  · rw [hcollapse] at hends
    rw [← (List.cons.inj hends).1]
    rfl

/-- The lines of such a text are one entry. -/
theorem exists_textLines (hlines : ∀ line ∈ (linesOf s).dropLast, ¬ EndsStatement (trimmed line)) :
    ∃ init last, textLines (linesOf s) = init ++ [last] ∧ (∀ line ∈ init, ¬ EndsStatement line) ∧
      EndsStatement last := by
  obtain ⟨init, last, h, hl⟩ := exists_last_line hlast (by decide)
  have hl' : (trim last).getLast? = some ';' := by
    rw [trim_of_getLast? hl (by decide)]
    exact getLast?_dropWhile hl (by decide)
  have hends : EndsStatement (trimmed (String.ofList last)) := by
    rw [EndsStatement, toList_trimmed, String.toList_ofList, hl']
  have hne : trimmed (String.ofList last) ≠ "" := by
    intro hn
    rw [EndsStatement, hn] at hends
    cases hends
  have hlinesOf : linesOf s = init.map String.ofList ++ [String.ofList last] := by
    rw [linesOf_eq hlast (by decide) hback, h, List.map_append]
    rfl
  refine ⟨textLines (init.map String.ofList), trimmed (String.ofList last), ?_, ?_, hends⟩
  · rw [hlinesOf]
    unfold textLines
    rw [List.map_append, List.filter_append, List.map_singleton,
      List.filter_cons_of_pos (by simpa using hne), List.filter_nil]
  · rw [hlinesOf, List.dropLast_concat] at hlines
    intro line hline
    obtain ⟨hmem, -⟩ := List.mem_filter.mp hline
    obtain ⟨raw, hraw, rfl⟩ := List.mem_map.mp hmem
    exact hlines raw hraw

/-- A text whose lines are one entry is run in its collapsed form. -/
theorem run_break (shell : Shell) (hdot : (s.toList.dropWhile isBlank).head? ≠ some '.')
    (hlines : ∀ line ∈ (linesOf s).dropLast, ¬ EndsStatement (trimmed line)) :
    shell.run (s ++ "\n") =
      .ofText greeting ++ shell.execute (String.ofList (collapse s.toList)) ++ .ofText farewell := by
  have hfirst := not_opensCommand_textLines hlast hback hdot
  obtain ⟨init, last, htexts, hinit, hends⟩ := exists_textLines hlast hback hlines
  have hrun := execute_textLines hlast hback shell
  rw [htexts] at hfirst hrun
  have hbreak : linesOf (s ++ "\n") = linesOf s :=
    (linesOf_break hback).trans (linesOf_eq hlast (by decide) hback).symm
  have hdivides : Divides (textLines (linesOf (s ++ "\n"))) [init ++ [last]] [] := by
    refine ⟨?_, List.forall_mem_singleton.mpr (.statement hfirst hinit hends), waiting_nil⟩
    rw [hbreak, htexts]
    simp
  have hout : outputs ((answered [init ++ [last]]).map shell.answer) =
      shell.answer (init ++ [last]) := by
    rw [answered_cons, isQuit_of_not_opensCommand hfirst]
    show outputs [shell.answer (init ++ [last])] = _
    simp [outputs, String.join_cons]
  rw [run_eq shell hdivides, hout, answer_of_not_opensCommand shell hfirst, hrun]

end Statement

/-- Texts that end in a semicolon run alike if they have the same tokens. -/
theorem execute_collapse (shell : Shell) {s : String} {ts : List Token}
    (hlast : s.toList.getLast? = some ';') (h : tokens s = .ok ts) (hts : ∀ t ∈ ts, t.collapse = t) :
    shell.execute (String.ofList (collapse s.toList)) = shell.execute s := by
  have hcollapse := tokens_collapse h
  have hlast' : (String.ofList (collapse s.toList)).toList.getLast? = some ';' := by
    rw [String.toList_ofList]
    exact getLast?_collapse hlast (by decide)
  rw [List.map_congr_left hts, List.map_id'] at hcollapse
  exact execute_eq_of_tokens shell hlast' (by decide) hlast (by decide) hcollapse h

/-- **Statements over several lines.** A statement that ends in a semicolon, none of whose other lines
ends in one, is run in its collapsed form, whose tokens are those of the statement but for line breaks
next to blanks inside quotes. Without such line breaks it is run as it was written. -/
theorem run_statement (shell : Shell) {s : String} {statement : Statement}
    (hstatement : Statement.ofText s = .ok statement) (hlast : s.toList.getLast? = some ';')
    (hlines : ∀ line ∈ (linesOf s).dropLast, ¬ EndsStatement (trimmed line))
    (hback : backspace ∉ s.toList) :
    ∃ ts, tokens s = .ok ts ∧
      tokens (String.ofList (collapse s.toList)) = .ok (ts.map Token.collapse) ∧
      shell.run (s ++ "\n") =
        .ofText greeting ++ shell.execute (String.ofList (collapse s.toList)) ++ .ofText farewell ∧
      ((∀ t ∈ ts, t.content.IsChain fun c d =>
          isBlank c = true → isBlank d = true → c ≠ '\n' ∧ d ≠ '\n') →
        shell.run (s ++ "\n") = .ofText greeting ++ shell.execute s ++ .ofText farewell) := by
  have hrun := run_break hlast hback shell (head?_ne_dot hstatement) hlines
  rcases htokens : tokens s with e | ts
  · unfold Statement.ofText Stream.ofText at hstatement
    rw [htokens] at hstatement
    cases hstatement
  refine ⟨ts, rfl, tokens_collapse htokens, hrun, fun hclean => ?_⟩
  rw [hrun, execute_collapse shell hlast htokens fun t ht => Token.collapse_eq_self (hclean t ht)]

/-- A line break inside a literal, blanks around lines, a blank line and a semicolon in a comment. -/
theorem run_statement_of_query :
    let shell : Shell := { json := true }
    let s := " SELECT 'a\nb' AS x, -- one;  two\n\n y ;"
    (∃ statement, Statement.ofText s = .ok statement) ∧ s.toList.getLast? = some ';' ∧
      (∀ line ∈ (linesOf s).dropLast, ¬ EndsStatement (trimmed line)) ∧ backspace ∉ s.toList ∧
      shell.run (s ++ "\n") = .ofText greeting ++ shell.execute s ++ .ofText farewell := by
  intro shell s
  let ts : List Token := [.keyword .SELECT, .text "a\nb", .keyword .AS, .identifier "x", .mark .comma,
    .identifier "y", .mark .semicolon, .endOfInput]
  have htokens : tokens s = .ok ts := by cbv
  have hstatement : Statement.ofText s =
      .ok (.select ⟨[.expr (.text "a\nb") (some "x"), .expr (.field "y") none], none⟩) := by
    unfold Statement.ofText Stream.ofText
    rw [htokens]
    rfl
  have hlast : s.toList.getLast? = some ';' := by decide
  have hlines : ∀ line ∈ (linesOf s).dropLast, ¬ EndsStatement (trimmed line) := by decide
  have hback : backspace ∉ s.toList := by decide
  obtain ⟨us, hus, -, -, hrun⟩ := run_statement shell hstatement hlast hlines hback
  obtain rfl : us = ts := Except.ok.inj (hus.symm.trans htokens)
  exact ⟨⟨_, hstatement⟩, hlast, hlines, hback, hrun (by decide)⟩

/-! ## Statements that are run otherwise -/

theorem exists_of_isOk {α ε : Type} {x : Except ε α} (h : x.isOk) : ∃ a, x = .ok a := by
  cases x with
  | error e => cases h
  | ok a => exact ⟨a, rfl⟩

/-- A semicolon at the end of a line ends the statement there, although it stands between quotes. -/
theorem run_semicolon_in_quotes :
    let shell : Shell := {}
    let s := "SELECT 'a;\nb';"
    (∃ statement, Statement.ofText s = .ok statement) ∧ s.toList.getLast? = some ';' ∧
      shell.run (s ++ "\n") ≠ .ofText greeting ++ shell.execute s ++ .ofText farewell := by
  intro shell s
  have hok : (Statement.ofText s).isOk := by decide +kernel
  exact ⟨exists_of_isOk hok, by decide, by decide +kernel⟩

/-- Blanks next to a line break are lost, although they stand between quotes. -/
theorem run_blanks_in_quotes :
    let shell : Shell := {}
    let s := "SELECT 'a  \n  b' AS x;"
    (∃ statement, Statement.ofText s = .ok statement) ∧ s.toList.getLast? = some ';' ∧
      (∀ line ∈ (linesOf s).dropLast, ¬ EndsStatement (trimmed line)) ∧ backspace ∉ s.toList ∧
      shell.run (s ++ "\n") ≠ .ofText greeting ++ shell.execute s ++ .ofText farewell := by
  intro shell s
  have hok : (Statement.ofText s).isOk := by decide +kernel
  exact ⟨exists_of_isOk hok, by decide, by decide, by decide, by decide +kernel⟩

/-- A backspace takes back the character in front of it, although both stand between quotes. -/
theorem run_backspace_in_quotes :
    let shell : Shell := {}
    let s := "SELECT 'ab\x08' AS x;"
    (∃ statement, Statement.ofText s = .ok statement) ∧ s.toList.getLast? = some ';' ∧
      (∀ line ∈ (linesOf s).dropLast, ¬ EndsStatement (trimmed line)) ∧
      shell.run (s ++ "\n") ≠ .ofText greeting ++ shell.execute s ++ .ofText farewell := by
  intro shell s
  have hok : (Statement.ofText s).isOk := by decide +kernel
  exact ⟨exists_of_isOk hok, by decide, by decide, by decide +kernel⟩

end PullSql.Shell
