import DashTwrp.Python.Words

namespace DashTwrp.Python

/-! `shlex.split` with `posix=True` and no comments. -/

inductive LexError where
  | noClosingQuotation
  | noEscapedCharacter
deriving DecidableEq, Repr

/-- The lexer's `state`; after an escape it goes back to `escapedstate`. -/
inductive LexState where
  | blank
  | word
  | quoted (mark : Char)
  | escaped (inQuotes : Bool)
deriving DecidableEq, Repr

def isLexSpace (character : Char) : Bool := [' ', '\t', '\r', '\n'].contains character

def isQuote (character : Char) : Bool := ['\'', '"'].contains character

def emit (token : List Char) (quoted : Bool) (rest : List (List Char)) : List (List Char) :=
  if token ≠ [] ∨ quoted then token :: rest else rest

/-- The tokens of the rest of a text, given the current token up to here and
whether a part of it was quoted. -/
def lexFrom : LexState → List Char → Bool → List Char → Except LexError (List (List Char))
  | .blank, _, _, [] => .ok []
  | .word, token, quoted, [] => .ok (emit token quoted [])
  | .quoted _, _, _, [] => .error .noClosingQuotation
  | .escaped _, _, _, [] => .error .noEscapedCharacter
  | .blank, token, quoted, character :: rest =>
      if isLexSpace character then lexFrom .blank token quoted rest
      else if character = '\\' then lexFrom (.escaped false) token quoted rest
      else if isQuote character then lexFrom (.quoted character) token quoted rest
      else lexFrom .word [character] quoted rest
  | .word, token, quoted, character :: rest =>
      if isLexSpace character then (emit token quoted ·) <$> lexFrom .blank [] false rest
      else if isQuote character then lexFrom (.quoted character) token quoted rest
      else if character = '\\' then lexFrom (.escaped false) token quoted rest
      else lexFrom .word (token ++ [character]) quoted rest
  | .quoted mark, token, _, character :: rest =>
      if character = mark then lexFrom .word token true rest
      else if character = '\\' ∧ mark = '"' then lexFrom (.escaped true) token true rest
      else lexFrom (.quoted mark) (token ++ [character]) true rest
  | .escaped inQuotes, token, quoted, character :: rest =>
      -- Within quotes only the quote and the escape character can be escaped.
      let token := if inQuotes ∧ character ≠ '\\' ∧ character ≠ '"' then token ++ ['\\'] else token
      lexFrom (if inQuotes then .quoted '"' else .word) (token ++ [character]) quoted rest

/-- `shlex.split(line, comments=False, posix=True)` -/
def shlexSplit (line : List Char) : Except LexError (List (List Char)) := lexFrom .blank [] false line

/-! ### Lines without tabs, quotes and backslashes -/

/-- Every character of the line is a blank or stands for itself. -/
def PlainLine (line : List Char) : Prop :=
  ∀ character ∈ line, character ∉ ['\t', '\r', '\n', '\'', '"', '\\']

instance (line : List Char) : Decidable (PlainLine line) :=
  inferInstanceAs (Decidable (∀ character ∈ line, _))

/-- The pieces between the single blanks of a line. -/
def columns (line : List Char) : List (List Char) := (line.splitOn ' ').filter (· ≠ [])

theorem plainLine_cons {character : Char} {rest : List Char} :
    PlainLine (character :: rest) ↔
      character ∉ ['\t', '\r', '\n', '\'', '"', '\\'] ∧ PlainLine rest := by
  simp [PlainLine]

theorem columns_blank (rest : List Char) : columns (' ' :: rest) = columns rest := by
  have cut : (' ' :: rest).splitOnP (· == ' ') = [[]] ++ rest.splitOnP (· == ' ') :=
    List.splitOnP_append_cons [] rest rfl
  simp [columns, List.splitOn_eq_splitOnP, cut]

theorem columns_word_blank {token : List Char} (nonempty : token ≠ []) (noBlank : ' ' ∉ token)
    (rest : List Char) : columns (token ++ ' ' :: rest) = token :: columns rest := by
  have inside : ∀ character ∈ token, (character == ' ') = false := by
    intro character member
    rw [beq_eq_false_iff_ne]
    rintro rfl
    exact noBlank member
  simp [columns, List.splitOn_eq_splitOnP, List.splitOnP_append_cons_of_forall_mem inside, nonempty]

theorem columns_word {token : List Char} (nonempty : token ≠ []) (noBlank : ' ' ∉ token) :
    columns token = [token] := by
  have inside : ∀ character ∈ token, (character == ' ') = false := by
    intro character member
    rw [beq_eq_false_iff_ne]
    rintro rfl
    exact noBlank member
  simp [columns, List.splitOn_eq_splitOnP, List.splitOnP_eq_singleton inside, nonempty]

theorem lexFrom_plain {rest : List Char} (plain : PlainLine rest) :
    lexFrom .blank [] false rest = .ok (columns rest) ∧
      ∀ token, token ≠ [] → ' ' ∉ token →
        lexFrom .word token false rest = .ok (columns (token ++ rest)) := by
  induction rest with
  | nil =>
      refine ⟨rfl, fun token nonempty noBlank => ?_⟩
      rw [List.append_nil, columns_word nonempty noBlank]
      simp [lexFrom, emit, nonempty]
  | cons character rest ih =>
      obtain ⟨ordinary, plain⟩ := plainLine_cons.mp plain
      obtain ⟨fromBlank, fromWord⟩ := ih plain
      simp only [List.mem_cons, List.not_mem_nil, or_false, not_or] at ordinary
      by_cases blank : character = ' '
      · subst blank
        refine ⟨?_, fun token nonempty noBlank => ?_⟩
        · rw [lexFrom, if_pos (by decide), columns_blank]
          exact fromBlank
        · rw [lexFrom, if_pos (by decide), fromBlank, columns_word_blank nonempty noBlank]
          simp [emit, nonempty, Functor.map, Except.map]
      · have notSpace : isLexSpace character = false := by simp [isLexSpace, blank, ordinary]
        have notQuote : isQuote character = false := by simp [isQuote, ordinary]
        refine ⟨?_, fun token nonempty noBlank => ?_⟩
        · simp only [lexFrom, notSpace, notQuote, ordinary, Bool.false_eq_true, if_false]
          exact fromWord [character] (by simp) (by simpa using Ne.symm blank)
        · simp only [lexFrom, notSpace, notQuote, ordinary, Bool.false_eq_true, if_false]
          rw [fromWord _ (by simp) (by simp [noBlank, Ne.symm blank])]
          simp

/-- Without tabs, quotes and backslashes the tokens are the pieces between blanks. -/
theorem shlexSplit_plain {line : List Char} (plain : PlainLine line) :
    shlexSplit line = .ok (columns line) :=
  (lexFrom_plain plain).1

/-- How a line falls into words that blanks end. -/
inductive Cut : List Char → List (List Char) → Prop where
  | nil : Cut [] []
  | blank {rest : List Char} {tokens : List (List Char)} :
      Cut rest tokens → Cut (' ' :: rest) tokens
  | last {token : List Char} : token ≠ [] → ' ' ∉ token → Cut token [token]
  | word {token rest : List Char} {tokens : List (List Char)} :
      token ≠ [] → ' ' ∉ token → Cut rest tokens → Cut (token ++ ' ' :: rest) (token :: tokens)

theorem columns_cut (line : List Char) : Cut line (columns line) := by
  have continued : ∀ rest token : List Char, ' ' ∉ token →
      Cut (token ++ rest) (columns (token ++ rest)) := by
    intro rest
    induction rest with
    | nil =>
        intro token noBlank
        rw [List.append_nil]
        cases token with
        | nil => exact .nil
        | cons first token =>
            rw [columns_word (by simp) noBlank]
            exact .last (by simp) noBlank
    | cons character rest ih =>
        intro token noBlank
        by_cases blank : character = ' '
        · subst blank
          have later := ih [] (by simp)
          rw [List.nil_append] at later
          cases token with
          | nil =>
              rw [List.nil_append, columns_blank]
              exact .blank later
          | cons first token =>
              rw [columns_word_blank (by simp) noBlank]
              exact .word (by simp) noBlank later
        · rw [List.append_cons]
          exact ih (token ++ [character]) (by simp [noBlank, Ne.symm blank])
  exact continued line [] (by simp)

theorem Cut.blank_before {line : List Char} {tokens : List (List Char)} (cut : Cut line tokens) :
    ∀ token ∈ tokens, ' ' :: token <:+: ' ' :: line := by
  induction cut with
  | nil => simp
  | blank _ ih =>
      intro token member
      exact (ih token member).trans ⟨[' '], [], by simp⟩
  | @last word _ _ =>
      intro token member
      cases List.mem_singleton.mp member
      exact List.infix_refl _
  | @word word rest tokens _ _ _ ih =>
      intro token member
      cases member with
      | head => exact ⟨[], ' ' :: rest, rfl⟩
      | tail _ later => exact (ih token later).trans ⟨' ' :: word, [], by simp⟩

theorem Cut.blank_behind {line : List Char} {tokens : List (List Char)} (cut : Cut line tokens) :
    ∀ token ∈ tokens.dropLast, token ++ [' '] <:+: line := by
  induction cut with
  | nil => simp
  | blank _ ih =>
      intro token member
      exact (ih token member).trans ⟨[' '], [], by simp⟩
  | last => simp
  | @word word rest tokens _ _ _ ih =>
      intro token member
      have inRest : ∀ later ∈ tokens.dropLast, later ++ [' '] <:+: word ++ ' ' :: rest :=
        fun later found => (ih later found).trans ⟨word ++ [' '], [], by simp⟩
      cases tokens with
      | nil => simp at member
      | cons next tokens =>
          rw [List.dropLast_cons_cons] at member
          cases member with
          | head => exact ⟨[], rest, by simp⟩
          | tail _ later => exact inRest token later

/-- In front of every token but the first stands a blank. -/
theorem Cut.blank_before_tail {line : List Char} {tokens : List (List Char)}
    (cut : Cut line tokens) : ∀ token ∈ tokens.tail, ' ' :: token <:+: line := by
  induction cut with
  | nil => simp
  | blank _ ih =>
      intro token member
      exact (ih token member).trans ⟨[' '], [], by simp⟩
  | last => simp
  | @word word rest tokens _ _ cut _ =>
      intro token member
      exact (cut.blank_before token member).trans ⟨word, [], by simp⟩

end DashTwrp.Python
