import DashTwrp.Python.Slices
import Mathlib.Data.List.DropRight

namespace DashTwrp.Python

/-! `bytes.splitlines(keepends=True)` and the lines it cuts a text into.

`Lines` says what a list of lines is without saying how it was cut: it is
exactly the image of `splitlines`, so an edit of single lines can be followed
through a later split.
-/

def isBreak (byte : UInt8) : Bool := byte == 0x0a || byte == 0x0d

/-- Cuts the rest of a text, given the current line up to here. -/
def splitlinesFrom (line : Bytes) : Bytes → List Bytes
  | [] => if line.isEmpty then [] else [line]
  | byte :: rest =>
      if byte = 0x0a then (line ++ [0x0a]) :: splitlinesFrom [] rest
      else if byte = 0x0d then
        match rest with
        | [] => [line ++ [0x0d]]
        | next :: tail =>
            -- CRLF ends one line, not two.
            if next = 0x0a then (line ++ [0x0d, 0x0a]) :: splitlinesFrom [] tail
            else (line ++ [0x0d]) :: splitlinesFrom [] (next :: tail)
      else splitlinesFrom (line ++ [byte]) rest

/-- `text.splitlines(keepends=True)` -/
def splitlines (text : Bytes) : List Bytes := splitlinesFrom [] text

/-- `line.rstrip(b"\r\n")` -/
def rstripBreaks (line : Bytes) : Bytes := line.rdropWhile isBreak

def Plain (content : Bytes) : Prop := ∀ byte ∈ content, isBreak byte = false

def lineBreaks : List Bytes := [[0x0a], [0x0d], [0x0d, 0x0a]]

/-- The lists of lines a text can be cut into.  A lone CR is a terminator only
when no LF follows it, and only the last line may go without one. -/
inductive Lines : List Bytes → Prop where
  | nil : Lines []
  | unterminated (content : Bytes) : content ≠ [] → Plain content → Lines [content]
  | line (content terminator : Bytes) (rest : List Bytes) :
      Plain content → terminator ∈ lineBreaks →
      (terminator = [0x0d] → rest.flatten.head? ≠ some 0x0a) →
      Lines rest → Lines ((content ++ terminator) :: rest)

theorem splitlinesFrom_byte (line : Bytes) (byte : UInt8) (rest : Bytes)
    (noBreak : isBreak byte = false) :
    splitlinesFrom line (byte :: rest) = splitlinesFrom (line ++ [byte]) rest := by
  simp only [isBreak, Bool.or_eq_false_iff, beq_eq_false_iff_ne] at noBreak
  cases rest <;> simp [splitlinesFrom, noBreak.1, noBreak.2]

theorem splitlinesFrom_feed (line rest : Bytes) :
    splitlinesFrom line (0x0a :: rest) = (line ++ [0x0a]) :: splitlinesFrom [] rest := by
  cases rest <;> simp [splitlinesFrom]

theorem splitlinesFrom_plain (line content rest : Bytes) (plain : Plain content) :
    splitlinesFrom line (content ++ rest) = splitlinesFrom (line ++ content) rest := by
  induction content generalizing line with
  | nil => simp
  | cons byte content ih =>
      rw [List.cons_append, splitlinesFrom_byte _ _ _ (plain byte (by simp)),
        ih _ fun other member => plain other (by simp [member])]
      simp

theorem flatten_splitlinesFrom (line rest : Bytes) :
    (splitlinesFrom line rest).flatten = line ++ rest := by
  fun_induction splitlinesFrom line rest with
  | case1 line empty => simpa using empty
  | case2 line nonempty => simp
  | case3 line rest ih => simp [ih]
  | case4 line => simp
  | case5 line tail _ ih => simp [ih]
  | case6 line next tail _ _ ih => simp [ih]
  | case7 line byte rest _ _ ih => simp [ih]

theorem flatten_splitlines (text : Bytes) : (splitlines text).flatten = text :=
  flatten_splitlinesFrom [] text

theorem lines_splitlinesFrom (line rest : Bytes) (plain : Plain line) :
    Lines (splitlinesFrom line rest) := by
  fun_induction splitlinesFrom line rest with
  | case1 line empty => exact .nil
  | case2 line nonempty => exact .unterminated line (by simpa using nonempty) plain
  | case3 line rest ih =>
      exact .line line [0x0a] _ plain (by decide) (by simp) (ih (by simp [Plain]))
  | case4 line => exact .line line [0x0d] [] plain (by decide) (by simp) .nil
  | case5 line tail _ ih =>
      exact .line line [0x0d, 0x0a] _ plain (by decide) (by simp) (ih (by simp [Plain]))
  | case6 line next tail notFeed _ ih =>
      refine .line line [0x0d] _ plain (by decide) (fun _ => ?_) (ih (by simp [Plain]))
      simpa [flatten_splitlinesFrom] using notFeed
  | case7 line byte rest notFeed notReturn ih =>
      apply ih
      intro other member
      rcases List.mem_append.mp member with front | last
      · exact plain other front
      · rw [List.mem_singleton.mp last]
        simp [isBreak, notFeed, notReturn]

theorem lines_splitlines (text : Bytes) : Lines (splitlines text) :=
  lines_splitlinesFrom [] text (by simp [Plain])

/-- Cutting the concatenation of a list of lines gives the list back. -/
theorem splitlines_flatten {lines : List Bytes} (wellCut : Lines lines) :
    splitlines lines.flatten = lines := by
  induction wellCut with
  | nil => rfl
  | unterminated content nonempty plain =>
      have cut := splitlinesFrom_plain [] content [] plain
      simpa [splitlines, splitlinesFrom, nonempty] using cut
  | line content terminator rest plain ends separate wellCut ih =>
      unfold splitlines at ih ⊢
      rw [List.flatten_cons, List.append_assoc, splitlinesFrom_plain _ _ _ plain, List.nil_append]
      simp only [lineBreaks, List.mem_cons, List.not_mem_nil, or_false] at ends
      rcases ends with rfl | rfl | rfl
      · simp [splitlinesFrom_feed, ih]
      · cases flat : rest.flatten with
        | nil =>
            have noLines : rest = [] := by
              rw [← ih, flat]
              rfl
            simp [splitlinesFrom, noLines]
        | cons next tail =>
            have notFeed : next ≠ 0x0a := by simpa [flat] using separate rfl
            rw [flat] at ih
            simp [splitlinesFrom, notFeed, ih]
      · simp [splitlinesFrom, ih]

theorem rstripBreaks_line (content terminator : Bytes) (plain : Plain content)
    (ends : ∀ byte ∈ terminator, isBreak byte = true) :
    rstripBreaks (content ++ terminator) = content := by
  induction terminator using List.reverseRecOn with
  | nil =>
      rw [List.append_nil, rstripBreaks, List.rdropWhile_eq_self_iff]
      intro nonempty
      simp [plain _ (List.getLast_mem nonempty)]
  | append_singleton terminator byte ih =>
      rw [rstripBreaks, ← List.append_assoc,
        List.rdropWhile_concat_pos _ _ _ (ends byte (by simp))]
      exact ih fun other member => ends other (by simp [member])

theorem lineBreaks_break {terminator : Bytes} (ends : terminator ∈ lineBreaks) :
    ∀ byte ∈ terminator, isBreak byte = true := by
  have every : (lineBreaks.all fun terminator => terminator.all isBreak) = true := by decide
  exact List.all_eq_true.mp (List.all_eq_true.mp every terminator ends)

/-- What is in front of a line's terminator, and the terminator itself. -/
theorem Lines.split {lines : List Bytes} (wellCut : Lines lines) :
    ∀ line ∈ lines, ∃ terminator, line = rstripBreaks line ++ terminator ∧
      Plain (rstripBreaks line) ∧ (terminator = [] ∨ terminator ∈ lineBreaks) := by
  induction wellCut with
  | nil => simp
  | unterminated content nonempty plain =>
      intro line member
      rw [List.mem_singleton.mp member]
      have stripped := rstripBreaks_line content [] plain (by simp)
      rw [List.append_nil] at stripped
      exact ⟨[], by simp [stripped], by rwa [stripped], .inl rfl⟩
  | line content terminator rest plain ends separate wellCut ih =>
      intro line member
      rcases List.mem_cons.mp member with rfl | later
      · have stripped := rstripBreaks_line content terminator plain (lineBreaks_break ends)
        exact ⟨terminator, by rw [stripped], by rwa [stripped], .inr ends⟩
      · exact ih line later

theorem Lines.ne_nil {lines : List Bytes} (wellCut : Lines lines) : ∀ line ∈ lines, line ≠ [] := by
  induction wellCut with
  | nil => simp
  | unterminated content nonempty _ => simpa using nonempty
  | line content terminator rest _ ends _ _ ih =>
      intro line member
      rcases List.mem_cons.mp member with rfl | later
      · intro empty
        rw [(List.append_eq_nil_iff.mp empty).2] at ends
        exact absurd ends (by decide)
      · exact ih line later

end DashTwrp.Python
