import DashTwrp.Python.Text

namespace DashTwrp.Python

/-! `str.splitlines`, `str.split` and the prefix and substring tests on texts. -/

/-- The characters that end a line, among them the vertical tab and the form feed. -/
def isLineBoundary (character : Char) : Bool :=
  let code := character.toNat
  10 ≤ code && code ≤ 13 || 28 ≤ code && code ≤ 30 || [0x85, 0x2028, 0x2029].contains code

def textLinesFrom (line : List Char) : List Char → List (List Char)
  | [] => if line = [] then [] else [line]
  | '\r' :: '\n' :: rest => line :: textLinesFrom [] rest
  | character :: rest =>
      if isLineBoundary character then line :: textLinesFrom [] rest
      else textLinesFrom (line ++ [character]) rest

/-- `text.splitlines()` -/
def textLines (text : List Char) : List (List Char) := textLinesFrom [] text

/-- `text.split()` -/
def words (text : List Char) : List (List Char) :=
  (text.splitOnP isTextSpace).filter (· ≠ [])

/-- `text.lstrip()` -/
def lstrip (text : List Char) : List Char := text.dropWhile isTextSpace

/-- `text.rsplit(separator, 1)[-1]` -/
def afterLast (separator : Char) (text : List Char) : List Char :=
  ((text.splitOn separator).getLast?).getD []

/-- The text of a file with the given lines. -/
def unlines (lines : List (List Char)) : List Char := lines.flatMap (· ++ ['\n'])

theorem textLinesFrom_part (line : List Char) {rest text : List Char} (start : line ++ rest <:+: text) :
    ∀ found ∈ textLinesFrom line rest, found <:+: text := by
  fun_induction textLinesFrom line rest with
  | case1 => simp
  | case2 line nonempty => simpa using start
  | case3 line rest ih =>
      intro found member
      cases member with
      | head => exact (List.infix_append' [] line _).trans (by simpa using start)
      | tail _ later =>
          refine ih (List.IsInfix.trans ?_ start) found later
          exact ⟨line ++ ['\r', '\n'], [], by simp⟩
  | case4 line character rest _ boundary ih =>
      intro found member
      cases member with
      | head => exact (List.infix_append' [] line _).trans (by simpa using start)
      | tail _ later =>
          refine ih (List.IsInfix.trans ?_ start) found later
          exact ⟨line ++ [character], [], by simp⟩
  | case5 line character rest _ inside ih => exact ih (by simpa using start)

/-- A line is a part of its text. -/
theorem textLines_part {text line : List Char} (member : line ∈ textLines text) :
    line <:+: text :=
  textLinesFrom_part [] (List.infix_refl text) line member

theorem textLinesFrom_plain {content : List Char}
    (plain : ∀ character ∈ content, isLineBoundary character = false) (line rest : List Char) :
    textLinesFrom line (content ++ '\n' :: rest) = (line ++ content) :: textLinesFrom [] rest := by
  induction content generalizing line with
  | nil => simp [textLinesFrom, isLineBoundary]
  | cons character content ih =>
      have inside := plain character (by simp)
      have notReturn : character ≠ '\r' := by
        rintro rfl
        exact absurd inside (by decide)
      rw [List.cons_append, textLinesFrom.eq_3 _ _ _ fun _ same _ => notReturn same, inside,
        if_neg (by simp), ih fun other member => plain other (by simp [member])]
      simp

/-- A text that was put together from lines is cut into them. -/
theorem textLines_unlines {lines : List (List Char)}
    (plain : (lines.all fun line => line.all (!isLineBoundary ·)) = true) :
    textLines (unlines lines) = lines := by
  induction lines with
  | nil => rfl
  | cons line rest ih =>
      rw [List.all_cons, Bool.and_eq_true, List.all_eq_true] at plain
      have later := ih plain.2
      have inside : ∀ character ∈ line, isLineBoundary character = false :=
        fun character member => by simpa using plain.1 character member
      rw [textLines, unlines, List.flatMap_cons, List.append_assoc, List.singleton_append,
        textLinesFrom_plain inside, List.nil_append]
      exact congrArg _ later

/-- A property of literal lines follows from the same property of their characters. -/
theorem of_literal_lines {P : List (List Char) → Prop} {lines : List String}
    (characters : List (List Char)) (same : lines = characters.map String.ofList)
    (holds : P characters) : P (lines.map String.toList) := by
  have each : String.toList ∘ String.ofList = id := by
    funext text
    exact String.toList_ofList
  rw [same, List.map_map, each, List.map_id]
  exact holds

theorem literal_cons {line : String} {characters : List Char} {lines : List String}
    {rest : List (List Char)} (first : line = String.ofList characters)
    (later : lines = rest.map String.ofList) :
    line :: lines = (characters :: rest).map String.ofList := by
  rw [first, later, List.map_cons]

end DashTwrp.Python
