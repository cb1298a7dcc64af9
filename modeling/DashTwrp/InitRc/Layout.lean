import DashTwrp.InitRc.Syntax
import DashTwrp.Python.Words
import Mathlib.Data.List.TakeWhile

namespace DashTwrp.InitRc

open DashTwrp.Python

/-! Where the words of a script stand in its text. -/

def isBlank (character : Char) : Bool := character == ' ' || character == '\t'

/-- Only blanks and tabs. -/
def Blank (text : List Char) : Prop := ∀ character ∈ text, isBlank character = true

/-- A text without blanks and tabs that is not empty. -/
structure Solid (word : Word) : Prop where
  nonempty : word ≠ []
  noBlank : ∀ character ∈ word, isBlank character = false

/-- Nothing goes on behind a word. -/
def EndsWord (back : List Char) : Prop := ∀ character, back.head? = some character →
  isBlank character = true

/-- The words of a line, comment or not. -/
def fields (line : List Char) : List Word := (line.splitOnP isBlank).filter (· ≠ [])

variable {front back line : List Char} {word : Word} {words : List Word}

theorem activeWords_eq (line : List Char) :
    activeWords line = match fields line with
      | ('#' :: _) :: _ => []
      | words => words := rfl

theorem fields_blank_cons {character : Char} (blank : isBlank character = true)
    (line : List Char) : fields (character :: line) = fields line := by
  simp [fields, List.splitOnP_cons_eq_if_modifyHead, blank]

theorem fields_blank (blank : Blank front) (line : List Char) :
    fields (front ++ line) = fields line := by
  induction front with
  | nil => rfl
  | cons character front ih =>
      rw [List.cons_append, fields_blank_cons (blank character (by simp)),
        ih fun other member => blank other (by simp [member])]

theorem fields_eq_nil (blank : Blank line) : fields line = [] := by
  have all := fields_blank blank []
  rw [List.append_nil] at all
  rw [all]
  simp [fields]

theorem fields_solid (solid : Solid word) (ends : EndsWord back) :
    fields (word ++ back) = word :: fields back := by
  have whole : word.splitOnP isBlank = [word] := List.splitOnP_eq_singleton solid.noBlank
  cases back with
  | nil => simp [fields, whole, solid.nonempty]
  | cons character back =>
      have blank := ends character rfl
      rw [fields_blank_cons blank, fields, List.splitOnP_append_cons _ _ blank, whole,
        List.singleton_append, List.filter_cons_of_pos (by simpa using solid.nonempty), fields]

/-- A line is blank or has a first word. -/
theorem blank_or_word (line : List Char) : Blank line ∨
    ∃ front word back, line = front ++ word ++ back ∧ Blank front ∧ Solid word ∧ EndsWord back := by
  have cut := List.takeWhile_append_dropWhile (p := isBlank) (l := line)
  have blank : Blank (line.takeWhile isBlank) := fun _ member => List.mem_takeWhile_imp member
  cases behind : line.dropWhile isBlank with
  | nil =>
      rw [behind, List.append_nil] at cut
      exact .inl (cut ▸ blank)
  | cons character tail =>
      have solidHead : isBlank character = false := by
        have stops := List.head?_dropWhile_not isBlank line
        rw [behind] at stops
        simpa using stops
      have inner := List.takeWhile_append_dropWhile (p := (!isBlank ·)) (l := character :: tail)
      have solid : Solid ((character :: tail).takeWhile (!isBlank ·)) := by
        refine ⟨by simp [solidHead], fun other member => ?_⟩
        simpa using List.mem_takeWhile_imp member
      have ends : EndsWord ((character :: tail).dropWhile (!isBlank ·)) := by
        intro other first
        have stops := List.head?_dropWhile_not (!isBlank ·) (character :: tail)
        rw [first] at stops
        simpa using stops
      refine .inr ⟨_, _, _, ?_, blank, solid, ends⟩
      rw [List.append_assoc, inner, ← behind, cut]

/-- The first word of a line stands behind blanks and in front of a blank. -/
theorem fields_eq_cons_iff : fields line = word :: words ↔
    ∃ front back, line = front ++ word ++ back ∧ Blank front ∧ Solid word ∧ EndsWord back ∧
      fields back = words := by
  constructor
  · intro found
    rcases blank_or_word line with blank | ⟨front, first, back, rfl, blank, solid, ends⟩
    · rw [fields_eq_nil blank] at found
      cases found
    · rw [List.append_assoc, fields_blank blank, fields_solid solid ends] at found
      cases found
      exact ⟨front, back, rfl, blank, solid, ends, rfl⟩
  · intro layout
    obtain ⟨front, back, rfl, blank, solid, ends, rfl⟩ := layout
    rw [List.append_assoc, fields_blank blank, fields_solid solid ends]

theorem fields_eq_nil_iff : fields line = [] ↔ Blank line := by
  refine ⟨fun none => ?_, fields_eq_nil⟩
  rcases blank_or_word line with blank | ⟨front, first, back, rfl, blank, solid, ends⟩
  · exact blank
  · rw [List.append_assoc, fields_blank blank, fields_solid solid ends] at none
    cases none

/-- The words of an active line are its fields. -/
theorem activeWords_eq_cons_iff (notComment : word.head? ≠ some '#') :
    activeWords line = word :: words ↔ fields line = word :: words := by
  rw [activeWords_eq]
  split
  · rename_i tail others found
    rw [found]
    refine iff_of_false (by simp) fun same => ?_
    cases same
    exact notComment rfl
  · rfl

theorem solid_of_all (nonempty : word ≠ []) (solid : word.all (!isBlank ·) = true) :
    Solid word :=
  ⟨nonempty, fun character member => by simpa using List.all_eq_true.mp solid character member⟩

theorem endsWord_of_blank (blank : Blank back) : EndsWord back :=
  fun character first => blank character (List.mem_of_mem_head? first)

/-- A line spells two words, with a text behind the second. -/
def Spells (line : List Char) (first second : Word) (back : List Char) : Prop :=
  ∃ front gap, Blank front ∧ Blank gap ∧ gap ≠ [] ∧ line = front ++ first ++ gap ++ second ++ back

/-- A text stands behind the blanks of a line. -/
def Begins (token line : List Char) : Prop :=
  ∃ front back, Blank front ∧ line = front ++ token ++ back

section

variable {first second : Word}

/-- The two first words of a line are the ones it spells. -/
theorem fields_eq_two_iff (firstSolid : Solid first) (secondSolid : Solid second) :
    fields line = first :: second :: words ↔
      ∃ back, Spells line first second back ∧ EndsWord back ∧ fields back = words := by
  constructor
  · intro found
    obtain ⟨front, rest, rfl, blank, _, ends, later⟩ := fields_eq_cons_iff.mp found
    obtain ⟨gap, back, rfl, gapBlank, _, endsSecond, rfl⟩ := fields_eq_cons_iff.mp later
    refine ⟨back, ⟨front, gap, blank, gapBlank, ?_, by simp⟩, endsSecond, rfl⟩
    rintro rfl
    cases spelled : second with
    | nil => exact secondSolid.nonempty spelled
    | cons character second =>
        have solid := secondSolid.noBlank character (by simp [spelled])
        rw [ends character (by simp [spelled])] at solid
        cases solid
  · intro spelled
    obtain ⟨back, ⟨front, gap, blank, gapBlank, nonempty, rfl⟩, ends, rfl⟩ := spelled
    have endsFirst : EndsWord (gap ++ second ++ back) := by
      cases gap with
      | nil => exact absurd rfl nonempty
      | cons character gap =>
          intro other found
          cases found
          exact gapBlank character List.mem_cons_self
    refine fields_eq_cons_iff.mpr ⟨front, gap ++ second ++ back, by simp, blank, firstSolid,
      endsFirst, fields_eq_cons_iff.mpr ⟨gap, back, rfl, gapBlank, secondSolid, ends, rfl⟩⟩

/-- A line of two words alone. -/
theorem activeWords_eq_pair_iff (firstSolid : Solid first) (secondSolid : Solid second)
    (notComment : first.head? ≠ some '#') :
    activeWords line = [first, second] ↔ ∃ back, Spells line first second back ∧ Blank back := by
  rw [activeWords_eq_cons_iff notComment, fields_eq_two_iff firstSolid secondSolid]
  constructor
  · intro found
    obtain ⟨back, spelled, -, none⟩ := found
    exact ⟨back, spelled, fields_eq_nil_iff.mp none⟩
  · intro found
    obtain ⟨back, spelled, blank⟩ := found
    exact ⟨back, spelled, endsWord_of_blank blank, fields_eq_nil_iff.mpr blank⟩

end

/-! ### The lines of a text -/

/-- A place where a text is found: on a line behind `above`, between `front` and `behind`. -/
def Mentions (token text : List Char) (above : List (List Char)) (front behind : List Char) :
    Prop :=
  ∃ below, lines text = above ++ (front ++ token ++ behind) :: below


/-- A text is one line, or its first line with its newline and a rest. -/
theorem one_line_or_more (text : List Char) : lines text = [text] ∨
    ∃ first rest, text = first ++ '\n' :: rest ∧ lines text = first :: lines rest := by
  induction text with
  | nil => exact .inl rfl
  | cons character text ih =>
      have cut : lines (character :: text) = if character == '\n' then [] :: lines text
          else (lines text).modifyHead (List.cons character) := by
        simp only [lines, List.splitOn_eq_splitOnP, List.splitOnP_cons_eq_if_modifyHead]
      by_cases newline : character = '\n'
      · subst newline
        exact .inr ⟨[], text, rfl, by rw [cut, if_pos (by simp)]⟩
      · rw [if_neg (by simpa using newline)] at cut
        rcases ih with single | ⟨first, rest, rfl, found⟩
        · exact .inl (by rw [cut, single, List.modifyHead_cons])
        · exact .inr ⟨character :: first, rest, rfl, by rw [cut, found, List.modifyHead_cons]⟩

/-- The place of a line in its text, behind the lines in front of it. -/
theorem line_position {text line : List Char} {before after : List (List Char)}
    (cut : lines text = before ++ line :: after) :
    ∃ rest, text = unlines before ++ line ++ rest ∧ (after ≠ [] → ∃ more, rest = '\n' :: more) := by
  induction before generalizing text with
  | nil =>
      rcases one_line_or_more text with single | ⟨first, rest, rfl, found⟩
      · rw [single] at cut
        cases cut
        exact ⟨[], by simp [unlines], fun more => absurd rfl more⟩
      · rw [found] at cut
        cases cut
        exact ⟨'\n' :: rest, by simp [unlines], fun _ => ⟨rest, rfl⟩⟩
  | cons first before ih =>
      rcases one_line_or_more text with single | ⟨head, rest, rfl, found⟩
      · rw [single] at cut
        cases before <;> cases cut
      · rw [found] at cut
        obtain ⟨rfl, later⟩ := List.cons.inj cut
        obtain ⟨back, rfl, goesOn⟩ := ih later
        exact ⟨back, by simp [unlines], goesOn⟩

theorem prefix_in_line {token front back : List Char} (noNewline : '\n' ∉ token)
    (occurs : token <+: front ++ '\n' :: back) : token <+: front := by
  have whole : front ++ ['\n'] <+: front ++ '\n' :: back := ⟨back, by simp⟩
  rcases List.prefix_or_prefix_of_prefix occurs whole with inside | beyond
  · rcases List.prefix_concat_iff.mp inside with rfl | inFront
    · exact absurd (by simp) noNewline
    · exact inFront
  · exact absurd (beyond.subset (by simp)) noNewline

/-- An occurrence that begins in the lines in front of a place lies in one of them. -/
theorem occurrence_in_line {token back : List Char} {before : List (List Char)} {position : Nat}
    (noNewline : '\n' ∉ token) (inFront : position < (unlines before).length)
    (occurs : token <+: (unlines before ++ back).drop position) :
    ∃ line ∈ before, token <:+: line := by
  induction before generalizing position with
  | nil => exact absurd inFront (Nat.not_lt_zero _)
  | cons first before ih =>
      have text : unlines (first :: before) ++ back = first ++ '\n' :: (unlines before ++ back) := by
        simp [unlines]
      have size : (unlines (first :: before)).length = first.length + 1 + (unlines before).length := by
        rw [unlines, List.flatMap_cons, List.length_append, List.length_append, unlines]
        rfl
      rw [text] at occurs
      by_cases inFirst : position ≤ first.length
      · rw [List.drop_append_of_le_length inFirst] at occurs
        have inLine := prefix_in_line noNewline occurs
        exact ⟨first, List.mem_cons_self, inLine.isInfix.trans (List.drop_suffix _ _).isInfix⟩
      · obtain ⟨later, rfl⟩ := Nat.exists_eq_add_of_le (Nat.succ_le_of_lt (Nat.not_le.mp inFirst))
        have here : first.length + 1 = (first ++ ['\n']).length := by simp
        rw [List.append_cons, Nat.succ_eq_add_one, here, List.drop_length_add_append] at occurs
        obtain ⟨line, member, inLine⟩ := ih (by omega) occurs
        exact ⟨line, List.mem_cons_of_mem _ member, inLine⟩

end DashTwrp.InitRc
