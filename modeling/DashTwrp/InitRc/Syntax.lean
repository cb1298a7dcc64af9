import Mathlib.Data.List.Basic
import Mathlib.Tactic.Common

namespace DashTwrp.InitRc

/-! The line syntax of init scripts: blank-separated words, `#` comment lines,
and sections that begin with a `service`, `on` or `import` line.

A script is read as numbered blocks.  Block 0 is what stands in front of the
first section. -/

abbrev Word := List Char

def lines (text : List Char) : List (List Char) := text.splitOn '\n'

/-- The words of a line that is not blank or a comment. -/
def activeWords (line : List Char) : List Word :=
  match (line.splitOnP fun character => character == ' ' || character == '\t').filter (· ≠ []) with
  | ('#' :: _) :: _ => []
  | words => words

def sectionKeywords : List Word := ["service".toList, "on".toList, "import".toList]

def startsSection : List Word → Bool
  | [] => false
  | keyword :: _ => sectionKeywords.contains keyword

/-- A section with its header line and the active lines below it. -/
structure Block where
  header : List Word
  options : List (List Word)
deriving DecidableEq, Repr

/-- The name of the service a block declares. -/
def Block.serviceName (block : Block) : Option Word :=
  match block.header with
  | keyword :: name :: _ => if keyword = "service".toList then some name else none
  | _ => none

/-- The blocks of some lines that go on with a block. -/
def blocksFrom (header : List Word) (options : List (List Word)) :
    List (List Char) → List Block
  | [] => [{ header, options }]
  | line :: rest =>
      let words := activeWords line
      if startsSection words then { header, options } :: blocksFrom words [] rest
      else if words = [] then blocksFrom header options rest
      else blocksFrom header (options ++ [words]) rest

def blocks (text : List Char) : List Block := blocksFrom [] [] (lines text)

/-- The section headers among some lines. -/
def headers (script : List (List Char)) : List (List Word) :=
  (script.map activeWords).filter startsSection

/-- The block in which a text ends. -/
def endBlock (text : List Char) : Nat := (headers (lines text)).length

/-- Some lines hold an option, `number` sections behind the block they go on with. -/
def HoldsOption (option : List Word) (number : Nat) (script : List (List Char)) : Prop :=
  ∃ front line back, script = front ++ line :: back ∧ activeWords line = option ∧
    (headers front).length = number

theorem lines_append_newline (front back : List Char) :
    lines (front ++ '\n' :: back) = lines front ++ lines back :=
  List.splitOnP_append_cons front back (by decide)

@[simp] theorem headers_append (front back : List (List Char)) :
    headers (front ++ back) = headers front ++ headers back := by
  simp [headers]

/-- A text ends in the same block with and without its last newline. -/
theorem endBlock_newline (text : List Char) : endBlock (text ++ ['\n']) = endBlock text := by
  have blank : headers (lines []) = [] := by decide
  rw [endBlock, lines_append_newline, headers_append, blank, List.append_nil, endBlock]

variable {option : List Word}

theorem not_holdsOption_nil (number : Nat) : ¬ HoldsOption option number [] := by
  rintro ⟨front, line, back, split, _⟩
  simp at split

theorem holdsOption_append (number : Nat) (first second : List (List Char)) :
    HoldsOption option number (first ++ second) ↔
      HoldsOption option number first ∨
        ∃ later, number = (headers first).length + later ∧ HoldsOption option later second := by
  constructor
  · rintro ⟨front, line, back, split, found, count⟩
    rcases List.append_eq_append_iff.mp split with ⟨more, rfl, rest⟩ | ⟨more, rfl, rest⟩
    · refine .inr ⟨(headers more).length, ?_, more, line, back, rest, found, rfl⟩
      rw [← count, headers_append, List.length_append]
    · cases more with
      | nil =>
          rw [List.nil_append] at rest
          refine .inr ⟨0, ?_, [], line, back, rest.symm, found, rfl⟩
          rw [← count, List.append_nil, Nat.add_zero]
      | cons head more =>
          cases rest
          exact .inl ⟨front, line, more, rfl, found, count⟩
  · rintro (⟨front, line, back, rfl, found, count⟩ |
      ⟨later, rfl, front, line, back, rfl, found, count⟩)
    · exact ⟨front, line, back ++ second, by simp, found, count⟩
    · refine ⟨first ++ front, line, back, by simp, found, ?_⟩
      rw [headers_append, List.length_append, count]

theorem holdsOption_singleton (number : Nat) (line : List Char) :
    HoldsOption option number [line] ↔ number = 0 ∧ activeWords line = option := by
  constructor
  · rintro ⟨front, other, back, split, found, count⟩
    cases front with
    | nil =>
        cases split
        exact ⟨count.symm, found⟩
    | cons head front => simp at split
  · rintro ⟨rfl, found⟩
    exact ⟨[], line, [], rfl, found, rfl⟩

theorem headers_blocksFrom (header : List Word) (options : List (List Word))
    (script : List (List Char)) :
    (blocksFrom header options script).map Block.header = header :: headers script := by
  induction script generalizing header options with
  | nil => rfl
  | cons line rest ih =>
      simp only [blocksFrom, headers, List.map_cons, List.filter_cons]
      split
      · rw [List.map_cons, ih]
        rfl
      · split <;> exact ih _ _

/-- A block has an option when it is given with it, or some line of it is the option. -/
theorem mem_options_iff (notHeader : startsSection option = false) (notBlank : option ≠ [])
    (header : List Word) (options : List (List Word)) (script : List (List Char)) (number : Nat) :
    (∃ block, (blocksFrom header options script)[number]? = some block ∧
        option ∈ block.options) ↔
      (number = 0 ∧ option ∈ options) ∨ HoldsOption option number script := by
  induction script generalizing header options number with
  | nil =>
      have none : ¬ HoldsOption option number [] := not_holdsOption_nil number
      cases number <;> simp [blocksFrom, none]
  | cons line rest ih =>
      have cut : HoldsOption option number ([line] ++ rest) ↔ HoldsOption option number [line] ∨
          ∃ later, number = (headers [line]).length + later ∧ HoldsOption option later rest :=
        holdsOption_append number [line] rest
      rw [List.singleton_append, holdsOption_singleton] at cut
      rw [cut, blocksFrom]
      by_cases starts : startsSection (activeWords line)
      · have one : (headers [line]).length = 1 := by simp [headers, starts]
        have other : activeWords line ≠ option := fun same => by
          rw [same, notHeader] at starts
          cases starts
        simp only [if_pos starts, one, other, and_false, false_or]
        cases number with
        | zero =>
            have before (later : Nat) : ¬ 0 = 1 + later := by omega
            simp [before]
        | succ number =>
            have shift (later : Nat) : number + 1 = 1 + later ↔ later = number := by omega
            simp only [List.getElem?_cons_succ, ih, shift, List.not_mem_nil, and_false, false_or,
              exists_eq_left, Nat.add_one_ne_zero, false_and]
      · have zero : (headers [line]).length = 0 := by simp [headers, starts]
        simp only [if_neg starts, zero, Nat.zero_add, exists_eq_left']
        by_cases blank : activeWords line = []
        · have other : activeWords line ≠ option := fun same => notBlank (same.symm.trans blank)
          simp only [if_pos blank, ih, other, and_false, false_or]
        · simp only [if_neg blank, ih, List.mem_append, List.mem_singleton]
          constructor
          · rintro (⟨here, given | same⟩ | later)
            · exact .inl ⟨here, given⟩
            · exact .inr (.inl ⟨here, same.symm⟩)
            · exact .inr (.inr later)
          · rintro (⟨here, given⟩ | ⟨here, same⟩ | later)
            · exact .inl ⟨here, .inl given⟩
            · exact .inl ⟨here, .inr same.symm⟩
            · exact .inr later

theorem getElem?_lastHeader (first : List Word) (front rest : List (List Word)) :
    (first :: (front ++ rest))[front.length]? = some (front.getLast?.getD first) := by
  rcases List.eq_nil_or_concat front with rfl | ⟨others, final, rfl⟩
  · rfl
  · simp

/-- A section of a kind has an option exactly when a line of it stands below such
a section's header with no other header in between. -/
theorem sectionOption_iff (kind : List Word → Prop) (untitled : ¬ kind [])
    (notHeader : startsSection option = false) (notBlank : option ≠ []) (text : List Char) :
    (∃ block ∈ blocks text, kind block.header ∧ option ∈ block.options) ↔
      ∃ front line back, lines text = front ++ line :: back ∧ activeWords line = option ∧
        ∃ header, (headers front).getLast? = some header ∧ kind header := by
  have given (number : Nat) := mem_options_iff notHeader notBlank [] [] (lines text) number
  simp only [List.not_mem_nil, and_false, false_or, show blocksFrom [] [] (lines text) = blocks text
    from rfl] at given
  have named (front : List (List Char)) (rest : List (List Char))
      (split : lines text = front ++ rest) :
      ((blocks text)[(headers front).length]?).map Block.header =
        some ((headers front).getLast?.getD []) := by
    rw [← List.getElem?_map, blocks, headers_blocksFrom, split, headers_append,
      getElem?_lastHeader]
  constructor
  · intro active
    obtain ⟨block, member, isKind, holds⟩ := active
    obtain ⟨number, found⟩ := List.mem_iff_getElem?.mp member
    obtain ⟨front, line, back, split, isOption, rfl⟩ := (given number).mp ⟨block, found, holds⟩
    have header := named front (line :: back) split
    rw [found, Option.map_some, Option.some.injEq] at header
    refine ⟨front, line, back, split, isOption, block.header, ?_, isKind⟩
    cases last : (headers front).getLast? with
    | none =>
        rw [header, last] at isKind
        exact absurd isKind untitled
    | some final => rw [header, last, Option.getD_some]
  · intro placed
    obtain ⟨front, line, back, split, isOption, header, last, isKind⟩ := placed
    obtain ⟨block, found, holds⟩ := (given (headers front).length).mpr
      ⟨front, line, back, split, isOption, rfl⟩
    have isHeader := named front (line :: back) split
    rw [found, Option.map_some, last, Option.getD_some, Option.some.injEq] at isHeader
    exact ⟨block, List.mem_of_getElem? found, isHeader ▸ isKind, holds⟩

/-- The next line is an option of a service. -/
def InService (name : Word) (front : List (List Char)) : Prop :=
  ∃ header, (headers front).getLast? = some header ∧
    Block.serviceName { header, options := [] } = some name

theorem serviceOption_iff (notHeader : startsSection option = false) (notBlank : option ≠ [])
    (text : List Char) (name : Word) :
    (∃ block ∈ blocks text, block.serviceName = some name ∧ option ∈ block.options) ↔
      ∃ front line back, lines text = front ++ line :: back ∧ activeWords line = option ∧
        InService name front :=
  sectionOption_iff (fun header => Block.serviceName { header, options := [] } = some name)
    (by simp [Block.serviceName]) notHeader notBlank text

/-- The header of a section whose lines are commands. -/
def IsAction (header : List Word) : Prop := header.head? = some "on".toList

/-- The next line is a command. -/
def InAction (front : List (List Char)) : Prop :=
  ∃ header, (headers front).getLast? = some header ∧ IsAction header

instance (front : List (List Char)) : Decidable (InAction front) :=
  decidable_of_iff ((headers front).getLast?.any (·.head? = some "on".toList) = true)
    (by simp [Option.any_eq_true, InAction, IsAction])

end DashTwrp.InitRc
