import DashTwrp.InitRc.Syntax
import DashTwrp.Python.Replace
import DashTwrp.Python.Text

namespace DashTwrp.InitRc

open DashTwrp.Python

/-! The edit of the stock `init.rc` by the fragment tool.

The tool inserts the line behind every occurrence of two lines, wherever they
stand, when the text has that occurrence and does not have the line's text. -/

/-- `old` -/
def marker : List Char := "    seclabel u:r:recovery:s0\n    user root\n".toList

/-- `setenv_line` -/
def setenvLine : List Char :=
  "    setenv LD_LIBRARY_PATH /system/lib64/twrp16:/system/lib64\n".toList

/-- `setenv_line.strip()` -/
def setenvText : List Char :=
  "setenv LD_LIBRARY_PATH /system/lib64/twrp16:/system/lib64".toList

/-- `old in c and setenv_line.strip() not in c` -/
def editGuard (c : List Char) : Prop := marker <:+: c ∧ ¬ setenvText <:+: c

instance (c : List Char) : Decidable (editGuard c) :=
  inferInstanceAs (Decidable (marker <:+: c ∧ ¬ setenvText <:+: c))

/-- The text written back for the text that was read. -/
def editText (c : List Char) : List Char :=
  if editGuard c then replace marker (marker ++ setenvLine) c else c

/-- The edit of a file with the given characters. -/
def editInitRc (raw : List Char) : List Char := editText (universalNewlines raw)

/-- The words of the inserted line. -/
def setenvWords : List Word :=
  ["setenv".toList, "LD_LIBRARY_PATH".toList, "/system/lib64/twrp16:/system/lib64".toList]

def recovery : Word := "recovery".toList

/-- The line is active in the block of service recovery, and of the other
services only in those that had it before. -/
structure SetenvPlaced (before after : List Char) : Prop where
  active : ∃ block ∈ blocks after, block.serviceName = some recovery ∧ setenvWords ∈ block.options
  nowhereElse : ∀ (number : Nat) (block : Block) (name : Word),
    (blocks after)[number]? = some block → block.serviceName = some name → name ≠ recovery →
      setenvWords ∈ block.options →
        ∃ old, (blocks before)[number]? = some old ∧ setenvWords ∈ old.options

/-- An occurrence of the marker ends in a block. -/
def MarkerEndsIn (c : List Char) (block : Block) : Prop :=
  ∃ front rest, c = front ++ marker ++ rest ∧
    (blocks c)[endBlock (front ++ marker)]? = some block

theorem marker_unbordered : Unbordered marker := by
  have none : ∀ shift < marker.length, 0 < shift → ¬ marker.drop shift <+: marker := by
    decide +kernel
  exact fun shift positive inside => none shift inside positive

theorem marker_ne_nil : marker ≠ [] := by decide

/-- The two lines of the marker without the last newline. -/
def markerLines : List Char := "    seclabel u:r:recovery:s0\n    user root".toList

theorem marker_eq : marker = markerLines ++ ['\n'] := by decide

theorem setenvLine_lines (rest : List Char) :
    lines (setenvLine ++ rest) = setenvLine.dropLast :: lines rest := by
  have split : setenvLine ++ rest = setenvLine.dropLast ++ '\n' :: rest := by
    have ends : setenvLine = setenvLine.dropLast ++ ['\n'] := by decide
    rw [ends, List.append_assoc, List.dropLast_concat]
    rfl
  have single : lines setenvLine.dropLast = [setenvLine.dropLast] := by decide +kernel
  rw [split, lines_append_newline, single, List.singleton_append]

theorem setenvLine_words : activeWords setenvLine.dropLast = setenvWords := by decide +kernel

theorem setenvWords_option : startsSection setenvWords = false ∧ setenvWords ≠ [] := by decide

/-- The lines of a text cut behind an occurrence of the marker. -/
theorem lines_behind_marker (front rest : List Char) :
    lines (front ++ marker ++ rest) = lines (front ++ markerLines) ++ lines rest := by
  rw [marker_eq, ← lines_append_newline]
  simp

/-- The block in which a later occurrence ends, counted from an earlier one. -/
theorem endBlock_behind_marker (front rest : List Char) :
    endBlock (front ++ marker ++ rest) =
      (headers (lines (front ++ markerLines))).length + endBlock rest := by
  rw [endBlock, lines_behind_marker, headers_append, List.length_append, endBlock]

theorem endBlock_marker (front : List Char) :
    endBlock (front ++ marker) = (headers (lines (front ++ markerLines))).length := by
  rw [marker_eq, ← List.append_assoc, endBlock_newline, endBlock]

/-- The replacement keeps the sections, and adds the line to the blocks in which
the marker ends. -/
theorem replace_marker (c : List Char) :
    headers (lines (replace marker (marker ++ setenvLine) c)) = headers (lines c) ∧
      ∀ number, HoldsOption setenvWords number
          (lines (replace marker (marker ++ setenvLine) c)) ↔
        HoldsOption setenvWords number (lines c) ∨
          ∃ front rest, c = front ++ marker ++ rest ∧ number = endBlock (front ++ marker) := by
  induction c using occurrence_induction marker_ne_nil with
  | absent c absent =>
      rw [replace_of_absent absent]
      refine ⟨rfl, fun number => ⟨.inl, ?_⟩⟩
      rintro (given | ⟨front, rest, rfl, _⟩)
      · exact given
      · exact absurd (List.infix_append front marker rest) absent
  | found front rest none ih =>
      obtain ⟨sameHeaders, holds⟩ := ih
      have replaced : replace marker (marker ++ setenvLine) (front ++ marker ++ rest) =
          front ++ marker ++ (setenvLine ++ replace marker (marker ++ setenvLine) rest) := by
        rw [List.append_assoc] at none ⊢
        rw [replace_append_of_none none, replace_old_append marker_ne_nil]
        simp only [List.append_assoc]
      have noHeader : headers [setenvLine.dropLast] = [] := by decide +kernel
      rw [replaced, lines_behind_marker, lines_behind_marker, setenvLine_lines,
        ← List.singleton_append]
      constructor
      · simp only [headers_append, noHeader, List.nil_append, sameHeaders]
      · intro number
        simp only [holdsOption_append, holdsOption_singleton, setenvLine_words, noHeader,
          List.length_nil, Nat.zero_add, exists_eq_left', holds, and_true,
          occurrences_iff marker_unbordered none]
        constructor
        · rintro (given | ⟨later, rfl, rfl | given | ⟨between, back, rfl, rfl⟩⟩)
          · exact .inl (.inl given)
          · exact .inr ⟨front, rest, .inl ⟨rfl, rfl⟩, (endBlock_marker front).symm⟩
          · exact .inl (.inr ⟨later, rfl, given⟩)
          · refine .inr ⟨front ++ marker ++ between, back, .inr ⟨between, rfl, rfl⟩, ?_⟩
            rw [List.append_assoc _ between, endBlock_behind_marker]
        · rintro ((given | ⟨later, rfl, given⟩) |
            ⟨_, _, ⟨rfl, rfl⟩ | ⟨between, rfl, rfl⟩, rfl⟩)
          · exact .inl given
          · exact .inr ⟨later, rfl, .inr (.inl given)⟩
          · exact .inr ⟨0, endBlock_marker _, .inl rfl⟩
          · refine .inr ⟨_, ?_, .inr (.inr ⟨between, _, rfl, rfl⟩)⟩
            rw [List.append_assoc _ between, endBlock_behind_marker]

/-- A block with a number declares a service. -/
def ServiceAt (c : List Char) (number : Nat) (name : Word) : Prop :=
  ∃ block, (blocks c)[number]? = some block ∧ block.serviceName = some name

theorem holdsOption_iff (c : List Char) (number : Nat) :
    (∃ block, (blocks c)[number]? = some block ∧ setenvWords ∈ block.options) ↔
      HoldsOption setenvWords number (lines c) := by
  have given := mem_options_iff setenvWords_option.1 setenvWords_option.2 [] [] (lines c) number
  simp only [List.not_mem_nil, and_false, false_or] at given
  exact given

/-- Texts with the same sections declare the same services. -/
theorem serviceAt_congr {before after : List Char}
    (sameHeaders : headers (lines after) = headers (lines before)) (number : Nat) (name : Word) :
    ServiceAt after number name ↔ ServiceAt before number name := by
  have named (c : List Char) : ServiceAt c number name ↔
      ∃ header, (([] : List Word) :: headers (lines c))[number]? = some header ∧
        Block.serviceName { header, options := [] } = some name := by
    rw [← headers_blocksFrom [] [] (lines c), List.getElem?_map]
    constructor
    · rintro ⟨block, found, service⟩
      exact ⟨block.header, by rw [← blocks, found]; rfl, service⟩
    · rintro ⟨header, found, service⟩
      obtain ⟨block, here, rfl⟩ := Option.map_eq_some_iff.mp found
      exact ⟨block, here, service⟩
  rw [named, named, sameHeaders]

/-- What the placement of the line says of block numbers. -/
theorem setenvPlaced_iff {before after : List Char}
    (sameHeaders : headers (lines after) = headers (lines before)) :
    SetenvPlaced before after ↔
      (∃ number, ServiceAt before number recovery ∧
        HoldsOption setenvWords number (lines after)) ∧
      ∀ number name, ServiceAt before number name → name ≠ recovery →
        HoldsOption setenvWords number (lines after) →
          HoldsOption setenvWords number (lines before) := by
  constructor
  · intro placed
    constructor
    · obtain ⟨block, member, service, given⟩ := placed.active
      obtain ⟨number, found⟩ := List.mem_iff_getElem?.mp member
      exact ⟨number, (serviceAt_congr sameHeaders _ _).mp ⟨block, found, service⟩,
        (holdsOption_iff _ _).mp ⟨block, found, given⟩⟩
    · intro number name service other holds
      obtain ⟨block, found, named⟩ := (serviceAt_congr sameHeaders _ _).mpr service
      obtain ⟨same, sameFound, given⟩ := (holdsOption_iff _ _).mpr holds
      rw [found] at sameFound
      cases sameFound
      exact (holdsOption_iff _ _).mp (placed.nowhereElse number block name found named other given)
  · rintro ⟨⟨number, service, holds⟩, elsewhere⟩
    constructor
    · obtain ⟨block, found, named⟩ := (serviceAt_congr sameHeaders _ _).mpr service
      obtain ⟨same, sameFound, given⟩ := (holdsOption_iff _ _).mpr holds
      rw [found] at sameFound
      cases sameFound
      exact ⟨block, List.mem_of_getElem? found, named, given⟩
    · intro number block name found named other given
      exact (holdsOption_iff _ _).mpr (elsewhere number name
        ((serviceAt_congr sameHeaders _ _).mp ⟨block, found, named⟩) other
        ((holdsOption_iff _ _).mp ⟨block, found, given⟩))

/-- The edit places the line exactly when service recovery has it already or is
given it behind a marker, and no marker stands in another service without it. -/
theorem editInitRc_places_setenv_iff (raw : List Char) :
    SetenvPlaced (universalNewlines raw) (editInitRc raw) ↔
      ((∃ block ∈ blocks (universalNewlines raw),
          block.serviceName = some recovery ∧ setenvWords ∈ block.options) ∨
        editGuard (universalNewlines raw) ∧
          ∃ block, MarkerEndsIn (universalNewlines raw) block ∧
            block.serviceName = some recovery) ∧
      (editGuard (universalNewlines raw) →
        ∀ block name, MarkerEndsIn (universalNewlines raw) block →
          block.serviceName = some name → name ≠ recovery → setenvWords ∈ block.options) := by
  unfold editInitRc
  generalize universalNewlines raw = c
  have already : (∃ block ∈ blocks c,
      block.serviceName = some recovery ∧ setenvWords ∈ block.options) ↔
        ∃ number, ServiceAt c number recovery ∧ HoldsOption setenvWords number (lines c) := by
    constructor
    · rintro ⟨block, member, service, given⟩
      obtain ⟨number, found⟩ := List.mem_iff_getElem?.mp member
      exact ⟨number, ⟨block, found, service⟩, (holdsOption_iff _ _).mp ⟨block, found, given⟩⟩
    · rintro ⟨number, ⟨block, found, service⟩, holds⟩
      obtain ⟨same, sameFound, given⟩ := (holdsOption_iff _ _).mpr holds
      rw [found] at sameFound
      cases sameFound
      exact ⟨block, List.mem_of_getElem? found, service, given⟩
  rw [already]
  by_cases guarded : editGuard c
  · obtain ⟨sameHeaders, holds⟩ := replace_marker c
    rw [editText, if_pos guarded, setenvPlaced_iff sameHeaders]
    simp only [guarded, true_and, true_implies, holds]
    constructor
    · rintro ⟨⟨number, service, given | ⟨front, rest, split, rfl⟩⟩, elsewhere⟩ <;>
        refine ⟨?_, ?_⟩
      case inl.refine_1 => exact .inl ⟨number, service, given⟩
      case inr.refine_1 =>
        obtain ⟨block, found, named⟩ := service
        exact .inr ⟨block, ⟨front, rest, split, found⟩, named⟩
      all_goals
        rintro block name ⟨front, rest, split, found⟩ named other
        have kept := elsewhere _ name ⟨block, found, named⟩ other (.inr ⟨front, rest, split, rfl⟩)
        obtain ⟨same, sameFound, given⟩ := (holdsOption_iff _ _).mpr kept
        rw [found] at sameFound
        cases sameFound
        exact given
    · rintro ⟨placed, elsewhere⟩
      constructor
      · rcases placed with ⟨number, service, given⟩ | ⟨block, ⟨front, rest, split, found⟩, named⟩
        · exact ⟨number, service, .inl given⟩
        · exact ⟨_, ⟨block, found, named⟩, .inr ⟨front, rest, split, rfl⟩⟩
      · rintro number name ⟨block, found, named⟩ other (given | ⟨front, rest, split, rfl⟩)
        · exact given
        · exact (holdsOption_iff _ _).mp ⟨block, found,
            elsewhere block name ⟨front, rest, split, found⟩ named other⟩
  · rw [editText, if_neg guarded, setenvPlaced_iff rfl]
    simp only [guarded, false_and, or_false, false_implies, and_true]
    exact ⟨fun placed => placed.1, fun placed => ⟨placed, fun _ _ _ _ holds => holds⟩⟩

/-- A stock script with the two lines of service recovery in the other order. -/
def userFirstScript : List Char :=
  ("service recovery /system/bin/recovery\n" ++
    "    socket recovery stream 422 system system\n" ++
    "    user root\n" ++
    "    seclabel u:r:recovery:s0\n").toList

/-- Such a script is left without the line. -/
theorem editInitRc_misses_userFirstScript :
    (∃ block ∈ blocks userFirstScript, block.serviceName = some recovery ∧
      ["seclabel".toList, "u:r:recovery:s0".toList] ∈ block.options ∧
      ["user".toList, "root".toList] ∈ block.options) ∧
    ¬ SetenvPlaced (universalNewlines userFirstScript) (editInitRc userFirstScript) := by
  refine ⟨by decide +kernel, fun placed => ?_⟩
  have none : ¬ ∃ block ∈ blocks (editInitRc userFirstScript),
      block.serviceName = some recovery ∧ setenvWords ∈ block.options := by decide +kernel
  exact none placed.active

end DashTwrp.InitRc
