import DashTwrp.Newc.Patch

namespace DashTwrp.Newc

open DashTwrp.Python

/-! What overwriting one line does to the lines of a property file. -/

variable {wanted other old new : Bytes} {cursor hit : Nat} {lines : List Bytes}

/-- A line with its content exchanged and its terminator kept. -/
def replaceLine (old new line : Bytes) : Bytes :=
  if rstripBreaks line = old then new ++ line.drop old.length else line

theorem matchingLines_cons_of_eq (line : Bytes) (rest : List Bytes)
    (same : rstripBreaks line = wanted) :
    matchingLines wanted cursor (line :: rest) =
      cursor :: matchingLines wanted (cursor + line.length) rest := by
  simp [matchingLines, same]

theorem matchingLines_cons_of_ne (line : Bytes) (rest : List Bytes)
    (different : rstripBreaks line ≠ wanted) :
    matchingLines wanted cursor (line :: rest) =
      matchingLines wanted (cursor + line.length) rest := by
  simp [matchingLines, different]

/-- A hit is the offset of a place where the text spells the wanted line. -/
theorem matchingLines_spells (found : hit ∈ matchingLines wanted cursor lines) :
    ∃ front back, lines.flatten = front ++ wanted ++ back ∧ hit = cursor + front.length := by
  induction lines generalizing cursor with
  | nil => simp [matchingLines] at found
  | cons line rest ih =>
      have inRest : hit ∈ matchingLines wanted (cursor + line.length) rest →
          ∃ front back, (line :: rest).flatten = front ++ wanted ++ back ∧
            hit = cursor + front.length := by
        intro later
        obtain ⟨front, back, flat, position⟩ := ih later
        exact ⟨line ++ front, back, by simp [flat],
          by rw [position, List.length_append, Nat.add_assoc]⟩
      by_cases same : rstripBreaks line = wanted
      · rw [matchingLines_cons_of_eq line rest same] at found
        rcases List.mem_cons.mp found with rfl | later
        · obtain ⟨terminator, split⟩ := List.rdropWhile_prefix isBreak line
          refine ⟨[], terminator ++ rest.flatten, ?_, by simp⟩
          rw [List.flatten_cons, ← split, ← same]
          simp [rstripBreaks]
        · exact inRest later
      · rw [matchingLines_cons_of_ne line rest same] at found
        exact inRest found

theorem matchingLines_lower (found : hit ∈ matchingLines wanted cursor lines) : cursor ≤ hit := by
  obtain ⟨front, _, _, position⟩ := matchingLines_spells found
  omega

theorem length_content_le {line : Bytes} (same : rstripBreaks line = wanted) :
    wanted.length ≤ line.length :=
  same ▸ (List.rdropWhile_prefix isBreak line).length_le

/-- Hits on two different lines are places that do not overlap. -/
theorem matchingLines_apart {otherHit : Nat} (different : wanted ≠ other)
    (found : hit ∈ matchingLines wanted cursor lines)
    (otherFound : otherHit ∈ matchingLines other cursor lines) :
    hit + wanted.length ≤ otherHit ∨ otherHit + other.length ≤ hit := by
  induction lines generalizing cursor with
  | nil => simp [matchingLines] at found
  | cons line rest ih =>
      by_cases same : rstripBreaks line = wanted
      · have notOther : rstripBreaks line ≠ other := same ▸ different
        rw [matchingLines_cons_of_eq line rest same] at found
        rw [matchingLines_cons_of_ne line rest notOther] at otherFound
        rcases List.mem_cons.mp found with rfl | later
        · have behind := matchingLines_lower otherFound
          have short := length_content_le same
          omega
        · exact ih later otherFound
      · rw [matchingLines_cons_of_ne line rest same] at found
        by_cases sameOther : rstripBreaks line = other
        · rw [matchingLines_cons_of_eq line rest sameOther] at otherFound
          rcases List.mem_cons.mp otherFound with rfl | later
          · have behind := matchingLines_lower found
            have short := length_content_le sameOther
            omega
          · exact ih found later
        · rw [matchingLines_cons_of_ne line rest sameOther] at otherFound
          exact ih found otherFound

theorem map_replaceLine_of_no_hit (none : matchingLines old cursor lines = []) :
    lines.map (replaceLine old new) = lines := by
  induction lines generalizing cursor with
  | nil => rfl
  | cons line rest ih =>
      by_cases same : rstripBreaks line = old
      · rw [matchingLines_cons_of_eq line rest same] at none
        contradiction
      · rw [matchingLines_cons_of_ne line rest same] at none
        rw [List.map_cons, ih none, replaceLine, if_neg same]

/-- Overwriting the text at the only hit replaces the content of that line. -/
theorem overwrite_only_hit (new : Bytes) (only : matchingLines old cursor lines = [hit]) :
    lines.flatten.take (hit - cursor) ++ new ++ lines.flatten.drop (hit - cursor + old.length) =
      (lines.map (replaceLine old new)).flatten := by
  induction lines generalizing cursor with
  | nil => simp [matchingLines] at only
  | cons line rest ih =>
      by_cases same : rstripBreaks line = old
      · rw [matchingLines_cons_of_eq line rest same, List.cons.injEq] at only
        obtain ⟨rfl, none⟩ := only
        rw [List.map_cons, map_replaceLine_of_no_hit none, replaceLine, if_pos same]
        simp [List.drop_append_of_le_length (length_content_le same)]
      · rw [matchingLines_cons_of_ne line rest same] at only
        have behind : cursor + line.length ≤ hit := by
          have found : hit ∈ matchingLines old (cursor + line.length) rest := by
            rw [only]
            exact List.mem_singleton_self hit
          exact matchingLines_lower found
        have position : hit - cursor = line.length + (hit - (cursor + line.length)) := by omega
        rw [List.map_cons, List.flatten_cons, List.flatten_cons, ← ih only, replaceLine,
          if_neg same, position, Nat.add_assoc, List.take_length_add_append,
          List.drop_length_add_append]
        simp

theorem rstripBreaks_replaceLine (wellCut : Lines lines) (plain : Plain new) {line : Bytes}
    (member : line ∈ lines) :
    rstripBreaks (replaceLine old new line) =
      if rstripBreaks line = old then new else rstripBreaks line := by
  unfold replaceLine
  split
  · rename_i same
    obtain ⟨terminator, split, _, ends⟩ := wellCut.split line member
    have dropped : line.drop old.length = terminator := by
      rw [split, same, List.drop_left]
    rw [dropped]
    apply rstripBreaks_line new terminator plain
    rcases ends with rfl | isBreak
    · simp
    · exact lineBreaks_break isBreak
  · rfl

theorem length_replaceLine (sameLength : old.length = new.length) (line : Bytes) :
    (replaceLine old new line).length = line.length := by
  unfold replaceLine
  split
  · rename_i same
    have short := length_content_le same
    rw [List.length_append, List.length_drop]
    omega
  · rfl

/-- Replacing one line by another of its length moves no hit on a third. -/
theorem matchingLines_map_replaceLine (wellCut : Lines lines) (plain : Plain new)
    (sameLength : old.length = new.length) (notOld : wanted ≠ old) (notNew : wanted ≠ new) :
    matchingLines wanted cursor (lines.map (replaceLine old new)) =
      matchingLines wanted cursor lines := by
  have contents : ∀ line ∈ lines,
      (rstripBreaks (replaceLine old new line) = wanted ↔ rstripBreaks line = wanted) := by
    intro line member
    rw [rstripBreaks_replaceLine wellCut plain member]
    split
    · rename_i same
      exact ⟨fun equal => absurd equal.symm notNew, fun equal => absurd (equal.symm.trans same) notOld⟩
    · rfl
  clear wellCut
  induction lines generalizing cursor with
  | nil => rfl
  | cons line rest ih =>
      simp only [List.map_cons, matchingLines, length_replaceLine sameLength,
        ih fun other member => contents other (by simp [member]), contents line (by simp)]

/-- A list of lines stays one when the content of some lines is replaced. -/
theorem lines_map_replaceLine (wellCut : Lines lines) (plain : Plain new) (nonempty : new ≠ []) :
    Lines (lines.map (replaceLine old new)) := by
  induction wellCut with
  | nil => exact .nil
  | unterminated content contentNonempty contentPlain =>
      have stripped := rstripBreaks_line content [] contentPlain (by simp)
      rw [List.append_nil] at stripped
      rw [List.map_singleton, replaceLine, stripped]
      split
      · rename_i same
        simpa [← same] using Lines.unterminated new nonempty plain
      · exact .unterminated content contentNonempty contentPlain
  | line content terminator rest contentPlain ends separate wellCut ih =>
      have stripped := rstripBreaks_line content terminator contentPlain (lineBreaks_break ends)
      have stillSeparate : terminator = [0x0d] →
          (rest.map (replaceLine old new)).flatten.head? ≠ some 0x0a := by
        intro carriageReturn
        cases rest with
        | nil => simp
        | cons next later =>
            have nextNonempty := wellCut.ne_nil next (by simp)
            have notFeed := separate carriageReturn
            rw [List.flatten_cons, List.head?_append_of_ne_nil _ nextNonempty] at notFeed
            rw [List.map_cons, List.flatten_cons, replaceLine]
            split
            · cases new with
              | nil => contradiction
              | cons first tail =>
                  have noBreak := plain first (by simp)
                  simp only [isBreak, Bool.or_eq_false_iff, beq_eq_false_iff_ne] at noBreak
                  simpa using noBreak.1
            · rwa [List.head?_append_of_ne_nil _ nextNonempty]
      rw [List.map_cons, replaceLine, stripped]
      split
      · rename_i same
        have dropped : (content ++ terminator).drop old.length = terminator := by
          rw [← same, List.drop_left]
        rw [dropped]
        exact .line new terminator _ plain ends stillSeparate ih
      · exact .line content terminator _ contentPlain ends stillSeparate ih

end DashTwrp.Newc
