import DashTwrp.Newc.PropertyLines

namespace DashTwrp.Newc

open DashTwrp.Python

/-! The offsets `count_exact_lines` returns, without the lines it walks over. -/

variable {wanted data : Bytes} {position : Nat}

/-- A CR or LF stands at `data[index]`. -/
def BreakAt (data : Bytes) (index : Nat) : Prop :=
  ∃ byte, data[index]? = some byte ∧ isBreak byte = true

/-- `data` spells `wanted` from an offset on, with a line end on both sides. -/
structure ExactLineAt (data wanted : Bytes) (position : Nat) : Prop where
  spells : slice data position (position + wanted.length : Nat) = wanted
  starts : position = 0 ∨ BreakAt data (position - 1)
  ends : position + wanted.length = data.length ∨ BreakAt data (position + wanted.length)

theorem breakAt_append_right (front back : Bytes) (index : Nat) :
    BreakAt (front ++ back) (front.length + index) ↔ BreakAt back index := by
  simp only [BreakAt, List.getElem?_append_right (Nat.le_add_right _ _), Nat.add_sub_cancel_left]

theorem not_breakAt_of_plain {content : Bytes} (plain : Plain content) (index : Nat)
    (inside : index < content.length) (back : Bytes) : ¬ BreakAt (content ++ back) index := by
  rintro ⟨byte, found, isBreak⟩
  rw [List.getElem?_append_left inside] at found
  have noBreak := plain byte (List.mem_of_getElem? found)
  rw [noBreak] at isBreak
  contradiction

theorem ExactLineAt.getElem? (exactly : ExactLineAt data wanted position) {index : Nat}
    (inside : index < wanted.length) : data[position + index]? = wanted[index]? := by
  have spelled := getElem?_slice data position (position + wanted.length) index
  rw [exactly.spells, if_pos (by omega)] at spelled
  exact spelled.symm

/-- No break of the text stands inside an exact line. -/
theorem ExactLineAt.not_breakAt (exactly : ExactLineAt data wanted position) (plain : Plain wanted)
    {index : Nat} (inside : index < wanted.length) : ¬ BreakAt data (position + index) := by
  rintro ⟨byte, found, isBreak⟩
  rw [exactly.getElem? inside] at found
  have noBreak := plain byte (List.mem_of_getElem? found)
  rw [noBreak] at isBreak
  contradiction

theorem ExactLineAt.within (exactly : ExactLineAt data wanted position) (nonempty : wanted ≠ []) :
    position + wanted.length ≤ data.length := by
  have length := congrArg List.length exactly.spells
  rw [length_slice] at length
  have positive := List.length_pos_iff.mpr nonempty
  omega

/-- The end of a line: nothing at the end of the text, or a terminator.  A text
never goes on with LF behind a lone CR. -/
structure EndsLine (terminator back : Bytes) : Prop where
  isEnd : terminator = [] ∧ back = [] ∨ terminator ∈ lineBreaks
  separate : terminator = [0x0d] → back.head? ≠ some 0x0a

theorem EndsLine.breakAt {terminator back : Bytes} (ends : EndsLine terminator back)
    (content : Bytes) {index : Nat} (behind : content.length ≤ index)
    (inside : index < (content ++ terminator).length) :
    BreakAt (content ++ terminator ++ back) index := by
  rw [List.length_append] at inside
  have position : index = content.length + (index - content.length) := by omega
  rw [List.append_assoc, position, breakAt_append_right]
  have found : (terminator ++ back)[index - content.length]? =
      some (terminator[index - content.length]) := by
    rw [List.getElem?_append_left (by omega), List.getElem?_eq_getElem]
  refine ⟨_, found, ?_⟩
  rcases ends.isEnd with ⟨rfl, rfl⟩ | terminates
  · simp at inside
    omega
  · exact lineBreaks_break terminates _ (List.getElem_mem _)

/-- The only exact line that begins inside the first line of a text is that line. -/
theorem exactLineAt_first {content terminator back : Bytes} (ends : EndsLine terminator back)
    (contentPlain : Plain content) (plain : Plain wanted) (nonempty : wanted ≠ [])
    (inside : position < (content ++ terminator).length) :
    ExactLineAt (content ++ terminator ++ back) wanted position ↔
      position = 0 ∧ content = wanted := by
  have positive := List.length_pos_iff.mpr nonempty
  constructor
  · intro exactly
    have inContent : position < content.length := by
      by_contra behind
      exact exactly.not_breakAt plain positive (ends.breakAt content (by omega) (by omega))
    have atStart : position = 0 := by
      rcases exactly.starts with atStart | breakBefore
      · exact atStart
      · rw [List.append_assoc] at breakBefore
        exact absurd breakBefore (not_breakAt_of_plain contentPlain _ (by omega) _)
    subst atStart
    have short : wanted.length ≤ content.length := by
      by_contra long
      have breakInside : BreakAt (content ++ terminator ++ back) (0 + content.length) := by
        have some := exactly.within nonempty
        rw [Nat.zero_add]
        rcases ends.isEnd with ⟨rfl, rfl⟩ | terminates
        · simp at some
          omega
        · have terminatorPositive : 0 < terminator.length := by
            apply List.length_pos_iff.mpr
            rintro rfl
            exact absurd terminates (by decide)
          exact ends.breakAt content (Nat.le_refl _) (by rw [List.length_append]; omega)
      exact exactly.not_breakAt plain (by omega) breakInside
    have long : content.length ≤ wanted.length := by
      by_contra short
      rcases exactly.ends with atEnd | breakBehind
      · simp only [List.length_append] at atEnd
        omega
      · rw [List.append_assoc] at breakBehind
        exact not_breakAt_of_plain contentPlain _ (by omega) _ breakBehind
    refine ⟨rfl, List.ext_getElem? fun index => ?_⟩
    by_cases within : index < wanted.length
    · rw [← exactly.getElem? within, List.append_assoc, Nat.zero_add,
        List.getElem?_append_left (by omega)]
    · rw [List.getElem?_eq_none (by omega), List.getElem?_eq_none (by omega)]
  · rintro ⟨rfl, rfl⟩
    refine ⟨?_, .inl rfl, ?_⟩
    · rw [slice_natCast]
      simp
    · rcases ends.isEnd with ⟨rfl, rfl⟩ | terminates
      · simp
      · right
        have terminatorPositive : 0 < terminator.length := by
          apply List.length_pos_iff.mpr
          rintro rfl
          exact absurd terminates (by decide)
        exact ends.breakAt content (by omega) (by rw [List.length_append]; omega)

/-- Behind the first line of a text the exact lines are those of the rest. -/
theorem exactLineAt_later {content terminator back : Bytes} (ends : EndsLine terminator back)
    (terminates : terminator ≠ []) (wanted : Bytes) (offset : Nat) :
    ExactLineAt (content ++ terminator ++ back) wanted
        ((content ++ terminator).length + offset) ↔ ExactLineAt back wanted offset := by
  have spelled : slice (content ++ terminator ++ back)
      ((content ++ terminator).length + offset : Nat)
      ((content ++ terminator).length + offset + wanted.length : Nat) =
        slice back offset (offset + wanted.length : Nat) := by
    rw [slice_natCast, slice_natCast, List.drop_take, List.drop_take, List.drop_length_add_append]
    congr 1
    omega
  have lineEnds : (content ++ terminator).length + offset + wanted.length =
        (content ++ terminator ++ back).length ↔ offset + wanted.length = back.length := by
    have length : (content ++ terminator ++ back).length =
        (content ++ terminator).length + back.length := List.length_append
    omega
  have breakBehind := breakAt_append_right (content ++ terminator) back (offset + wanted.length)
  rw [← Nat.add_assoc] at breakBehind
  have startsLine : ((content ++ terminator).length + offset = 0 ∨
        BreakAt (content ++ terminator ++ back) ((content ++ terminator).length + offset - 1)) ↔
      offset = 0 ∨ BreakAt back (offset - 1) := by
    have positive := List.length_pos_iff.mpr terminates
    have length : (content ++ terminator).length = content.length + terminator.length :=
      List.length_append
    cases offset with
    | zero =>
        have lastBreak : BreakAt (content ++ terminator ++ back) ((content ++ terminator).length - 1) :=
          ends.breakAt content (by omega) (by omega)
        simpa using Or.inr lastBreak
    | succ offset =>
        rw [Nat.add_succ_sub_one, breakAt_append_right, Nat.add_succ_sub_one, Nat.add_succ]
        simp only [Nat.succ_ne_zero, false_or, Nat.add_zero]
  constructor
  · intro exactly
    exact ⟨spelled.symm.trans exactly.spells, startsLine.mp exactly.starts,
      exactly.ends.imp lineEnds.mp breakBehind.mp⟩
  · intro exactly
    exact ⟨spelled.trans exactly.spells, startsLine.mpr exactly.starts,
      exactly.ends.imp lineEnds.mpr breakBehind.mpr⟩

/-- Counting from a later cursor moves every hit. -/
theorem matchingLines_shift (wanted : Bytes) (cursor shift : Nat) (lines : List Bytes) :
    matchingLines wanted (shift + cursor) lines =
      (matchingLines wanted cursor lines).map (shift + ·) := by
  induction lines generalizing cursor with
  | nil => rfl
  | cons line rest ih =>
      rw [matchingLines, matchingLines, Nat.add_assoc, ih]
      split <;> rfl

theorem mem_matchingLines_cons (wanted line : Bytes) (rest : List Bytes) (position : Nat) :
    position ∈ matchingLines wanted 0 (line :: rest) ↔
      position = 0 ∧ rstripBreaks line = wanted ∨
        ∃ offset ∈ matchingLines wanted 0 rest, line.length + offset = position := by
  have later := matchingLines_shift wanted 0 line.length rest
  rw [matchingLines, Nat.zero_add]
  rw [Nat.add_zero] at later
  rw [later, ← List.mem_map]
  split
  · rename_i same
    simp only [List.mem_cons, same, and_true]
  · rename_i different
    simp only [different, and_false, false_or]

/-- The walk over the lines of a text finds the exact lines in it. -/
theorem mem_matchingLines_iff {lines : List Bytes} (wellCut : Lines lines) (plain : Plain wanted)
    (nonempty : wanted ≠ []) (position : Nat) :
    position ∈ matchingLines wanted 0 lines ↔ ExactLineAt lines.flatten wanted position := by
  induction wellCut generalizing position with
  | nil =>
      refine iff_of_false List.not_mem_nil fun exactly => ?_
      have within := exactly.within nonempty
      have positive := List.length_pos_iff.mpr nonempty
      rw [List.flatten_nil, List.length_nil] at within
      omega
  | unterminated content contentNonempty contentPlain =>
      have ends : EndsLine [] [] := ⟨.inl ⟨rfl, rfl⟩, by simp⟩
      have stripped := rstripBreaks_line content [] contentPlain (by simp)
      rw [mem_matchingLines_cons]
      rw [List.append_nil] at stripped
      by_cases inside : position < content.length
      · have first : ExactLineAt (content ++ [] ++ []) wanted position ↔
            position = 0 ∧ content = wanted :=
          exactLineAt_first ends contentPlain plain nonempty (by simpa using inside)
        rw [List.append_nil, List.append_nil] at first
        rw [List.flatten_singleton, first, stripped]
        simp [matchingLines]
      · refine iff_of_false ?_ fun exactly => ?_
        · rintro (⟨rfl, _⟩ | ⟨_, found, _⟩)
          · exact inside (List.length_pos_iff.mpr contentNonempty)
          · cases found
        · have within := exactly.within nonempty
          have positive := List.length_pos_iff.mpr nonempty
          rw [List.flatten_singleton] at within
          omega
  | line content terminator rest contentPlain terminates separate wellCut ih =>
      have ends : EndsLine terminator rest.flatten := ⟨.inr terminates, separate⟩
      have terminatorNonempty : terminator ≠ [] := by
        rintro rfl
        exact absurd terminates (by decide)
      have stripped := rstripBreaks_line content terminator contentPlain (lineBreaks_break terminates)
      rw [mem_matchingLines_cons, stripped, List.flatten_cons]
      by_cases inside : position < (content ++ terminator).length
      · rw [exactLineAt_first ends contentPlain plain nonempty inside]
        refine or_iff_left ?_
        rintro ⟨offset, _, rfl⟩
        omega
      · obtain ⟨offset, rfl⟩ := Nat.exists_eq_add_of_le (Nat.not_lt.mp inside)
        have positive := List.length_pos_iff.mpr terminatorNonempty
        have length : (content ++ terminator).length = content.length + terminator.length :=
          List.length_append
        rw [exactLineAt_later ends terminatorNonempty, ← ih offset]
        constructor
        · rintro (⟨atStart, _⟩ | ⟨other, found, same⟩)
          · omega
          · rwa [Nat.add_left_cancel same] at found
        · intro found
          exact .inr ⟨offset, found, rfl⟩

theorem matchingLines_increasing (wanted : Bytes) {cursor : Nat} {lines : List Bytes}
    (wellCut : ∀ line ∈ lines, line ≠ []) :
    (matchingLines wanted cursor lines).Pairwise (· < ·) := by
  induction lines generalizing cursor with
  | nil => exact .nil
  | cons line rest ih =>
      have later : (matchingLines wanted (cursor + line.length) rest).Pairwise (· < ·) :=
        ih fun other member => wellCut other (by simp [member])
      have positive := List.length_pos_iff.mpr (wellCut line (by simp))
      rw [matchingLines]
      split
      · refine List.pairwise_cons.mpr ⟨fun hit found => ?_, later⟩
        have behind := matchingLines_lower found
        omega
      · exact later

/-- `count_exact_lines` returns the offsets of the exact lines in increasing order. -/
theorem countExactLines_exact (data wanted : Bytes) (nonempty : wanted ≠ [])
    (plain : Plain wanted) :
    (countExactLines data wanted).Pairwise (· < ·) ∧
      ∀ position, position ∈ countExactLines data wanted ↔ ExactLineAt data wanted position := by
  have wellCut := lines_splitlines data
  refine ⟨matchingLines_increasing wanted wellCut.ne_nil, fun position => ?_⟩
  rw [countExactLines, mem_matchingLines_iff wellCut plain nonempty, flatten_splitlines]

theorem countExactLines_exact_securePatch : securePatch.oldLine ≠ [] ∧ Plain securePatch.oldLine ∧
    (countExactLines securePatch.oldLine securePatch.oldLine).Pairwise (· < ·) ∧
      ∀ position, position ∈ countExactLines securePatch.oldLine securePatch.oldLine ↔
        ExactLineAt securePatch.oldLine securePatch.oldLine position := by
  have nonempty : securePatch.oldLine ≠ [] := by decide
  have plain : Plain securePatch.oldLine := by
    intro byte member
    have every : (securePatch.oldLine.all (!isBreak ·)) = true := by decide
    simpa using List.all_eq_true.mp every byte member
  exact ⟨nonempty, plain, countExactLines_exact _ _ nonempty plain⟩

end DashTwrp.Newc
