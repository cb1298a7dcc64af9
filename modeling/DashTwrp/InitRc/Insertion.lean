import DashTwrp.InitRc.Setenv

namespace DashTwrp.InitRc

open DashTwrp.Python

/-! What the edit of `init.rc` does to the text: the line comes in behind each
occurrence of the marker, and a second edit does nothing. -/

/-- The second text is the first with `line` directly behind every occurrence of
`old`: the occurrences, each a place between two of the parts, are where the
second text has the line. -/
def InsertedBehind (old line before after : List Char) : Prop :=
  ∃ parts, before = old.intercalate parts ∧ after = (old ++ line).intercalate parts ∧
    ∀ front rest, before = front ++ old ++ rest →
      ∃ earlier later, earlier ≠ [] ∧ later ≠ [] ∧ parts = earlier ++ later ∧
        front = old.intercalate earlier ∧ rest = old.intercalate later

/-- How the edited text comes from the one before: nothing else is inserted, no
line goes and none changes its place. -/
structure ScriptEdited (before after : List Char) : Prop where
  inserted : editGuard before → InsertedBehind marker setenvLine before after
  unchanged : ¬ editGuard before → after = before
  linesKept : (lines before).Sublist (lines after)

theorem intercalate_cons_of_ne_nil (separator first : List Char) {parts : List (List Char)}
    (nonempty : parts ≠ []) :
    separator.intercalate (first :: parts) = first ++ separator ++ separator.intercalate parts := by
  cases parts with
  | nil => exact absurd rfl nonempty
  | cons second rest => simp [List.intercalate, List.intersperse]

theorem replace_found {front rest : List Char}
    (none : NoneBefore marker (front ++ marker ++ rest) front.length) :
    replace marker (marker ++ setenvLine) (front ++ marker ++ rest) =
      front ++ marker ++ (setenvLine ++ replace marker (marker ++ setenvLine) rest) := by
  rw [List.append_assoc] at none ⊢
  rw [replace_append_of_none none, replace_old_append marker_ne_nil]
  simp only [List.append_assoc]

theorem replace_inserted (c : List Char) :
    InsertedBehind marker setenvLine c (replace marker (marker ++ setenvLine) c) := by
  suffices given : ∃ parts, parts ≠ [] ∧ c = marker.intercalate parts ∧
      replace marker (marker ++ setenvLine) c = (marker ++ setenvLine).intercalate parts ∧
        ∀ front rest, c = front ++ marker ++ rest →
          ∃ earlier later, earlier ≠ [] ∧ later ≠ [] ∧ parts = earlier ++ later ∧
            front = marker.intercalate earlier ∧ rest = marker.intercalate later by
    obtain ⟨parts, _, split⟩ := given
    exact ⟨parts, split⟩
  induction c using occurrence_induction marker_ne_nil with
  | absent c absent =>
      refine ⟨[c], by simp, by simp, by simp [replace_of_absent absent], ?_⟩
      intro front rest split
      exact absurd (split ▸ List.infix_append front marker rest) absent
  | found front rest none ih =>
      obtain ⟨parts, nonempty, whole, replaced, joints⟩ := ih
      refine ⟨front :: parts, by simp, ?_, ?_, ?_⟩
      · rw [intercalate_cons_of_ne_nil _ _ nonempty, ← whole]
      · rw [intercalate_cons_of_ne_nil _ _ nonempty, ← replaced, replace_found none]
        simp only [List.append_assoc]
      · intro other back split
        cases (occurrences_iff marker_unbordered none other back).mp split with
        | inl first =>
            obtain ⟨rfl, rfl⟩ := first
            exact ⟨[other], parts, by simp, nonempty, rfl, by simp, whole⟩
        | inr later =>
            obtain ⟨between, rfl, rest⟩ := later
            obtain ⟨earlier, after, earlierNonempty, afterNonempty, rfl, rfl, rfl⟩ :=
              joints between back rest
            refine ⟨front :: earlier, after, by simp, afterNonempty, rfl, ?_, rfl⟩
            rw [intercalate_cons_of_ne_nil _ _ earlierNonempty]

theorem replace_keepsLines (c : List Char) :
    (lines c).Sublist (lines (replace marker (marker ++ setenvLine) c)) := by
  induction c using occurrence_induction marker_ne_nil with
  | absent c absent => rw [replace_of_absent absent]
  | found front rest none ih =>
      rw [replace_found none, lines_behind_marker, lines_behind_marker, setenvLine_lines]
      exact (List.Sublist.refl _).append (ih.cons _)

theorem editText_edited (c : List Char) : ScriptEdited c (editText c) := by
  unfold editText
  by_cases guarded : editGuard c
  · rw [if_pos guarded]
    exact ⟨fun _ => replace_inserted c, fun unguarded => absurd guarded unguarded,
      replace_keepsLines c⟩
  · rw [if_neg guarded]
    exact ⟨fun given => absurd given guarded, fun _ => rfl, List.Sublist.refl _⟩

/-- The edited text has the line, so the guard holds no more. -/
theorem editText_idempotent (c : List Char) : editText (editText c) = editText c := by
  by_cases guarded : editGuard c
  · have settled : ¬ editGuard (editText c) := by
      intro again
      apply again.2
      obtain ⟨front, rest, rfl, none⟩ := first_occurrence guarded.1
      rw [editText, if_pos guarded, replace_found none]
      have inLine : setenvText <:+: setenvLine := by decide +kernel
      exact inLine.trans ((List.prefix_append _ _).isInfix.trans (List.suffix_append _ _).isInfix)
    rw [editText, if_neg settled]
  · have same : editText c = c := if_neg guarded
    rw [same, same]

theorem replace_plain {c : List Char} (plain : '\r' ∉ c) :
    '\r' ∉ replace marker (marker ++ setenvLine) c := by
  induction c using occurrence_induction marker_ne_nil with
  | absent c absent => rwa [replace_of_absent absent]
  | found front rest none ih =>
      simp only [List.mem_append, not_or] at plain
      have inLine : '\r' ∉ setenvLine := by decide
      rw [replace_found none]
      simp only [List.mem_append, not_or]
      exact ⟨plain.1, inLine, ih plain.2⟩

theorem editText_plain {c : List Char} (plain : '\r' ∉ c) : '\r' ∉ editText c := by
  unfold editText
  split
  · exact replace_plain plain
  · exact plain

end DashTwrp.InitRc
