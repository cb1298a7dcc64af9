import Mathlib.Data.List.Infix
import Mathlib.Tactic.Common

namespace DashTwrp.Python

/-! `old in text` and `text.replace(old, new)`.

The scan goes from left to right and behind an occurrence it goes on behind all
of it, so overlapping occurrences are not all replaced.  Where no end of `old` is
a beginning of it, occurrences never overlap. -/

variable {α : Type u}

section Replace

variable [DecidableEq α]

/-- The scan of `text.replace(old, new)`, where the next `skip` elements belong to
an occurrence that has been replaced. -/
def replaceFrom (old new : List α) : Nat → List α → List α
  | _, [] => []
  | skip + 1, _ :: rest => replaceFrom old new skip rest
  | 0, value :: rest =>
      if old <+: value :: rest then new ++ replaceFrom old new (old.length - 1) rest
      else value :: replaceFrom old new 0 rest

/-- `text.replace(old, new)` for a non-empty `old`. -/
def replace (old new text : List α) : List α := replaceFrom old new 0 text

/-- `text.find(wanted)`, where `none` is Python's `-1`. -/
def find (wanted : List α) : List α → Option Nat
  | [] => if wanted = [] then some 0 else none
  | value :: rest =>
      if wanted <+: value :: rest then some 0 else (find wanted rest).map (· + 1)

end Replace

/-- No occurrence of `old` in `text` begins in front of `position`. -/
def NoneBefore (old text : List α) (position : Nat) : Prop :=
  ∀ start, start < position → ¬ old <+: text.drop start

/-- No proper end of `old` is a beginning of it. -/
def Unbordered (old : List α) : Prop :=
  ∀ shift, 0 < shift → shift < old.length → ¬ old.drop shift <+: old

variable {old new : List α}

/-- Two occurrences of an unbordered text are the same one or do not overlap. -/
theorem Unbordered.apart (unbordered : Unbordered old) {front rest other back : List α}
    (same : front ++ old ++ rest = other ++ old ++ back) (behind : front.length < other.length) :
    ∃ between, other = front ++ old ++ between ∧ rest = between ++ old ++ back := by
  have frontPrefix : front <+: other :=
    List.prefix_of_prefix_length_le ⟨old ++ rest, by rw [← List.append_assoc]; exact same⟩
      ⟨old ++ back, (List.append_assoc _ _ _).symm⟩ (Nat.le_of_lt behind)
  obtain ⟨gap, rfl⟩ := frontPrefix
  rw [List.append_assoc, List.append_assoc, List.append_assoc, List.append_cancel_left_eq] at same
  by_cases whole : old.length ≤ gap.length
  · have oldPrefix : old <+: gap :=
      List.prefix_of_prefix_length_le ⟨rest, rfl⟩ ⟨old ++ back, same.symm⟩ whole
    obtain ⟨between, rfl⟩ := oldPrefix
    rw [List.append_assoc, List.append_cancel_left_eq] at same
    exact ⟨between, (List.append_assoc _ _ _).symm, by rw [same, List.append_assoc]⟩
  · exfalso
    rw [List.length_append] at behind
    apply unbordered gap.length (by omega) (by omega)
    have shifted := congrArg (List.drop gap.length) same
    rw [List.drop_append_of_le_length (by omega), List.drop_left] at shifted
    exact List.prefix_of_prefix_length_le ⟨rest, shifted⟩ ⟨back, rfl⟩ (by simp)

/-- The occurrences behind the first one are those of the text behind it. -/
theorem occurrences_iff (unbordered : Unbordered old) {front rest : List α}
    (none : NoneBefore old (front ++ old ++ rest) front.length) (other back : List α) :
    front ++ old ++ rest = other ++ old ++ back ↔
      (other = front ∧ back = rest) ∨
        ∃ between, other = front ++ old ++ between ∧ rest = between ++ old ++ back := by
  constructor
  · intro same
    rcases Nat.lt_trichotomy front.length other.length with behind | here | before
    · exact .inr (unbordered.apart same behind)
    · rw [List.append_assoc, List.append_assoc] at same
      obtain ⟨sameFront, sameBack⟩ := List.append_inj same here
      exact .inl ⟨sameFront.symm, (List.append_cancel_left sameBack).symm⟩
    · exfalso
      apply none other.length before
      rw [same, List.append_assoc, List.drop_left]
      exact List.prefix_append _ _
  · rintro (⟨rfl, rfl⟩ | ⟨between, rfl, rfl⟩)
    · rfl
    · simp only [List.append_assoc]

section ReplaceLemmas

variable [DecidableEq α]

theorem replaceFrom_skip (skip : Nat) (text : List α) :
    replaceFrom old new skip text = replaceFrom old new 0 (text.drop skip) := by
  induction text generalizing skip with
  | nil =>
      rw [List.drop_nil]
      cases skip <;> rfl
  | cons value rest ih =>
      cases skip with
      | zero => rfl
      | succ skip => rw [replaceFrom, List.drop_succ_cons, ih]

theorem replace_append_of_none {front rest : List α}
    (none : NoneBefore old (front ++ rest) front.length) :
    replace old new (front ++ rest) = front ++ replace old new rest := by
  induction front with
  | nil => rfl
  | cons value front ih =>
      have notHere : ¬ old <+: value :: (front ++ rest) := none 0 (Nat.zero_lt_succ _)
      have later : NoneBefore old (front ++ rest) front.length := fun start before =>
        none (start + 1) (Nat.succ_lt_succ before)
      rw [List.cons_append, replace, replaceFrom, if_neg notHere]
      exact congrArg (List.cons value) (ih later)

theorem replace_old_append (nonempty : old ≠ []) (rest : List α) :
    replace old new (old ++ rest) = new ++ replace old new rest := by
  cases old with
  | nil => exact absurd rfl nonempty
  | cons value more =>
      have here : value :: more <+: value :: (more ++ rest) := List.prefix_append _ _
      rw [List.cons_append, replace, replaceFrom, if_pos here, replaceFrom_skip]
      simp [replace]

theorem replace_of_absent {text : List α} (absent : ¬ old <:+: text) :
    replace old new text = text := by
  have none : NoneBefore old (text ++ []) text.length := fun start _ found => by
    rw [List.append_nil] at found
    exact absent (found.isInfix.trans (List.drop_suffix start text).isInfix)
  have unchanged : replace old new (text ++ []) = text ++ replace old new [] :=
    replace_append_of_none none
  rw [List.append_nil] at unchanged
  rw [unchanged]
  exact List.append_nil text

/-- An occurrence with none in front of it. -/
theorem first_occurrence {text : List α} (found : old <:+: text) :
    ∃ front rest, text = front ++ old ++ rest ∧ NoneBefore old text front.length := by
  induction text with
  | nil =>
      obtain rfl := List.eq_nil_of_infix_nil found
      exact ⟨[], [], rfl, fun start before => absurd before (Nat.not_lt_zero _)⟩
  | cons value rest ih =>
      by_cases here : old <+: value :: rest
      · obtain ⟨back, split⟩ := here
        exact ⟨[], back, split.symm, fun start before => absurd before (Nat.not_lt_zero _)⟩
      · rcases List.infix_cons_iff.mp found with atStart | later
        · exact absurd atStart here
        · obtain ⟨front, back, split, none⟩ := ih later
          refine ⟨value :: front, back, by rw [split]; rfl, fun start before => ?_⟩
          cases start with
          | zero => exact here
          | succ start => exact none start (Nat.lt_of_succ_lt_succ before)

/-- `find` returns where the first occurrence begins. -/
theorem find_eq_some {text : List α} {position : Nat} (found : find old text = some position) :
    old <+: text.drop position ∧ NoneBefore old text position := by
  induction text generalizing position with
  | nil =>
      rw [find] at found
      split at found
      · rename_i empty
        cases found
        exact ⟨empty ▸ List.nil_prefix, fun start before => absurd before (Nat.not_lt_zero _)⟩
      · cases found
  | cons value rest ih =>
      rw [find] at found
      split at found
      · rename_i here
        cases found
        exact ⟨here, fun start before => absurd before (Nat.not_lt_zero _)⟩
      · rename_i notHere
        obtain ⟨later, inRest, rfl⟩ := Option.map_eq_some_iff.mp found
        obtain ⟨occurs, none⟩ := ih inRest
        refine ⟨occurs, fun start before => ?_⟩
        cases start with
        | zero => exact notHere
        | succ start => exact none start (Nat.lt_of_succ_lt_succ before)

/-- What occurs is found. -/
theorem exists_find {text : List α} (found : old <:+: text) :
    ∃ position, find old text = some position := by
  cases first : find old text with
  | some position => exact ⟨position, rfl⟩
  | none =>
      exfalso
      induction text with
      | nil =>
          rw [find, if_pos (List.eq_nil_of_infix_nil found)] at first
          cases first
      | cons value rest ih =>
          rw [find] at first
          split at first
          · cases first
          · rename_i notHere
            rcases List.infix_cons_iff.mp found with here | later
            · exact notHere here
            · exact ih later (Option.map_eq_none_iff.mp first)

/-- Induction along the occurrences of a text, from its first one on. -/
theorem occurrence_induction {motive : List α → Prop} (nonempty : old ≠ [])
    (absent : ∀ text, ¬ old <:+: text → motive text)
    (found : ∀ front rest, NoneBefore old (front ++ old ++ rest) front.length → motive rest →
      motive (front ++ old ++ rest)) (text : List α) : motive text := by
  induction size : text.length using Nat.strong_induction_on generalizing text with
  | _ size ih =>
      by_cases occurs : old <:+: text
      · obtain ⟨front, rest, rfl, none⟩ := first_occurrence occurs
        have positive := List.length_pos_of_ne_nil nonempty
        simp only [List.length_append] at size
        exact found front rest none (ih rest.length (by omega) rest rfl)
      · exact absent text occurs

end ReplaceLemmas

end DashTwrp.Python
