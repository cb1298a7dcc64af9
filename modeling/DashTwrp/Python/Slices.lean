import Mathlib.Algebra.Group.Int.Defs
import Mathlib.Algebra.Group.Nat.Defs
import Mathlib.Data.List.Basic
import Mathlib.Tactic.Common

namespace DashTwrp.Python

/-! Python's sequence operations on `bytes` and `bytearray` values.

Bounds are integers: a negative bound counts from the end of the sequence, and
a slice bound is then clamped to the sequence, so a slice never fails.  The
lemmas for natural bounds are what programs that never count from the end use.
-/

abbrev Bytes := List UInt8

variable {α : Type u}

/-- The position a slice bound denotes in a sequence of the given length. -/
def sliceBound (length : Nat) (index : Int) : Nat :=
  if index < 0 then (index + length).toNat else min index.toNat length

@[simp] theorem sliceBound_natCast (length index : Nat) :
    sliceBound length (index : Int) = min index length := by
  simp [sliceBound, Int.not_lt.mpr (Int.natCast_nonneg index)]

/-- `values[start:stop]` -/
def slice (values : List α) (start stop : Int) : List α :=
  (values.take (sliceBound values.length stop)).drop (sliceBound values.length start)

/-- `values[start:]` -/
def sliceFrom (values : List α) (start : Int) : List α :=
  values.drop (sliceBound values.length start)

/-- `values[index]`, where `none` is Python's `IndexError`. -/
def item (values : List α) (index : Int) : Option α :=
  if 0 ≤ index then values[index.toNat]?
  else if 0 ≤ index + values.length then values[(index + values.length).toNat]?
  else none

/-- `values[start:stop] = replacement` on a `bytearray`.  The replacement need
not have the length of the slice: the sequence then grows or shrinks. -/
def assign (values : List α) (start stop : Int) (replacement : List α) : List α :=
  let lower := sliceBound values.length start
  let upper := max lower (sliceBound values.length stop)
  values.take lower ++ replacement ++ values.drop upper

theorem slice_natCast (values : List α) (start stop : Nat) :
    slice values start stop = (values.take stop).drop start := by
  simp only [slice, sliceBound_natCast]
  apply List.ext_getElem?
  intro index
  simp only [List.getElem?_drop, List.getElem?_take]
  by_cases short : start ≤ values.length
  · have startMin : min start values.length = start := by omega
    rw [startMin]
    by_cases inside : start + index < values.length
    · have same : start + index < min stop values.length ↔ start + index < stop := by omega
      simp only [same]
    · have absent : values[start + index]? = none := List.getElem?_eq_none (by omega)
      simp [absent]
  · have startMin : min start values.length = values.length := by omega
    have absent : values[start + index]? = none := List.getElem?_eq_none (by omega)
    simp [startMin, absent]

theorem getElem?_slice (values : List α) (start stop index : Nat) :
    (slice values start stop)[index]? =
      if start + index < stop then values[start + index]? else none := by
  rw [slice_natCast, List.getElem?_drop, List.getElem?_take]

@[simp] theorem length_slice (values : List α) (start stop : Nat) :
    (slice values start stop).length = min stop values.length - start := by
  rw [slice_natCast, List.length_drop, List.length_take]

theorem sliceFrom_natCast (values : List α) (start : Nat) :
    sliceFrom values start = values.drop start := by
  simp only [sliceFrom, sliceBound_natCast]
  by_cases short : start ≤ values.length
  · rw [Nat.min_eq_left short]
  · rw [Nat.min_eq_right (by omega), List.drop_length, List.drop_of_length_le (by omega)]

theorem item_natCast (values : List α) (index : Nat) : item values index = values[index]? := by
  simp [item]

theorem assign_natCast (values : List α) (start stop : Nat) (replacement : List α) :
    assign values start stop replacement =
      values.take start ++ replacement ++ values.drop (max start stop) := by
  have front : values.take (min start values.length) = values.take start := by
    simp [List.take_eq_take_iff]
  have back : values.drop (max (min start values.length) (min stop values.length)) =
      values.drop (max start stop) := by
    rw [← Nat.min_max_distrib_right]
    by_cases short : max start stop ≤ values.length
    · rw [Nat.min_eq_left short]
    · rw [Nat.min_eq_right (by omega), List.drop_length, List.drop_of_length_le (by omega)]
  simp only [assign, sliceBound_natCast, front, back]

theorem length_assign (values : List α) (start stop : Nat) (replacement : List α) :
    (assign values start stop replacement).length =
      min start values.length + replacement.length + (values.length - max start stop) := by
  simp only [assign_natCast, List.length_append, List.length_take, List.length_drop]

/-- What a bytearray holds after an assignment whose start it contains: the
bytes in front, the replacement, and the bytes behind the slice moved up. -/
theorem getElem?_assign (values : List α) (start stop : Nat) (replacement : List α)
    (index : Nat) (within : start ≤ values.length) :
    (assign values start stop replacement)[index]? =
      if index < start then values[index]?
      else if index < start + replacement.length then replacement[index - start]?
      else values[max start stop + (index - start - replacement.length)]? := by
  have frontLength : (values.take start).length = start := by simp [within]
  rw [assign_natCast, List.append_assoc]
  by_cases front : index < start
  · rw [List.getElem?_append_left (by omega), List.getElem?_take, if_pos front, if_pos front]
  · rw [List.getElem?_append_right (by omega), if_neg front, frontLength]
    by_cases middle : index < start + replacement.length
    · rw [List.getElem?_append_left (by omega), if_pos middle]
    · rw [List.getElem?_append_right (by omega), List.getElem?_drop, if_neg middle]

/-- An assignment never touches the bytes in front of its start, even when it
appends to a sequence that is too short. -/
theorem getElem?_assign_front (values : List α) (start stop : Nat) (replacement : List α)
    (index : Nat) (front : index < start) (within : index < values.length) :
    (assign values start stop replacement)[index]? = values[index]? := by
  rw [assign_natCast, List.append_assoc, List.getElem?_append_left (by simp; omega),
    List.getElem?_take, if_pos front]

/-- Two slices of which one begins where the other ends. -/
theorem slice_append_slice (values : List α) {start middle stop : Nat} (first : start ≤ middle)
    (second : middle ≤ stop) :
    slice values start middle ++ slice values middle stop = slice values start stop := by
  have cut := List.take_append_drop middle (values.take stop)
  rw [List.take_take, Nat.min_eq_left second] at cut
  have back : ((values.take stop).drop middle).drop (start - (values.take middle).length) =
      (values.take stop).drop middle := by
    rw [List.length_take]
    by_cases long : middle ≤ values.length
    · rw [Nat.min_eq_left long, Nat.sub_eq_zero_of_le first, List.drop_zero]
    · rw [List.drop_eq_nil_of_le (i := middle) (by rw [List.length_take]; omega), List.drop_nil]
  rw [slice_natCast, slice_natCast, slice_natCast]
  conv_rhs => rw [← cut, List.drop_append, back]

theorem slice_slice (values : List α) (outerStart outerStop start stop : Nat)
    (within : outerStart + stop ≤ outerStop) :
    slice (slice values outerStart outerStop) start stop =
      slice values (outerStart + start : Nat) (outerStart + stop : Nat) := by
  apply List.ext_getElem?
  intro index
  simp only [getElem?_slice]
  by_cases inside : start + index < stop
  · have inOuter : outerStart + (start + index) < outerStop := by omega
    have inInner : outerStart + start + index < outerStart + stop := by omega
    rw [if_pos inside, if_pos inOuter, if_pos inInner, Nat.add_assoc]
  · have outInner : ¬ outerStart + start + index < outerStart + stop := by omega
    rw [if_neg inside, if_neg outInner]

/-- Seen through a slice that contains it, an overwrite is an overwrite of the slice. -/
theorem slice_assign (values : List α) (start stop position : Nat) (replacement : List α)
    (within : start + position + replacement.length ≤ stop) (bound : stop ≤ values.length) :
    slice (assign values (start + position : Nat) (start + position + replacement.length : Nat)
        replacement) start stop =
      (slice values start stop).take position ++ replacement ++
        (slice values start stop).drop (position + replacement.length) := by
  have front : ((slice values start stop).take position).length = position := by
    rw [List.length_take, length_slice]
    omega
  apply List.ext_getElem?
  intro index
  rw [getElem?_slice, getElem?_assign _ _ _ _ _ (by omega), List.append_assoc]
  by_cases before : index < position
  · rw [List.getElem?_append_left (by omega), List.getElem?_take_of_lt before, getElem?_slice,
      if_pos (show start + index < start + position by omega)]
  · rw [List.getElem?_append_right (by omega), front,
      if_neg (show ¬ start + index < start + position by omega)]
    by_cases inside : index < position + replacement.length
    · rw [List.getElem?_append_left (by omega), if_pos (by omega), if_pos (by omega)]
      congr 1
      omega
    · rw [List.getElem?_append_right (by omega), List.getElem?_drop, getElem?_slice,
        if_neg (show ¬ start + index < start + position + replacement.length by omega)]
      have position_eq : position + replacement.length + (index - position - replacement.length) =
          index := by omega
      have index_eq : max (start + position) (start + position + replacement.length) +
          (start + index - (start + position) - replacement.length) = start + index := by omega
      rw [position_eq, index_eq]

theorem slice_append_left (front values : List α) (start stop : Nat) :
    slice (front ++ values) (front.length + start : Nat) (front.length + stop : Nat) =
      slice values start stop := by
  apply List.ext_getElem?
  intro index
  simp only [getElem?_slice, Nat.add_assoc, Nat.add_lt_add_iff_left]
  rw [List.getElem?_append_right (by omega), Nat.add_sub_cancel_left]

theorem slice_append_right (values back : List α) (start stop : Nat)
    (within : stop ≤ values.length) :
    slice (values ++ back) start stop = slice values start stop := by
  rw [slice_natCast, slice_natCast, List.take_append_of_le_length within]

/-- A section read back from the concatenation it was laid out in. -/
theorem slice_middle (front values back : List α) (start stop : Nat)
    (lower : start = front.length) (upper : stop = front.length + values.length) :
    slice (front ++ values ++ back) start stop = values := by
  subst lower upper
  have read := slice_append_left front (values ++ back) 0 values.length
  rw [Nat.add_zero] at read
  rw [List.append_assoc, read, slice_append_right _ _ _ _ (Nat.le_refl _), slice_natCast]
  simp

/-- A cell of a table whose cells have one width. -/
theorem slice_flatten (cells : List (List α)) (width index : Nat)
    (uniform : ∀ cell ∈ cells, cell.length = width) (inside : index < cells.length) :
    slice cells.flatten (index * width : Nat) (index * width + width : Nat) = cells[index] := by
  induction cells generalizing index with
  | nil => simp at inside
  | cons cell rest ih =>
      have cellWidth := uniform cell (by simp)
      cases index with
      | zero =>
          have read := slice_middle [] cell rest.flatten 0 width (by simp) (by simp [cellWidth])
          simpa using read
      | succ index =>
          have later := ih index (fun other member => uniform other (by simp [member]))
            (by simpa using inside)
          have start : (index + 1) * width = cell.length + index * width := by
            rw [cellWidth, Nat.succ_mul, Nat.add_comm]
          rw [start, Nat.add_assoc, List.flatten_cons, slice_append_left, later]
          simp

/-- Consecutive cells of one width make up the stretch they are cut from. -/
theorem flatten_cells (values : List α) (start width count : Nat) :
    ((List.range count).map fun index =>
        slice values (start + index * width : Nat) (start + index * width + width : Nat)).flatten =
      slice values start (start + count * width : Nat) := by
  induction count with
  | zero => simp [slice_natCast]
  | succ count ih =>
      have next : start + (count + 1) * width = start + count * width + width := by
        rw [Nat.succ_mul, Nat.add_assoc]
      rw [List.range_succ, List.map_append, List.flatten_append, ih, List.map_singleton,
        List.flatten_singleton, slice_append_slice _ (Nat.le_add_right _ _) (Nat.le_add_right _ _),
        next]

/-- A sequence around one of its slices. -/
theorem take_slice_drop (values : List α) {start stop : Nat} (ordered : start ≤ stop) :
    values.take start ++ slice values start stop ++ values.drop stop = values := by
  have front : values.take start = slice values (0 : Nat) start := by
    rw [slice_natCast, List.drop_zero]
  rw [front, slice_append_slice values (Nat.zero_le _) ordered, slice_natCast, List.drop_zero,
    List.take_append_drop]

/-- Two sequences of one length that agree at every position outside a window. -/
structure SameOutside (start stop : Nat) (left right : List α) : Prop where
  length_eq : left.length = right.length
  agree : ∀ index, index < start ∨ stop ≤ index → left[index]? = right[index]?

namespace SameOutside

variable {start stop : Nat} {left right third : List α}

theorem refl (values : List α) : SameOutside start stop values values :=
  ⟨rfl, fun _ _ => rfl⟩

theorem symm (same : SameOutside start stop left right) : SameOutside start stop right left :=
  ⟨same.length_eq.symm, fun index outside => (same.agree index outside).symm⟩

theorem trans (first : SameOutside start stop left right)
    (second : SameOutside start stop right third) : SameOutside start stop left third :=
  ⟨first.length_eq.trans second.length_eq,
    fun index outside => (first.agree index outside).trans (second.agree index outside)⟩

theorem widen {outerStart outerStop : Nat} (same : SameOutside start stop left right)
    (below : outerStart ≤ start) (above : stop ≤ outerStop) :
    SameOutside outerStart outerStop left right :=
  ⟨same.length_eq, fun index outside => same.agree index (by omega)⟩

/-- A slice that misses the window reads the same from both sequences. -/
theorem slice_eq (same : SameOutside start stop left right) (lower upper : Nat)
    (apart : upper ≤ start ∨ stop ≤ lower) :
    slice left lower upper = slice right lower upper := by
  apply List.ext_getElem?
  intro index
  simp only [getElem?_slice]
  by_cases inside : lower + index < upper
  · rw [if_pos inside, if_pos inside, same.agree _ (by omega)]
  · rw [if_neg inside, if_neg inside]

theorem drop_eq (same : SameOutside start stop left right) (lower : Nat) (above : stop ≤ lower) :
    left.drop lower = right.drop lower := by
  apply List.ext_getElem?
  intro index
  simp only [List.getElem?_drop]
  exact same.agree _ (by omega)

theorem append_right (same : SameOutside start stop left right) (back : List α) :
    SameOutside start stop (left ++ back) (right ++ back) := by
  have length := same.length_eq
  refine ⟨by rw [List.length_append, List.length_append, length], fun index outside => ?_⟩
  by_cases inside : index < left.length
  · rw [List.getElem?_append_left inside, List.getElem?_append_left (by omega),
      same.agree index outside]
  · rw [List.getElem?_append_right (by omega), List.getElem?_append_right (by omega), length]

theorem take_eq (same : SameOutside start stop left right) (upper : Nat) (below : upper ≤ start) :
    left.take upper = right.take upper := by
  have slices := same.slice_eq 0 upper (.inl below)
  rwa [slice_natCast, slice_natCast, List.drop_zero, List.drop_zero] at slices

/-- An overwrite of the window hides where the sequences differ. -/
theorem assign_eq (same : SameOutside start stop left right) (replacement : List α) :
    assign left start stop replacement = assign right start stop replacement := by
  rw [assign_natCast, assign_natCast, same.take_eq start (Nat.le_refl _),
    same.drop_eq (max start stop) (Nat.le_max_right _ _)]

/-- A text edited in one window is the new window and what surrounds it. -/
theorem eq_around {front old back edited new : List α}
    (same : SameOutside front.length (front.length + old.length) (front ++ old ++ back) edited)
    (window : slice edited front.length (front.length + old.length : Nat) = new) :
    edited = front ++ new ++ back := by
  have parts := take_slice_drop edited (Nat.le_add_right front.length old.length)
  have before := same.slice_eq 0 front.length (.inl (Nat.le_refl _))
  rw [slice_natCast, slice_natCast, List.drop_zero, List.drop_zero, List.append_assoc,
    List.take_left] at before
  have behind := same.drop_eq (front.length + old.length) (Nat.le_refl _)
  rw [← List.length_append, List.drop_left, List.length_append] at behind
  rw [window, ← before, ← behind] at parts
  exact parts.symm

end SameOutside

/-- Overwriting a slice with as many bytes changes nothing outside it. -/
theorem assign_sameOutside (values : List α) (start : Nat) (replacement : List α)
    (within : start + replacement.length ≤ values.length) :
    SameOutside start (start + replacement.length)
      (assign values start (start + replacement.length : Nat) replacement) values := by
  constructor
  · rw [length_assign]
    omega
  · intro index outside
    rw [getElem?_assign _ _ _ _ _ (by omega)]
    by_cases front : index < start
    · rw [if_pos front]
    · have behind : ¬ index < start + replacement.length := by omega
      rw [if_neg front, if_neg behind]
      congr 1
      omega

/-- What was assigned is read back. -/
theorem slice_assign_self (values : List α) (start : Nat) (replacement : List α)
    (within : start ≤ values.length) :
    slice (assign values start (start + replacement.length : Nat) replacement) start
      (start + replacement.length : Nat) = replacement := by
  apply List.ext_getElem?
  intro index
  rw [getElem?_slice, getElem?_assign _ _ _ _ _ within]
  by_cases inside : index < replacement.length
  · have behind : ¬ start + index < start := by omega
    rw [if_pos (by omega), if_neg behind, if_pos (by omega), Nat.add_sub_cancel_left]
  · rw [if_neg (by omega), List.getElem?_eq_none (by omega)]

/-- A replacement as long as the slice never shortens the sequence, and lengthens
it exactly when the slice reaches past the end. -/
theorem length_assign_full (values : List α) (start : Nat) (replacement : List α) :
    (assign values start (start + replacement.length : Nat) replacement).length =
      if start ≤ values.length then max values.length (start + replacement.length)
      else values.length + replacement.length := by
  rw [length_assign]
  split <;> omega

/-- A slice of a stretch that holds one value. -/
theorem slice_replicate (values : List α) (value : α) (start lower upper : Nat)
    (constant : ∀ index, start ≤ index → index < values.length → values[index]? = some value)
    (within : start ≤ lower) :
    slice values lower upper = List.replicate (min upper values.length - lower) value := by
  apply List.ext_getElem?
  intro index
  rw [getElem?_slice, List.getElem?_replicate]
  by_cases inside : lower + index < min upper values.length
  · rw [if_pos (by omega), if_pos (by omega), constant _ (by omega) (by omega)]
  · rw [if_neg (show ¬ index < _ by omega)]
    split
    · exact List.getElem?_eq_none (by omega)
    · rfl

end DashTwrp.Python
