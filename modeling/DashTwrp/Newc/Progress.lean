import DashTwrp.Newc.Extents

namespace DashTwrp.Newc

open DashTwrp.Python

/-! Whether the loop of `parse_newc` ends.

The size of an entry is read by `int`, which takes a sign, and only the upper
end of the data is checked.  A size that is negative enough takes the loop back
to the header it has just read, or in front of it. -/

variable {blob : Bytes} {offset nextOffset : Int} {entry : Entry}

/-- The iterations of the loop that neither raise nor reach the trailer. -/
structure Iteration (blob : Bytes) (offset : Int) (entry : Entry) (nextOffset : Int) : Prop where
  visited : Visited blob offset
  inside : offset < blob.length
  read : readRecord blob offset = .ok (entry, nextOffset)
  notTrailer : entry.path ≠ trailerName

def MovesForward (blob : Bytes) : Prop :=
  ∀ offset entry nextOffset, Iteration blob offset entry nextOffset → offset < nextOffset

/-- No entry's size takes the end of its data back to its header. -/
def SizesForward (blob : Bytes) : Prop :=
  ∀ offset entry nextOffset, Iteration blob offset entry nextOffset →
    entry.headerStart - entry.dataStart < entry.size

theorem aligned_multiple (value : Int) : aligned value % 4 = 0 := by
  unfold aligned
  omega

theorem Visited.multiple (visited : Visited blob offset) : offset % 4 = 0 := by
  cases visited with
  | start => rfl
  | next _ _ read _ =>
      obtain ⟨_, _, _, _, _, _, _, _, _, _, _, _, _, rfl⟩ := readRecord_eq_ok_iff.mp read
      exact aligned_multiple _

/-- Rounding up does not decide whether an iteration moves forward. -/
theorem Iteration.forward_iff (iteration : Iteration blob offset entry nextOffset) :
    offset < nextOffset ↔ entry.headerStart - entry.dataStart < entry.size := by
  have onWord := iteration.visited.multiple
  obtain ⟨fields, name, type, _, _, _, _, _, _, _, _, _, rfl, rfl⟩ :=
    readRecord_eq_ok_iff.mp iteration.read
  simp only [makeEntry]
  generalize aligned (offset + 110 + fields.nameSize) = dataStart
  unfold aligned
  omega

/-- One test of the loop condition for each byte in front is enough, and one for the end. -/
theorem parseLoop_ends (forward : MovesForward blob) {budget : Nat} {collected : List Entry}
    (visited : Visited blob offset) (positive : 0 < budget)
    (enough : (blob.length : Int) - offset < budget) :
    (parseLoop blob budget offset collected).isSome := by
  induction budget generalizing offset collected with
  | zero => contradiction
  | succ budget ih =>
      rw [parseLoop]
      by_cases inside : offset < blob.length
      · rw [if_pos inside]
        cases read : readRecord blob offset with
        | error error => rfl
        | ok result =>
            obtain ⟨entry, nextOffset⟩ := result
            by_cases isTrailer : entry.path = trailerName
            · simp only [if_pos isTrailer]
              split <;> rfl
            · simp only [if_neg isTrailer]
              have moved := forward _ _ _ ⟨visited, inside, read, isTrailer⟩
              exact ih (.next visited inside read isTrailer) (by omega) (by omega)
      · rw [if_neg inside]
        rfl

/-- The loop moves forward at every iteration, and ends after at most as many
iterations as the archive has bytes, exactly when no size leads it back. -/
theorem parseNewc_ends_iff (blob : Bytes) :
    (MovesForward blob ∧ ∀ budget, blob.length < budget → (parseNewc budget blob).isSome) ↔
      SizesForward blob := by
  have same : MovesForward blob ↔ SizesForward blob :=
    ⟨fun forward _ _ _ iteration => iteration.forward_iff.mp (forward _ _ _ iteration),
      fun sizes _ _ _ iteration => iteration.forward_iff.mpr (sizes _ _ _ iteration)⟩
  rw [← same]
  refine ⟨And.left, fun forward => ⟨forward, fun budget enough => ?_⟩⟩
  exact parseLoop_ends forward .start (by omega) (by omega)

/-- Plain hexadecimal fields never lead back. -/
theorem HexHeaders.sizesForward (hex : HexHeaders blob) : SizesForward blob := by
  intro offset entry nextOffset iteration
  have size := hex.forwardSizes _ _ _ iteration.visited iteration.read
  have extents := readRecord_extents iteration.read size
  omega

/-- An archive of one header, whose size field is the negative of its length. -/
def circularArchive : Bytes := encodeUtf8
  ("070701" ++ "00000000" ++ "000081a4" ++ "00000000" ++ "00000000" ++ "00000001" ++ "00000000" ++
    "-0000070" ++ "00000000" ++ "00000000" ++ "00000000" ++ "00000000" ++ "00000002" ++ "00000000" ++
    "a\x00")

theorem readRecord_circularArchive :
    ∃ entry, readRecord circularArchive 0 = .ok (entry, 0) ∧ entry.path ≠ trailerName := by
  have read : (readRecord circularArchive 0).map (fun result => (result.1.path, result.2)) =
      .ok ("a", 0) := by decide +kernel
  cases found : readRecord circularArchive 0 with
  | error error =>
      rw [found] at read
      cases read
  | ok result =>
      obtain ⟨entry, nextOffset⟩ := result
      rw [found] at read
      simp only [Except.map, Except.ok.injEq, Prod.mk.injEq] at read
      obtain ⟨path, rfl⟩ := read
      refine ⟨entry, rfl, ?_⟩
      rw [path]
      decide

/-- The loop reads the one header of this archive again and again. -/
theorem parseNewc_circularArchive :
    ¬ MovesForward circularArchive ∧ ∀ budget, parseNewc budget circularArchive = none := by
  obtain ⟨entry, read, notTrailer⟩ := readRecord_circularArchive
  have inside : (0 : Int) < circularArchive.length := by decide +kernel
  refine ⟨fun forward => ?_, fun budget => ?_⟩
  · exact Int.lt_irrefl 0 (forward 0 entry 0 ⟨.start, inside, read, notTrailer⟩)
  · unfold parseNewc
    generalize ([] : List Entry) = collected
    induction budget generalizing collected with
    | zero => rfl
    | succ budget ih =>
        rw [parseLoop, if_pos inside, read]
        simp only [if_neg notTrailer]
        exact ih _

end DashTwrp.Newc
