import DashTwrp.Newc.Encoding
import Mathlib.Data.List.Chain

namespace DashTwrp.Newc

open DashTwrp.Python

/-! How the records of an accepted archive lie. -/

variable {blob : Bytes} {budget : Nat} {offset final : Int} {trailer : Entry} {entries : List Entry}

/-- The one record ends before the other begins. -/
def Before (earlier later : Entry) : Prop :=
  earlier.headerStart < later.headerStart ∧ earlier.dataEnd ≤ later.headerStart

/-- The records follow each other without gap, from the start of the archive to
the trailer, and no two of them share a byte. -/
structure Tiles (blob : Bytes) (entries : List Entry) (trailer : Entry) : Prop where
  trailer_read : ∃ final, readRecord blob trailer.headerStart = .ok (trailer, final) ∧
    trailer.path = trailerName
  first : ((entries ++ [trailer]).head?.map Entry.headerStart) = some 0
  next : (entries ++ [trailer]).IsChain fun earlier later =>
    later.headerStart = aligned earlier.dataEnd
  sizes : ∀ entry ∈ entries, 0 ≤ entry.size
  extents : ∀ entry ∈ entries, entry.headerStart + 110 < entry.dataStart ∧
    entry.dataStart ≤ entry.dataEnd ∧ entry.dataEnd ≤ blob.length
  apart : (entries ++ [trailer]).Pairwise Before

instance : IsTrans Entry Before where
  trans := fun first second third front back => by
    unfold Before at *
    omega

theorem readRecord_headerStart {entry : Entry} {nextOffset : Int}
    (read : readRecord blob offset = .ok (entry, nextOffset)) :
    entry.headerStart = offset ∧ nextOffset = aligned entry.dataEnd := by
  obtain ⟨_, _, _, _, _, _, _, _, _, _, _, _, rfl, rfl⟩ := readRecord_eq_ok_iff.mp read
  exact ⟨rfl, rfl⟩

/-- The record that ends a run, and the chain that leads to it. -/
theorem Records.chain (records : Records blob offset entries final) :
    ∃ trailer, readRecord blob trailer.headerStart = .ok (trailer, final) ∧
      trailer.path = trailerName ∧ trailer.size = 0 ∧
      ((entries ++ [trailer]).head?.map Entry.headerStart) = some offset ∧
      (entries ++ [trailer]).IsChain fun earlier later =>
        later.headerStart = aligned earlier.dataEnd := by
  induction records with
  | @trailer offset nextOffset entry inside read isTrailer empty =>
      obtain ⟨here, -⟩ := readRecord_headerStart read
      refine ⟨entry, ?_, isTrailer, empty, ?_, .singleton _⟩
      · rw [here, read]
      · rw [List.nil_append, List.head?_cons, Option.map_some, here]
  | @entry offset nextOffset final entry rest inside read notTrailer records ih =>
      obtain ⟨trailer, trailerRead, isTrailer, empty, starts, chain⟩ := ih
      obtain ⟨here, next⟩ := readRecord_headerStart read
      refine ⟨trailer, trailerRead, isTrailer, empty, ?_, ?_⟩
      · rw [List.cons_append, List.head?_cons, Option.map_some, here]
      · cases follows : rest ++ [trailer] with
        | nil => simp at follows
        | cons second later =>
            rw [follows] at starts chain
            rw [List.cons_append, follows]
            refine .cons_cons ?_ chain
            rw [List.head?_cons, Option.map_some, Option.some.injEq] at starts
            rw [starts, next]

/-- Every entry of a run is a record the loop has visited. -/
theorem Records.visited (visited : Visited blob offset)
    (records : Records blob offset entries final) :
    ∀ entry ∈ entries, ∃ nextOffset, Visited blob entry.headerStart ∧
      readRecord blob entry.headerStart = .ok (entry, nextOffset) := by
  induction records with
  | trailer => simp
  | entry inside read notTrailer records ih =>
      intro other member
      cases member with
      | head =>
          obtain ⟨here, -⟩ := readRecord_headerStart read
          rw [here]
          exact ⟨_, visited, read⟩
      | tail _ later => exact ih (.next visited inside read notTrailer) other later

/-- What the loop reads at an offset it visits is an entry of the run, or has no data. -/
theorem Records.of_visited (records : Records blob 0 entries final) (visited : Visited blob offset) :
    ∃ rest, Records blob offset rest final ∧ rest <:+ entries := by
  induction visited with
  | start => exact ⟨entries, records, List.suffix_refl _⟩
  | next visited inside read notTrailer ih =>
      obtain ⟨rest, run, suffix⟩ := ih
      cases run with
      | trailer _ sameRead isTrailer _ =>
          rw [read] at sameRead
          cases sameRead
          exact absurd isTrailer notTrailer
      | entry _ sameRead _ later =>
          rw [read] at sameRead
          cases sameRead
          exact ⟨_, later, (List.suffix_cons _ _).trans suffix⟩

theorem Records.forwardSizes (records : Records blob 0 entries final)
    (sizes : ∀ entry ∈ entries, 0 ≤ entry.size) : ForwardSizes blob := by
  intro offset entry nextOffset visited read
  obtain ⟨rest, run, suffix⟩ := records.of_visited visited
  cases run with
  | trailer _ sameRead _ empty =>
      rw [read] at sameRead
      cases sameRead
      exact Int.le_of_eq empty.symm
  | entry _ sameRead _ _ =>
      rw [read] at sameRead
      cases sameRead
      exact sizes _ (suffix.subset (List.mem_cons_self ..))

/-- The records of an accepted archive tile it exactly when no header the loop
visits has a size field that is read as a negative number. -/
theorem parseNewc_tiles_iff (parsed : parseNewc budget blob = some (.ok entries)) :
    (∃ trailer, Tiles blob entries trailer) ↔ ForwardSizes blob := by
  obtain ⟨-, final, records, -⟩ := parseNewc_eq_ok_iff.mp parsed
  refine ⟨fun ⟨trailer, tiles⟩ => records.forwardSizes tiles.sizes, fun forward => ?_⟩
  obtain ⟨trailer, read, isTrailer, empty, starts, chain⟩ := records.chain
  obtain ⟨-, within, -⟩ := records.ordered forward .start
  have extents : ∀ entry ∈ entries ++ [trailer], entry.headerStart < entry.dataEnd := by
    intro entry member
    cases List.mem_append.mp member with
    | inl inside =>
        have bounds := within entry inside
        omega
    | inr last =>
        cases List.mem_singleton.mp last
        have bounds := readRecord_extents read (Int.le_of_eq empty.symm)
        omega
  refine ⟨trailer, ⟨final, read, isTrailer⟩, starts, chain, ?_, ?_, ?_⟩
  · intro entry member
    obtain ⟨nextOffset, visited, entryRead⟩ := records.visited .start entry member
    exact forward _ _ _ visited entryRead
  · intro entry member
    have bounds := within entry member
    omega
  · have ordered : (entries ++ [trailer]).IsChain Before := by
      refine chain.imp_of_mem_imp fun earlier later member _ next => ?_
      have below := extents earlier member
      have rounded := le_aligned earlier.dataEnd
      exact ⟨by omega, by omega⟩
    exact List.isChain_iff_pairwise.mp ordered

theorem shortName_notTrailer : "a" ≠ trailerName ∧ "b" ≠ trailerName := by decide

theorem shortName_small : (encodeUtf8 "a").length + 1 < 2 ^ 32 ∧ (encodeUtf8 "b").length + 1 < 2 ^ 32 :=
  by decide

/-- An archive of an empty file and one of five bytes. -/
def twoFileArchive : Archive :=
  .join (.single "a" [] shortName_notTrailer.1 shortName_small.1 (Nat.two_pow_pos 32))
    (.single "b" [1, 2, 3, 4, 5] shortName_notTrailer.2 shortName_small.2 (by decide))

theorem parseNewc_tiles_iff_twoFiles :
    ∃ entries trailer, parseNewc 3 twoFileArchive.encode = some (.ok entries) ∧
      entries.length = 2 ∧ Tiles twoFileArchive.encode entries trailer := by
  have parsed : parseNewc 3 twoFileArchive.encode =
      some (.ok (Archive.entriesFrom 0 twoFileArchive.records)) := by
    refine parseNewc_eq_ok_iff.mpr
      ⟨?_, _, twoFileArchive.records_from_start, twoFileArchive.zero_tail⟩
    rw [Archive.length_entriesFrom]
    decide
  obtain ⟨trailer, tiles⟩ :=
    (parseNewc_tiles_iff parsed).mpr twoFileArchive.hexHeaders.forwardSizes
  exact ⟨_, trailer, parsed, Archive.length_entriesFrom _ _, tiles⟩

/-- The trailer stands in the name of the only entry, whose size leads back to it. -/
def nestedArchive : Bytes := encodeUtf8
  ("070701" ++ "00000000" ++ "000081a4" ++ "00000000" ++ "00000000" ++ "00000001" ++ "00000000" ++
    "-000007c" ++ "00000000" ++ "00000000" ++ "00000000" ++ "00000000" ++ "0000007b" ++ "00000000" ++
    "aa" ++
    "070701" ++ "00000000" ++ "00000000" ++ "00000000" ++ "00000000" ++ "00000001" ++ "00000000" ++
    "00000000" ++ "00000000" ++ "00000000" ++ "00000000" ++ "00000000" ++ "0000000b" ++ "00000000" ++
    trailerName ++ "\x00\x00\x00\x00")

theorem parseNewc_nestedArchive :
    ∃ entries, parseNewc 2 nestedArchive = some (.ok entries) ∧
      ¬ ∃ trailer, Tiles nestedArchive entries trailer := by
  have sizes : (parseNewc 2 nestedArchive).map
      (fun result => result.toOption.map fun entries => entries.map Entry.size) =
        some (some [-124]) := by decide +kernel
  simp only [Option.map_eq_some_iff] at sizes
  obtain ⟨result, parsed, entries, returned, size⟩ := sizes
  cases result with
  | error error => cases returned
  | ok value =>
      cases returned
      refine ⟨_, parsed, fun ⟨trailer, tiles⟩ => ?_⟩
      obtain ⟨entry, member, negative⟩ : ∃ entry ∈ entries, entry.size = -124 := by
        have listed : (-124 : Int) ∈ entries.map Entry.size := by simp [size]
        simpa using listed
      have positive := tiles.sizes entry member
      omega

end DashTwrp.Newc
