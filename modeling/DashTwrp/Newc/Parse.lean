import DashTwrp.Python.Integers
import DashTwrp.Python.Text

namespace DashTwrp.Newc

open DashTwrp.Python

/-! `parse_newc` of the adbd property patch tool.

Every numeric field goes through `int(bytes, 16)`, so sizes and offsets are
integers and the loop is not known to move forward: it runs under an iteration
budget and `none` means that the budget ran out first.
-/

def newcMagics : List Bytes := [[0x30, 0x37, 0x30, 0x37, 0x30, 0x31], [0x30, 0x37, 0x30, 0x37, 0x30, 0x32]]

def trailerName : String := "TRAILER!!!"

/-- `stat.S_IFREG` -/
def regularFile : Nat := 0o100000

def aligned (value : Int) (alignment : Int := 4) : Int :=
  (value + alignment - 1) / alignment * alignment

/-- `stat.S_IFMT(mode)`.  The C function takes a `mode_t`, so `none` is the
`OverflowError` for a value outside its range. -/
def fileType (mode : Int) : Option Nat :=
  if 0 ≤ mode ∧ mode < 2 ^ 32 then some (mode.toNat &&& 0o170000) else none

structure Fields where
  inode : Int
  mode : Int
  uid : Int
  gid : Int
  nlink : Int
  mtime : Int
  size : Int
  deviceMajor : Int
  deviceMinor : Int
  rdeviceMajor : Int
  rdeviceMinor : Int
  nameSize : Int
  check : Int
deriving DecidableEq, Repr

structure Entry where
  path : String
  type : Nat
  mode : Int
  uid : Int
  gid : Int
  nlink : Int
  mtime : Int
  size : Int
  deviceMajor : Int
  deviceMinor : Int
  rdeviceMajor : Int
  rdeviceMinor : Int
  check : Int
  headerStart : Int
  dataStart : Int
  dataEnd : Int
deriving DecidableEq, Repr

/-- What `parse_newc` raises.  The last three are the exceptions of the built-in
operations it uses: `IndexError`, `UnicodeDecodeError` and `OverflowError`. -/
inductive NewcError where
  | truncatedHeader (offset : Int)
  | invalidMagic (offset : Int) (magic : Bytes)
  | invalidField (offset : Int)
  | invalidName (offset : Int)
  | truncatedData (name : String)
  | trailerContainsData
  | trailerNotFound
  | dataAfterTrailer
  | indexError
  | unicodeDecodeError (name : Bytes)
  | overflowError (mode : Int)
deriving DecidableEq, Repr

/-- The text of a `RuntimeError`; `none` where Python itself raises. -/
def NewcError.message : NewcError → Option String
  | .truncatedHeader offset => some s!"truncated newc header at {offset}"
  | .invalidMagic offset magic =>
      some (s!"invalid newc magic at {offset}: " ++ bytesRepr magic)
  | .invalidField offset => some s!"invalid newc numeric field at {offset}"
  | .invalidName offset => some s!"invalid newc name at {offset}"
  | .truncatedData name => some s!"truncated newc data for {name}"
  | .trailerContainsData => some "newc trailer contains data"
  | .trailerNotFound => some "newc trailer not found"
  | .dataAfterTrailer => some "non-zero data follows aligned newc trailer"
  | .indexError | .unicodeDecodeError _ | .overflowError _ => none

/-- `int(header[index : index + 8], 16)` -/
def numericField (header : Bytes) (index : Nat) : Option Int :=
  intBase16 (slice header index (index + 8 : Nat))

def numericFields (header : Bytes) : Option Fields := do
  let inode ← numericField header 6
  let mode ← numericField header 14
  let uid ← numericField header 22
  let gid ← numericField header 30
  let nlink ← numericField header 38
  let mtime ← numericField header 46
  let size ← numericField header 54
  let deviceMajor ← numericField header 62
  let deviceMinor ← numericField header 70
  let rdeviceMajor ← numericField header 78
  let rdeviceMinor ← numericField header 86
  let nameSize ← numericField header 94
  let check ← numericField header 102
  some { inode, mode, uid, gid, nlink, mtime, size, deviceMajor, deviceMinor,
         rdeviceMajor, rdeviceMinor, nameSize, check }

def makeEntry (fields : Fields) (name : String) (type : Nat)
    (headerStart dataStart dataEnd : Int) : Entry where
  path := name
  type := type
  mode := fields.mode
  uid := fields.uid
  gid := fields.gid
  nlink := fields.nlink
  mtime := fields.mtime
  size := fields.size
  deviceMajor := fields.deviceMajor
  deviceMinor := fields.deviceMinor
  rdeviceMajor := fields.rdeviceMajor
  rdeviceMinor := fields.rdeviceMinor
  check := fields.check
  headerStart := headerStart
  dataStart := dataStart
  dataEnd := dataEnd

/-- The loop body up to the test for the trailer: the record whose header is at
`offset`, and the offset of the next header. -/
def readRecord (blob : Bytes) (offset : Int) : Except NewcError (Entry × Int) :=
  if offset + 110 > blob.length then .error (.truncatedHeader offset)
  else
    let header := slice blob offset (offset + 110)
    if slice header 0 6 ∉ newcMagics then .error (.invalidMagic offset (slice header 0 6))
    else match numericFields header with
    | none => .error (.invalidField offset)
    | some fields =>
        let nameStart := offset + 110
        let nameEnd := nameStart + fields.nameSize
        if fields.nameSize < 1 ∨ nameEnd > blob.length then .error (.invalidName offset)
        else match item blob (nameEnd - 1) with
        | none => .error .indexError
        | some terminator =>
            if terminator ≠ 0 then .error (.invalidName offset)
            else match decodeUtf8 (slice blob nameStart (nameEnd - 1)) with
            | none => .error (.unicodeDecodeError (slice blob nameStart (nameEnd - 1)))
            | some name =>
                let dataStart := aligned nameEnd
                let dataEnd := dataStart + fields.size
                if dataEnd > blob.length then .error (.truncatedData name)
                else match fileType fields.mode with
                | none => .error (.overflowError fields.mode)
                | some type =>
                    .ok (makeEntry fields name type offset dataStart dataEnd, aligned dataEnd)

/-- What follows the loop once the trailer has been found. -/
def checkTail (blob : Bytes) (offset : Int) (entries : List Entry) :
    Except NewcError (List Entry) :=
  if (sliceFrom blob offset).any (· != 0) then .error .dataAfterTrailer else .ok entries

def parseLoop (blob : Bytes) : Nat → Int → List Entry → Option (Except NewcError (List Entry))
  | 0, _, _ => none
  | budget + 1, offset, entries =>
      if offset < blob.length then
        match readRecord blob offset with
        | .error error => some (.error error)
        | .ok (entry, nextOffset) =>
            if entry.path = trailerName then
              if entry.size ≠ 0 then some (.error .trailerContainsData)
              else some (checkTail blob nextOffset entries)
            else parseLoop blob budget nextOffset (entries ++ [entry])
      else some (.error .trailerNotFound)

def parseNewc (budget : Nat) (blob : Bytes) : Option (Except NewcError (List Entry)) :=
  parseLoop blob budget 0 []

/-- The data of an entry: `blob[data_start:data_end]` -/
def Entry.data (entry : Entry) (blob : Bytes) : Bytes :=
  slice blob entry.dataStart entry.dataEnd

theorem readRecord_eq_ok_iff {blob : Bytes} {offset : Int} {entry : Entry} {nextOffset : Int} :
    readRecord blob offset = .ok (entry, nextOffset) ↔
      ∃ fields name type,
        offset + 110 ≤ blob.length ∧
        slice (slice blob offset (offset + 110)) 0 6 ∈ newcMagics ∧
        numericFields (slice blob offset (offset + 110)) = some fields ∧
        1 ≤ fields.nameSize ∧
        offset + 110 + fields.nameSize ≤ blob.length ∧
        item blob (offset + 110 + fields.nameSize - 1) = some 0 ∧
        decodeUtf8 (slice blob (offset + 110) (offset + 110 + fields.nameSize - 1)) = some name ∧
        aligned (offset + 110 + fields.nameSize) + fields.size ≤ blob.length ∧
        fileType fields.mode = some type ∧
        entry = makeEntry fields name type offset (aligned (offset + 110 + fields.nameSize))
          (aligned (offset + 110 + fields.nameSize) + fields.size) ∧
        nextOffset = aligned entry.dataEnd := by
  constructor
  · intro accepted
    unfold readRecord at accepted
    split at accepted
    · contradiction
    · rename_i wholeHeader
      simp only at accepted
      split at accepted
      · contradiction
      · rename_i magic
        split at accepted
        · contradiction
        · rename_i fields read
          split at accepted
          · contradiction
          · rename_i nameFits
            split at accepted
            · contradiction
            · rename_i terminator found
              split at accepted
              · contradiction
              · rename_i terminated
                split at accepted
                · contradiction
                · rename_i name decoded
                  split at accepted
                  · contradiction
                  · rename_i dataFits
                    split at accepted
                    · contradiction
                    · rename_i type typed
                      simp only [Except.ok.injEq, Prod.mk.injEq] at accepted
                      obtain ⟨rfl, rfl⟩ := accepted
                      have zero : terminator = 0 := by simpa using terminated
                      subst terminator
                      exact ⟨fields, name, type, by omega, by simpa using magic, read, by omega,
                        by omega, found, decoded, by omega, typed, rfl, rfl⟩
  · rintro ⟨fields, name, type, wholeHeader, magic, read, named, nameFits, found, decoded,
      dataFits, typed, rfl, rfl⟩
    have header : ¬ offset + 110 > blob.length := by omega
    have nameOk : ¬ (fields.nameSize < 1 ∨ offset + 110 + fields.nameSize > blob.length) := by omega
    have dataOk : ¬ aligned (offset + 110 + fields.nameSize) + fields.size > blob.length := by omega
    simp [readRecord, header, magic, read, nameOk, found, decoded, dataOk, typed, makeEntry]

/-- A run of the loop from `offset`: the entries it collects and the offset
behind the trailer that ends it. -/
inductive Records (blob : Bytes) : Int → List Entry → Int → Prop where
  | trailer {offset nextOffset : Int} {entry : Entry} :
      offset < blob.length → readRecord blob offset = .ok (entry, nextOffset) →
      entry.path = trailerName → entry.size = 0 → Records blob offset [] nextOffset
  | entry {offset nextOffset final : Int} {entry : Entry} {rest : List Entry} :
      offset < blob.length → readRecord blob offset = .ok (entry, nextOffset) →
      entry.path ≠ trailerName → Records blob nextOffset rest final →
      Records blob offset (entry :: rest) final

theorem records_of_parseLoop {blob : Bytes} {budget : Nat} {offset : Int}
    {collected entries : List Entry}
    (parsed : parseLoop blob budget offset collected = some (.ok entries)) :
    ∃ rest final, entries = collected ++ rest ∧ rest.length < budget ∧
      Records blob offset rest final ∧ ∀ byte ∈ sliceFrom blob final, byte = 0 := by
  induction budget generalizing offset collected with
  | zero => simp [parseLoop] at parsed
  | succ budget ih =>
      rw [parseLoop] at parsed
      split at parsed
      · rename_i inside
        split at parsed
        · simp at parsed
        · rename_i entry nextOffset read
          split at parsed
          · rename_i isTrailer
            split at parsed
            · simp at parsed
            · rename_i empty
              simp only [checkTail, Option.some.injEq] at parsed
              split at parsed
              · contradiction
              · rename_i zeros
                cases parsed
                refine ⟨[], nextOffset, by simp, by simp,
                  .trailer inside read isTrailer (by omega), ?_⟩
                simpa using zeros
          · rename_i notTrailer
            obtain ⟨rest, final, rfl, enough, records, zeros⟩ := ih parsed
            exact ⟨entry :: rest, final, by simp, by simpa using enough,
              .entry inside read notTrailer records, zeros⟩
      · simp at parsed

theorem parseLoop_of_records {blob : Bytes} {offset final : Int} {rest : List Entry}
    (records : Records blob offset rest final) (zeros : ∀ byte ∈ sliceFrom blob final, byte = 0)
    (collected : List Entry) (budget : Nat) (enough : rest.length < budget) :
    parseLoop blob budget offset collected = some (.ok (collected ++ rest)) := by
  induction records generalizing collected budget with
  | @trailer offset nextOffset entry inside read isTrailer empty =>
      cases budget with
      | zero => omega
      | succ budget =>
          have clean : (sliceFrom blob nextOffset).any (· != 0) = false := by simpa using zeros
          simp [parseLoop, inside, read, isTrailer, empty, checkTail, clean]
  | entry inside read notTrailer records ih =>
      cases budget with
      | zero => omega
      | succ budget =>
          simp only [parseLoop, inside, read, notTrailer, if_true, if_false]
          rw [ih zeros _ budget (by simpa using enough)]
          simp

/-- `parse_newc` returns `entries` within a budget exactly when the budget
exceeds their number, a run of its loop collects them, and only zero bytes
follow the trailer. -/
theorem parseNewc_eq_ok_iff {blob : Bytes} {budget : Nat} {entries : List Entry} :
    parseNewc budget blob = some (.ok entries) ↔
      entries.length < budget ∧
        ∃ final, Records blob 0 entries final ∧ ∀ byte ∈ sliceFrom blob final, byte = 0 := by
  constructor
  · intro parsed
    obtain ⟨rest, final, same, enough, records, zeros⟩ := records_of_parseLoop parsed
    rw [List.nil_append] at same
    subst same
    exact ⟨enough, final, records, zeros⟩
  · rintro ⟨enough, final, records, zeros⟩
    simpa [parseNewc] using parseLoop_of_records records zeros [] budget enough

end DashTwrp.Newc
