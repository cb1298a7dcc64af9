import DashTwrp.Python.Text
import DashTwrp.Unix.Disk
import DashTwrp.Unix.Programs

namespace DashTwrp.Python

open DashTwrp.Unix

/-! Programs that work on a disk and run other programs.

Which operations the operating system fails, and what the other programs do, is
up to an environment that is not modelled. -/

structure Invocation where
  command : List String
  stdin : Option Bytes
deriving DecidableEq, Repr

structure Completed where
  returncode : Int
  stdout : Bytes
  stderr : Bytes
deriving DecidableEq, Repr

/-- A run of another program; `error` when it could not be started. -/
structure Call where
  invocation : Invocation
  answer : Except OsError Completed

structure World where
  disk : Disk
  /-- The number of operations so far, which the environment's faults go by. -/
  clock : Nat
  calls : List Call
  printed : List String

/-- An operation the operating system fails.  A write may fail half way. -/
structure Fault where
  error : OsError
  written : Nat
deriving DecidableEq, Repr

structure Environment where
  cwd : Location
  process : List Call → Invocation → Except OsError Completed
  fault : Nat → Option Fault
  /-- The links a resolution goes through before it counts as a loop. -/
  links : Nat

/-- Python's exceptions; `tool` holds those a program raises itself. -/
inductive Exception (ε : Type) where
  | os (error : OsError)
  | runtime (message : String)
  | calledProcess (command : List String) (returncode : Int)
  | unicodeDecode (raw : Bytes)
  | tool (error : ε)
deriving DecidableEq, Repr

abbrev Program (ε : Type) := EStateM (Exception ε) World

section

variable {ε α : Type} (env : Environment)

def raiseIf (condition : Prop) [Decidable condition] (message : String) : Program ε Unit :=
  if condition then throw (.runtime message) else pure ()

/-- An operation on the disk, unless the operating system fails it. -/
def onDisk (effect : Disk → Except OsError (α × Disk)) : Program ε α := fun world =>
  let ticked := { world with clock := world.clock + 1 }
  match env.fault world.clock with
  | some fault => .error (.os fault.error) ticked
  | none =>
      match effect world.disk with
      | .error error => .error (.os error) ticked
      | .ok (value, disk) => .ok value { ticked with disk }

/-- A question about the disk that no failure can interrupt. -/
def ask (question : Disk → α) : Program ε α := fun world => .ok (question world.disk) world

def isFile (path : PurePath) : Program ε Bool :=
  ask fun disk => disk.tree.isFile env.cwd path

def lexists (path : PurePath) : Program ε Bool :=
  ask fun disk => disk.tree.lexists env.cwd path

/-- `path.read_bytes()` -/
def readBytes (path : PurePath) : Program ε Bytes :=
  onDisk env fun disk => (disk.readBytes env.cwd path).map (·, disk)

/-- `path.open("xb")`, which gives the new file. -/
def openExclusive (path : PurePath) : Program ε Inode :=
  onDisk env (Disk.makeFile env.cwd path)

/-- Write to an open file.  A fault leaves the front part of the data. -/
def writeTo (stream : Inode) (data : Bytes) : Program ε Unit := fun world =>
  match env.fault world.clock with
  | some fault =>
      .error (.os fault.error)
        { world with
          clock := world.clock + 1, disk := world.disk.append stream (data.take fault.written) }
  | none =>
      .ok () { world with clock := world.clock + 1, disk := world.disk.append stream data }

def makeDirectory (path : PurePath) : Program ε Unit :=
  onDisk env (Disk.makeDirectory env.cwd path)

/-- What `Path.mkdir(exist_ok=True)` does with an error of `os.mkdir`. -/
def unlessDirectory (path : PurePath) (error : Exception ε) : Program ε Unit := do
  let directory ← ask fun disk => disk.tree.isDir env.cwd path
  if directory then pure () else throw error

/-- `path.mkdir(exist_ok=True)` -/
def mkdirLast (path : PurePath) : Program ε Unit :=
  tryCatch (makeDirectory env path) fun
    | .os .noEntry => throw (.os .noEntry)
    | error => unlessDirectory env path error

/-- `path.mkdir(parents=True, exist_ok=True)`, by the components from the last on. -/
def mkdirFrom (absolute : Bool) : List Step → Program ε Unit
  | [] => mkdirLast env ⟨absolute, []⟩
  | step :: rest =>
      let path := ⟨absolute, (step :: rest).reverse⟩
      tryCatch (makeDirectory env path) fun
        | .os .noEntry => do
            mkdirFrom absolute rest
            mkdirLast env path
        | error => unlessDirectory env path error

def mkdirParents (path : PurePath) : Program ε Unit :=
  mkdirFrom env path.absolute path.steps.reverse

/-- `subprocess.run` -/
def run (command : List String) (stdin : Option Bytes) : Program ε Completed := fun world =>
  let invocation := ⟨command, stdin⟩
  let answer := env.process world.calls invocation
  let after := { world with calls := world.calls ++ [⟨invocation, answer⟩] }
  match answer with
  | .error error => .error (.os error) after
  | .ok completed => .ok completed after

/-- `check=True` -/
def checkReturncode (command : List String) (completed : Completed) : Program ε Unit :=
  if completed.returncode ≠ 0 then throw (.calledProcess command completed.returncode) else pure ()

/-- `text=True` -/
def decoded (raw : Bytes) : Program ε (List Char) :=
  match decodeText raw with
  | none => throw (.unicodeDecode raw)
  | some text => pure text

/-- `print`, which can fail as any other output. -/
def print (line : String) : Program ε Unit := fun world =>
  match env.fault world.clock with
  | some fault => .error (.os fault.error) { world with clock := world.clock + 1 }
  | none => .ok () { world with clock := world.clock + 1, printed := world.printed ++ [line] }

/-! ### When an operation returns, and what it leaves then -/

theorem ask_eq_ok_iff {question : Disk → α} {before after : World} {answer : α} :
    (ask question : Program ε α) before = .ok answer after ↔
      answer = question before.disk ∧ after = before := by
  refine ⟨fun asked => ?_, fun same => ?_⟩
  · cases asked
    exact ⟨rfl, rfl⟩
  · obtain ⟨rfl, rfl⟩ := same
    rfl

theorem raiseIf_eq_ok_iff {condition : Prop} [Decidable condition] {message : String}
    {before after : World} {result : Unit} :
    (raiseIf condition message : Program ε Unit) before = .ok result after ↔
      ¬ condition ∧ after = before := by
  unfold raiseIf
  split
  · rename_i holds
    exact iff_of_false (fun returned => nomatch returned) fun found => found.1 holds
  · rename_i fails
    exact ⟨fun returned => ⟨fails, (pure_eq_ok returned).2⟩, fun found => found.2 ▸ rfl⟩

theorem run_eq_ok_iff {command : List String} {stdin : Option Bytes} {before after : World}
    {completed : Completed} :
    (run env command stdin : Program ε Completed) before = .ok completed after ↔
      env.process before.calls ⟨command, stdin⟩ = .ok completed ∧
        after = { before with calls := before.calls ++ [⟨⟨command, stdin⟩, .ok completed⟩] } := by
  unfold run
  simp only
  cases answer : env.process before.calls ⟨command, stdin⟩ with
  | error error => simp
  | ok result =>
      simp only [EStateM.Result.ok.injEq, Except.ok.injEq]
      refine ⟨fun found => ?_, fun found => ?_⟩
      · obtain ⟨rfl, same⟩ := found
        exact ⟨rfl, same.symm⟩
      · obtain ⟨rfl, same⟩ := found
        exact ⟨rfl, same.symm⟩

theorem onDisk_eq_ok_iff {effect : Disk → Except OsError (α × Disk)} {before after : World}
    {value : α} : (onDisk env effect : Program ε α) before = .ok value after ↔
      env.fault before.clock = none ∧ ∃ disk, effect before.disk = .ok (value, disk) ∧
        after = { before with clock := before.clock + 1, disk } := by
  unfold onDisk
  cases fault : env.fault before.clock with
  | some fault => simp
  | none =>
      cases done : effect before.disk with
      | error error => simp
      | ok pair =>
          obtain ⟨result, disk⟩ := pair
          refine ⟨fun returned => ?_, fun found => ?_⟩
          · cases returned
            exact ⟨rfl, disk, rfl, rfl⟩
          · obtain ⟨-, other, same, rfl⟩ := found
            cases same
            rfl

/-- An operation on the disk that fails leaves the disk alone. -/
theorem onDisk_eq_error {effect : Disk → Except OsError (α × Disk)} {before after : World}
    {error : Exception ε} (failed : (onDisk env effect : Program ε α) before = .error error after) :
    after.disk = before.disk := by
  unfold onDisk at failed
  cases fault : env.fault before.clock with
  | some fault =>
      simp only [fault] at failed
      cases failed
      rfl
  | none =>
      cases done : effect before.disk with
      | error error =>
          simp only [fault, done] at failed
          cases failed
          rfl
      | ok pair =>
          simp only [fault, done] at failed
          cases failed

theorem readBytes_eq_ok_iff {path : PurePath} {before after : World} {bytes : Bytes} :
    (readBytes env path : Program ε Bytes) before = .ok bytes after ↔
      env.fault before.clock = none ∧ before.disk.readBytes env.cwd path = .ok bytes ∧
        after = { before with clock := before.clock + 1 } := by
  rw [readBytes, onDisk_eq_ok_iff]
  refine and_congr_right fun _ => ?_
  cases found : before.disk.readBytes env.cwd path with
  | error error => simp [Except.map]
  | ok content => simp [Except.map, and_assoc]

theorem writeTo_eq_ok_iff {stream : Inode} {data : Bytes} {before after : World} {result : Unit} :
    (writeTo env stream data : Program ε Unit) before = .ok result after ↔
      env.fault before.clock = none ∧ after =
        { before with clock := before.clock + 1, disk := before.disk.append stream data } := by
  unfold writeTo
  cases fault : env.fault before.clock with
  | some fault => simp
  | none => simp [eq_comm]

theorem print_eq_ok_iff {line : String} {before after : World} {result : Unit} :
    (print env line : Program ε Unit) before = .ok result after ↔
      env.fault before.clock = none ∧ after =
        { before with clock := before.clock + 1, printed := before.printed ++ [line] } := by
  unfold print
  cases fault : env.fault before.clock with
  | some fault => simp
  | none => simp [eq_comm]

theorem checkReturncode_eq_ok_iff {command : List String} {completed : Completed}
    {before after : World} {result : Unit} :
    (checkReturncode command completed : Program ε Unit) before = .ok result after ↔
      completed.returncode = 0 ∧ after = before := by
  unfold checkReturncode
  split
  · rename_i failed
    exact iff_of_false (fun returned => nomatch returned) fun found => failed found.1
  · rename_i success
    exact ⟨fun returned => ⟨not_not.mp success, (pure_eq_ok returned).2⟩, fun found => found.2 ▸ rfl⟩

theorem decoded_eq_ok_iff {raw : Bytes} {before after : World} {text : List Char} :
    (decoded raw : Program ε (List Char)) before = .ok text after ↔
      decodeText raw = some text ∧ after = before := by
  unfold decoded
  cases found : decodeText raw with
  | none => exact iff_of_false (fun returned => nomatch returned) fun same => nomatch same.1
  | some result => simp [pure, EStateM.pure, eq_comm]

/-- The file that is opened is new and empty. -/
theorem openExclusive_eq_ok {path : PurePath} {before after : World} {stream : Inode}
    (returned : (openExclusive env path : Program ε Inode) before = .ok stream after) :
    (∃ location, before.disk.NewFile after.disk env.cwd path location stream []) ∧
      after.calls = before.calls := by
  obtain ⟨-, disk, made, rfl⟩ := (onDisk_eq_ok_iff env).mp returned
  exact ⟨Disk.newFile_of_makeFile made, rfl⟩

/-! ### Stretches in which nothing fails -/

/-- The next operations are not failed. -/
def Undisturbed (clock count : Nat) : Prop := ∀ later < count, env.fault (clock + later) = none

theorem undisturbed_add (clock front back : Nat) :
    Undisturbed env clock (front + back) ↔
      Undisturbed env clock front ∧ Undisturbed env (clock + front) back := by
  unfold Undisturbed
  refine ⟨fun quiet => ⟨fun later inside => quiet later (by omega), fun later inside => ?_⟩,
    fun quiet later inside => ?_⟩
  · rw [Nat.add_assoc]
    exact quiet (front + later) (by omega)
  · by_cases early : later < front
    · exact quiet.1 later early
    · obtain ⟨rest, rfl⟩ := Nat.exists_eq_add_of_le (Nat.not_lt.mp early)
      rw [← Nat.add_assoc]
      exact quiet.2 rest (by omega)

theorem undisturbed_succ {clock count : Nat} :
    Undisturbed env clock (count + 1) ↔ env.fault clock = none ∧ Undisturbed env (clock + 1) count := by
  rw [Nat.add_comm, undisturbed_add]
  simp [Undisturbed]

theorem undisturbed_zero {clock : Nat} : Undisturbed env clock 0 := fun _ inside => nomatch inside

/-! ### What an operation keeps however it ends -/

section

variable {invariant : World → Prop}

theorem raiseIf_maintains (condition : Prop) [Decidable condition] (message : String) :
    Maintains invariant (raiseIf condition message : Program ε Unit) fun _ => ¬ condition := by
  unfold raiseIf
  split
  · exact maintains_throw _
  · rename_i fails
    exact maintains_pure fails

theorem ask_maintains (question : Disk → α) :
    Maintains invariant (ask question : Program ε α) fun _ => True :=
  fun _ holds => ⟨holds, trivial⟩

theorem checkReturncode_maintains (command : List String) (completed : Completed) :
    Maintains invariant (checkReturncode command completed : Program ε Unit)
      fun _ => completed.returncode = 0 := by
  unfold checkReturncode
  split
  · exact maintains_throw _
  · rename_i zero
    exact maintains_pure (not_not.mp zero)

theorem decoded_maintains (raw : Bytes) :
    Maintains invariant (decoded raw : Program ε (List Char)) fun _ => True := by
  unfold decoded
  split
  · exact maintains_throw _
  · exact maintains_pure trivial

theorem unlessDirectory_maintains (path : PurePath) (error : Exception ε) :
    Maintains invariant (unlessDirectory env path error) fun _ => True := by
  refine maintains_bind (ask_maintains _) fun directory _ => ?_
  split
  · exact maintains_pure trivial
  · exact maintains_throw _

variable (makes : ∀ path, Maintains invariant (makeDirectory env path : Program ε Unit) fun _ => True)

include makes

theorem mkdirLast_maintains (path : PurePath) :
    Maintains invariant (mkdirLast env path : Program ε Unit) fun _ => True := by
  refine maintains_tryCatch (makes path) fun error => ?_
  split
  · exact maintains_throw _
  · exact unlessDirectory_maintains env path _

theorem mkdirFrom_maintains (absolute : Bool) (steps : List Step) :
    Maintains invariant (mkdirFrom env absolute steps : Program ε Unit) fun _ => True := by
  induction steps with
  | nil => exact mkdirLast_maintains env makes _
  | cons step rest ih =>
      refine maintains_tryCatch (makes _) fun error => ?_
      split
      · exact maintains_bind ih fun _ _ => mkdirLast_maintains env makes _
      · exact unlessDirectory_maintains env _ _

/-- What one directory more keeps is kept by `mkdir` with its parents. -/
theorem mkdirParents_maintains (path : PurePath) :
    Maintains invariant (mkdirParents env path : Program ε Unit) fun _ => True :=
  mkdirFrom_maintains env makes _ _

end

/-- A property of the disk alone is kept by what keeps it on the disk. -/
theorem onDisk_maintains {invariant : Disk → Prop} {effect : Disk → Except OsError (α × Disk)}
    (keeps : ∀ before value after, invariant before → effect before = .ok (value, after) →
      invariant after) :
    Maintains (fun world => invariant world.disk) (onDisk env effect : Program ε α)
      fun _ => True := by
  intro before holds
  unfold onDisk
  cases fault : env.fault before.clock with
  | some fault => exact holds
  | none =>
      cases done : effect before.disk with
      | error error => exact holds
      | ok pair => exact ⟨keeps _ _ _ holds done, trivial⟩

theorem run_maintains {invariant : Disk → Prop} (command : List String) (stdin : Option Bytes) :
    Maintains (fun world => invariant world.disk) (run env command stdin : Program ε Completed)
      fun _ => True := by
  intro before holds
  unfold run
  simp only
  cases env.process before.calls ⟨command, stdin⟩ with
  | error error => exact holds
  | ok completed => exact ⟨holds, trivial⟩

theorem print_maintains {invariant : Disk → Prop} (line : String) :
    Maintains (fun world => invariant world.disk) (print env line : Program ε Unit)
      fun _ => True := by
  intro before holds
  unfold print
  cases env.fault before.clock with
  | some fault => exact holds
  | none => exact ⟨holds, trivial⟩

/-! ### What the operations keep of a former disk -/

/-- The disk has everything a former disk had, and the calls so far are as described. -/
structure Steady (base : Disk) (log : List Call → Prop) (world : World) : Prop where
  kept : base.Kept world.disk
  calls : log world.calls

variable {base : Disk} {log : List Call → Prop}

theorem onDisk_steady {effect : Disk → Except OsError (α × Disk)} {result : α → Prop}
    (keeps : ∀ before value after, base.Kept before → effect before = .ok (value, after) →
      base.Kept after ∧ result value) :
    Maintains (Steady base log) (onDisk env effect : Program ε α) result := by
  intro before steady
  unfold onDisk
  cases fault : env.fault before.clock with
  | some fault => exact ⟨steady.kept, steady.calls⟩
  | none =>
      cases done : effect before.disk with
      | error error =>
          simp only
          exact ⟨steady.kept, steady.calls⟩
      | ok pair =>
          obtain ⟨value, disk⟩ := pair
          obtain ⟨kept, described⟩ := keeps _ _ _ steady.kept done
          exact ⟨⟨kept, steady.calls⟩, described⟩

theorem readBytes_steady (path : PurePath) :
    Maintains (Steady base log) (readBytes env path : Program ε Bytes) fun _ => True := by
  refine onDisk_steady env fun before value after kept done => ⟨?_, trivial⟩
  cases read : before.readBytes env.cwd path with
  | error error =>
      rw [read] at done
      contradiction
  | ok bytes =>
      rw [read] at done
      cases done
      exact kept

theorem makeDirectory_steady (path : PurePath) :
    Maintains (Steady base log) (makeDirectory env path : Program ε Unit) fun _ => True :=
  onDisk_steady env fun _ _ _ kept done => ⟨kept.trans (Disk.makeDirectory_kept done), trivial⟩

/-- The file that is opened is none of the old ones. -/
theorem openExclusive_steady (path : PurePath) :
    Maintains (Steady base log) (openExclusive env path : Program ε Inode)
      fun stream => base.next ≤ stream := by
  refine onDisk_steady env fun _ _ _ kept done => ?_
  obtain ⟨rfl, grown, -⟩ := Disk.makeFile_eq_ok done
  exact ⟨kept.trans grown, kept.next⟩

theorem writeTo_steady {stream : Inode} (unused : base.next ≤ stream) (data : Bytes) :
    Maintains (Steady base log) (writeTo env stream data : Program ε Unit) fun _ => True := by
  intro before steady
  unfold writeTo
  cases env.fault before.clock with
  | some fault => exact ⟨Disk.append_kept steady.kept unused, steady.calls⟩
  | none => exact ⟨⟨Disk.append_kept steady.kept unused, steady.calls⟩, trivial⟩

theorem mkdirParents_steady (path : PurePath) :
    Maintains (Steady base log) (mkdirParents env path : Program ε Unit) fun _ => True :=
  mkdirParents_maintains env (makeDirectory_steady env) path

/-- Another program changes no file by itself, but there is one call more. -/
theorem run_steady (command : List String) (stdin : Option Bytes) :
    Maintains (Steady base fun _ => True) (run env command stdin : Program ε Completed)
      fun _ => True := by
  intro before steady
  unfold run
  simp only
  cases env.process before.calls ⟨command, stdin⟩ with
  | error error => exact ⟨steady.kept, trivial⟩
  | ok completed => exact ⟨⟨steady.kept, trivial⟩, trivial⟩

theorem print_steady (line : String) :
    Maintains (Steady base log) (print env line : Program ε Unit) fun _ => True := by
  intro before steady
  unfold print
  cases env.fault before.clock with
  | some fault => exact ⟨steady.kept, steady.calls⟩
  | none => exact ⟨⟨steady.kept, steady.calls⟩, trivial⟩

end

end DashTwrp.Python
