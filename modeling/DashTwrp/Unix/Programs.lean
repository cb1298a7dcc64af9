namespace DashTwrp.Unix

/-! Programs with a state that a raised exception does not roll back, and the
rules by which a property of the state is kept through one however it ends. -/

variable {ε σ α β : Type}

/-- The state a program leaves, whether it returns or raises. -/
def finalState (program : EStateM ε σ α) (before : σ) : σ :=
  match program before with
  | .ok _ after => after
  | .error _ after => after

/-- From a state with the invariant the program ends in one, whether it returns
or raises, and what it returns is as described. -/
def Maintains (invariant : σ → Prop) (program : EStateM ε σ α) (result : α → Prop) : Prop :=
  ∀ before, invariant before →
    match program before with
    | .ok value after => invariant after ∧ result value
    | .error _ after => invariant after

theorem Maintains.finalState {invariant : σ → Prop} {program : EStateM ε σ α} {result : α → Prop}
    (maintained : Maintains invariant program result) {before : σ} (holds : invariant before) :
    invariant (finalState program before) := by
  have ends := maintained before holds
  unfold Unix.finalState
  split at ends
  · exact ends.1
  · exact ends

theorem Maintains.of_eq_ok {invariant : σ → Prop} {program : EStateM ε σ α} {result : α → Prop}
    (maintained : Maintains invariant program result) {before after : σ} {value : α}
    (holds : invariant before) (returned : program before = .ok value after) :
    invariant after ∧ result value := by
  have ends := maintained before holds
  rw [returned] at ends
  exact ends

theorem Maintains.weaken {invariant : σ → Prop} {program : EStateM ε σ α}
    {result weaker : α → Prop} (maintained : Maintains invariant program result)
    (implied : ∀ value, result value → weaker value) : Maintains invariant program weaker := by
  intro before holds
  have ends := maintained before holds
  split at ends
  · exact ⟨ends.1, implied _ ends.2⟩
  · exact ends

theorem maintains_pure {invariant : σ → Prop} {result : α → Prop} {value : α}
    (described : result value) : Maintains (ε := ε) invariant (pure value) result :=
  fun _ holds => ⟨holds, described⟩

theorem maintains_throw {invariant : σ → Prop} {result : α → Prop} (error : ε) :
    Maintains invariant (throw error : EStateM ε σ α) result :=
  fun _ holds => holds

theorem maintains_bind {invariant : σ → Prop} {program : EStateM ε σ α}
    {rest : α → EStateM ε σ β} {middle : α → Prop} {result : β → Prop}
    (front : Maintains invariant program middle)
    (back : ∀ value, middle value → Maintains invariant (rest value) result) :
    Maintains invariant (program >>= rest) result := by
  intro before holds
  have ends := front before holds
  change match EStateM.bind program rest before with
    | .ok value after => invariant after ∧ result value
    | .error _ after => invariant after
  unfold EStateM.bind
  cases ran : program before with
  | ok value after =>
      rw [ran] at ends
      exact back value ends.2 after ends.1
  | error error after =>
      rw [ran] at ends
      exact ends

theorem maintains_tryCatch {invariant : σ → Prop} {program : EStateM ε σ α}
    {handler : ε → EStateM ε σ α} {result : α → Prop}
    (front : Maintains invariant program result)
    (handled : ∀ error, Maintains invariant (handler error) result) :
    Maintains invariant (tryCatch program handler) result := by
  intro before holds
  have ends := front before holds
  change match EStateM.tryCatch program handler before with
    | .ok value after => invariant after ∧ result value
    | .error _ after => invariant after
  unfold EStateM.tryCatch
  simp only
  cases ran : program before with
  | ok value after =>
      rw [ran] at ends
      exact ends
  | error error after =>
      rw [ran] at ends
      exact handled error after ends

theorem pure_eq_ok {before after : σ} {value result : α}
    (returned : (pure value : EStateM ε σ α) before = .ok result after) :
    result = value ∧ after = before := by
  cases returned
  exact ⟨rfl, rfl⟩

/-- A sequence returns when its first part does and then its second part does. -/
theorem bind_eq_ok {program : EStateM ε σ α} {rest : α → EStateM ε σ β} {before after : σ}
    {result : β} (returned : (program >>= rest) before = .ok result after) :
    ∃ value middle, program before = .ok value middle ∧ rest value middle = .ok result after := by
  change EStateM.bind program rest before = _ at returned
  unfold EStateM.bind at returned
  cases ran : program before with
  | ok value middle =>
      rw [ran] at returned
      exact ⟨value, middle, rfl, returned⟩
  | error error middle =>
      rw [ran] at returned
      contradiction

theorem bind_eq_ok_iff {program : EStateM ε σ α} {rest : α → EStateM ε σ β} {before after : σ}
    {result : β} : (program >>= rest) before = .ok result after ↔
      ∃ value middle, program before = .ok value middle ∧ rest value middle = .ok result after := by
  refine ⟨bind_eq_ok, fun found => ?_⟩
  obtain ⟨value, middle, first, second⟩ := found
  change EStateM.bind program rest before = _
  rw [EStateM.bind, first]
  exact second

theorem pure_eq_ok_iff {before after : σ} {value result : α} :
    (pure value : EStateM ε σ α) before = .ok result after ↔ result = value ∧ after = before := by
  refine ⟨pure_eq_ok, fun same => ?_⟩
  obtain ⟨rfl, rfl⟩ := same
  rfl

/-- A sequence raises when its first part does, or when that returns and the rest raises. -/
theorem bind_eq_error_iff {program : EStateM ε σ α} {rest : α → EStateM ε σ β} {before after : σ}
    {error : ε} : (program >>= rest) before = .error error after ↔
      program before = .error error after ∨
        ∃ value middle, program before = .ok value middle ∧
          rest value middle = .error error after := by
  change EStateM.bind program rest before = _ ↔ _
  unfold EStateM.bind
  cases ran : program before with
  | ok value middle =>
      refine ⟨fun raised => .inr ⟨value, middle, rfl, raised⟩, fun raised => ?_⟩
      rcases raised with failed | later
      · cases failed
      · obtain ⟨_, _, same, raised⟩ := later
        cases same
        exact raised
  | error error middle => simp

theorem except_bind_eq_ok {ε α β : Type} {first : Except ε α} {next : α → Except ε β} {result : β}
    (returned : (first >>= next) = .ok result) :
    ∃ value, first = .ok value ∧ next value = .ok result := by
  cases first with
  | error error => cases returned
  | ok value => exact ⟨value, rfl, returned⟩

theorem except_bind_eq_ok_iff {ε α β : Type} {first : Except ε α} {next : α → Except ε β}
    {result : β} : (first >>= next) = .ok result ↔
      ∃ value, first = .ok value ∧ next value = .ok result := by
  refine ⟨except_bind_eq_ok, fun returned => ?_⟩
  obtain ⟨value, ran, later⟩ := returned
  rw [ran]
  exact later

theorem mapError_eq_ok {ε δ α : Type} {convert : ε → δ} {result : Except ε α} {value : α} :
    result.mapError convert = .ok value ↔ result = .ok value := by
  cases result with
  | ok found =>
      exact ⟨fun same => congrArg Except.ok (Except.ok.inj same),
        fun same => congrArg Except.ok (Except.ok.inj same)⟩
  | error error => exact ⟨fun failed => (nomatch failed), fun failed => (nomatch failed)⟩

theorem bind_of_eq_ok {program : EStateM ε σ α} {rest : α → EStateM ε σ β}
    {before middle : σ} {value : α} (returned : program before = .ok value middle) :
    (program >>= rest) before = rest value middle := by
  change EStateM.bind program rest before = _
  rw [EStateM.bind, returned]

theorem finalState_bind (program : EStateM ε σ α) (rest : α → EStateM ε σ β) (before : σ) :
    finalState (program >>= rest) before =
      match program before with
      | .ok value middle => finalState (rest value) middle
      | .error _ after => after := by
  change finalState (EStateM.bind program rest) before = _
  unfold finalState EStateM.bind
  cases program before with
  | ok value middle => rfl
  | error error after => rfl

/-- Two results that are related, or the same error. -/
def Matches (related : α → β → Prop) : Except ε α → Except ε β → Prop
  | .ok one, .ok other => related one other
  | .error one, .error other => one = other
  | _, _ => False

theorem Matches.bind {γ δ : Type} {related : α → β → Prop} {result : γ → δ → Prop}
    {one : Except ε α} {other : Except ε β} {next : α → Except ε γ} {nextOther : β → Except ε δ}
    (ends : Matches related one other)
    (rest : ∀ value valueOther, one = .ok value → related value valueOther →
      Matches result (next value) (nextOther valueOther)) :
    Matches result (one >>= next) (other >>= nextOther) := by
  cases one with
  | error error =>
      cases other with
      | error errorOther => exact ends
      | ok valueOther => exact ends.elim
  | ok value =>
      cases other with
      | error errorOther => exact ends.elim
      | ok valueOther => exact rest value valueOther rfl ends

theorem Matches.weaken {related weaker : α → β → Prop} {one : Except ε α} {other : Except ε β}
    (ends : Matches related one other)
    (implied : ∀ value valueOther, related value valueOther → weaker value valueOther) :
    Matches weaker one other := by
  cases one with
  | error error =>
      cases other with
      | error errorOther => exact ends
      | ok valueOther => exact ends
  | ok value =>
      cases other with
      | error errorOther => exact ends
      | ok valueOther => exact implied value valueOther ends

theorem matches_foldlM {ι : Type} {related : α → β → Prop} {step : α → ι → Except ε α}
    {stepOther : β → ι → Except ε β} {items : List ι}
    (goesOn : ∀ item ∈ items, ∀ one other, related one other →
      Matches related (step one item) (stepOther other item)) {one : α} {other : β}
    (start : related one other) :
    Matches related (items.foldlM step one) (items.foldlM stepOther other) := by
  induction items generalizing one other with
  | nil => exact start
  | cons item rest ih =>
      rw [List.foldlM_cons, List.foldlM_cons]
      refine (goesOn item List.mem_cons_self one other start).bind fun value valueOther _ made => ?_
      exact ih (fun later member => goesOn later (List.mem_cons_of_mem _ member)) made

theorem matches_mapError {ε' : Type} {related : α → β → Prop} {one : Except ε α}
    {other : Except ε β} (ends : Matches related one other) (wrap : ε → ε') :
    Matches related (one.mapError wrap) (other.mapError wrap) := by
  cases one with
  | error error =>
      cases other with
      | error errorOther =>
          cases ends
          rfl
      | ok value => exact ends.elim
  | ok value =>
      cases other with
      | error errorOther => exact ends.elim
      | ok valueOther => exact ends

/-- The commands of a script under `set -e`: its exit status, and what it leaves.  A
command that fails leaves the state as it was. -/
def runCommands {ι : Type} (step : σ → ι → Except ε σ) : List ι → σ → Nat × σ
  | [], state => (0, state)
  | item :: rest, state =>
      match step state item with
      | .ok after => runCommands step rest after
      | .error _ => (1, state)

/-- A script makes the commands that pass a test, up to the first that does not, where
an invariant of the commands made says that just these succeed. -/
theorem runCommands_rule {ι : Type} {step : σ → ι → Except ε σ} (invariant : List ι → σ → Prop)
    (test : ι → Bool) {items : List ι} {state : σ} (start : invariant [] state)
    (succeeds : ∀ done item rest state, items = done ++ item :: rest → invariant done state →
      test item = true → ∃ after, step state item = .ok after ∧ invariant (done ++ [item]) after)
    (fails : ∀ done item rest state, items = done ++ item :: rest → invariant done state →
      test item = false → ∃ error, step state item = .error error) :
    ∃ final, runCommands step items state = (if items.all test then 0 else 1, final) ∧
      invariant (items.takeWhile test) final := by
  have from_ : ∀ rest done state, items = done ++ rest → invariant done state →
      ∃ final, runCommands step rest state = (if rest.all test then 0 else 1, final) ∧
        invariant (done ++ rest.takeWhile test) final := by
    intro rest
    induction rest with
    | nil => exact fun done state _ holds => ⟨state, rfl, by simpa using holds⟩
    | cons item more ih =>
        intro done state split holds
        rw [runCommands, List.all_cons, List.takeWhile_cons]
        cases passes : test item with
        | true =>
            obtain ⟨after, made, holdsAfter⟩ := succeeds done item more state split holds passes
            obtain ⟨final, ran, ends⟩ := ih (done ++ [item]) after (by simp [split]) holdsAfter
            rw [List.append_assoc] at ends
            exact ⟨final, by rw [made]; exact ran, ends⟩
        | false =>
            obtain ⟨error, failed⟩ := fails done item more state split holds passes
            exact ⟨state, by rw [failed]; rfl, by simpa using holds⟩
  exact from_ items [] state rfl start

/-- A result is seen to be one by what is read of it. -/
theorem ok_of_read {result : Except ε α} {read : α → β} {value : β}
    (found : result.toOption.map read = some value) :
    ∃ after, result = .ok after ∧ read after = value := by
  cases result with
  | error error => cases found
  | ok after => exact ⟨after, rfl, Option.some.inj found⟩

end DashTwrp.Unix
