import ContractDeploy.World

/-!
# Runs step by step

A run is a function of the world, so that what a sequence of steps does is what its steps do, one
after the other, up to the first that fails. The lemmas here take a sequence apart at its first
step; everything that is said of longer runs is put together from them.
-/

namespace ContractDeploy

variable {γ φ α β : Type} {world middle after : World γ φ}

/-- A sequence of pure steps gives a value when its first step gives one and the others go on from
there. -/
theorem Except.bind_eq_ok {ε : Type} {outcome : Except ε α} {next : α → Except ε β} {value : β}
    (h : outcome >>= next = .ok value) : ∃ first, outcome = .ok first ∧ next first = .ok value := by
  cases outcome with
  | ok first => exact ⟨first, rfl, h⟩
  | error error => cases h

theorem Except.map_eq_ok {ε : Type} {outcome : Except ε α} {f : α → β} {value : β}
    (h : outcome.map f = .ok value) : ∃ found, outcome = .ok found ∧ f found = value := by
  cases outcome with
  | ok found => exact ⟨found, rfl, Except.ok.inj h⟩
  | error error => cases h

theorem Except.map_eq_error {ε : Type} {outcome : Except ε α} {f : α → β} {error : ε}
    (h : outcome.map f = .error error) : outcome = .error error := by
  cases outcome with
  | ok found => cases h
  | error found => rw [Except.error.inj h]

theorem mapError_eq_ok {ε ε' α : Type} {f : ε → ε'} {outcome : Except ε α} {value : α}
    (h : outcome.mapError f = .ok value) : outcome = .ok value := by
  cases outcome with
  | ok found =>
    cases h
    rfl
  | error error => cases h

namespace Run

theorem pure_apply (value : α) (world : World γ φ) :
    (pure value : Run γ φ α) world = (.ok value, world) := rfl

theorem throw_apply (error : DeployError) (world : World γ φ) :
    (throw error : Run γ φ α) world = (.error error, world) := rfl

theorem ofExcept_apply (outcome : Except DeployError α) (world : World γ φ) :
    (liftM outcome : Run γ φ α) world = (outcome, world) := rfl

theorem ofExcept_eq_ok {outcome : Except DeployError α} {value : α}
    (h : (liftM outcome : Run γ φ α) world = (.ok value, after)) :
    outcome = .ok value ∧ world = after := by
  rw [ofExcept_apply] at h
  cases h
  exact ⟨rfl, rfl⟩

theorem ofAct_apply (act : Act γ φ α) (world : World γ φ) :
    (liftM act : Run γ φ α) world = (.ok (act world).1, (act world).2) := rfl

theorem tell_apply (notice : Notice) (world : World γ φ) :
    Run.tell notice world = (.ok (), { world with notices := world.notices ++ [notice] }) := rfl

theorem tellAll_eq_ok {notices : List Notice}
    (h : Run.tellAll notices world = (.ok (), after)) :
    after.files = world.files ∧ after.chain = world.chain := by
  cases h
  exact ⟨rfl, rfl⟩

theorem bind_of_ok {run : Run γ φ α} {next : α → Run γ φ β} {value : α}
    (h : run world = (.ok value, middle)) : (run >>= next) world = next value middle := by
  simp only [bind, ExceptT.bind, ExceptT.mk, StateT.bind, h]
  rfl

theorem bind_of_error {run : Run γ φ α} {next : α → Run γ φ β} {error : DeployError}
    (h : run world = (.error error, middle)) : (run >>= next) world = (.error error, middle) := by
  simp only [bind, ExceptT.bind, ExceptT.mk, StateT.bind, h]
  rfl

/-- What a sequence comes to depends on what its first step comes to, and on nothing else of it. -/
theorem bind_congr {run other : Run γ φ α} {next : α → Run γ φ β}
    (h : run world = other middle) : (run >>= next) world = (other >>= next) middle := by
  simp only [bind, ExceptT.bind, ExceptT.mk, StateT.bind, h]

/-- A last step that only puts the value of a run into another form. -/
theorem bind_pure_apply (run : Run γ φ α) (f : α → β) (world : World γ φ) :
    (run >>= fun value => pure (f value)) world = ((run world).1.map f, (run world).2) := by
  cases hrun : run world with
  | mk outcome middle =>
    cases outcome with
    | ok value => exact bind_of_ok hrun
    | error error => exact bind_of_error hrun

theorem tryCatch_of_ok {run : Run γ φ α} {handler : DeployError → Run γ φ α} {value : α}
    (h : run world = (.ok value, after)) : tryCatch run handler world = (.ok value, after) := by
  simp only [tryCatch, tryCatchThe, MonadExceptOf.tryCatch, ExceptT.tryCatch, ExceptT.mk, bind,
    StateT.bind, h]
  rfl

theorem tryCatch_of_error {run : Run γ φ α} {handler : DeployError → Run γ φ α}
    {error : DeployError} (h : run world = (.error error, middle)) :
    tryCatch run handler world = handler error middle := by
  simp only [tryCatch, tryCatchThe, MonadExceptOf.tryCatch, ExceptT.tryCatch, ExceptT.mk, bind,
    StateT.bind, h]

/-- A sequence of steps gives a value when its first step gives one and the others go on from
there. -/
theorem bind_eq_ok {run : Run γ φ α} {next : α → Run γ φ β} {value : β}
    (h : (run >>= next) world = (.ok value, after)) :
    ∃ first middle, run world = (.ok first, middle) ∧ next first middle = (.ok value, after) := by
  cases hrun : run world with
  | mk outcome middle =>
    cases outcome with
    | ok first => exact ⟨first, middle, rfl, by rwa [bind_of_ok hrun] at h⟩
    | error error => rw [bind_of_error hrun] at h; cases h

end Run

/-! ## Runs that only look at the files -/

/-- A run that comes to what the files as they are now give, and changes nothing. -/
def Run.Reads (run : Run γ φ α) (outcome : φ → Except DeployError α) : Prop :=
  ∀ world, run world = (outcome world.files, world)

theorem Run.reads_pure (value : α) : (pure value : Run γ φ α).Reads fun _ => .ok value :=
  fun _ => rfl

theorem Run.reads_ofExcept (outcome : Except DeployError α) :
    (liftM outcome : Run γ φ α).Reads fun _ => outcome :=
  fun _ => rfl

theorem Run.reads_bind {run : Run γ φ α} {next : α → Run γ φ β}
    {outcome : φ → Except DeployError α} {others : α → φ → Except DeployError β}
    (hrun : run.Reads outcome) (hnext : ∀ value, (next value).Reads (others value)) :
    (run >>= next).Reads fun files => outcome files >>= fun value => others value files := by
  intro world
  have hfirst := hrun world
  show _ = (outcome world.files >>= fun value => others value world.files, world)
  cases h : outcome world.files with
  | ok value =>
    rw [h] at hfirst
    exact (Run.bind_of_ok hfirst).trans (hnext value world)
  | error error =>
    rw [h] at hfirst
    exact Run.bind_of_error hfirst

/-! ## What a run changes -/

/-- A relation between moments of a run that stretches over what lies between them. -/
structure Cumulative {σ : Type} (R : σ → σ → Prop) : Prop where
  /-- Nothing happens between a moment and itself. -/
  refl : ∀ moment, R moment moment
  /-- What happens before and after a moment happens over both stretches. -/
  trans : ∀ {before middle after}, R before middle → R middle after → R before after

/-- An act stays within a relation from any world. -/
def Act.Within (R : World γ φ → World γ φ → Prop) (act : Act γ φ α) : Prop :=
  ∀ world, R world (act world).2

/-- A run stays within a relation from any world, whether it gives a value or fails. -/
def Run.Within (R : World γ φ → World γ φ → Prop) (run : Run γ φ α) : Prop :=
  ∀ world, R world (run world).2

section Within

variable {R : World γ φ → World γ φ → Prop}

theorem Act.within_bind (hR : Cumulative R) {act : Act γ φ α} {next : α → Act γ φ β}
    (hact : act.Within R) (hnext : ∀ value, (next value).Within R) : (act >>= next).Within R :=
  fun world => hR.trans (hact world) (hnext (act world).1 (act world).2)

theorem Act.within_pure (hR : Cumulative R) (value : α) : (pure value : Act γ φ α).Within R :=
  hR.refl

theorem Run.within_pure (hR : Cumulative R) (value : α) : (pure value : Run γ φ α).Within R :=
  hR.refl

theorem Run.within_throw (hR : Cumulative R) (error : DeployError) :
    (throw error : Run γ φ α).Within R :=
  hR.refl

theorem Run.within_ofExcept (hR : Cumulative R) (outcome : Except DeployError α) :
    (liftM outcome : Run γ φ α).Within R :=
  hR.refl

theorem Run.within_ofAct {act : Act γ φ α} (h : act.Within R) :
    (liftM act : Run γ φ α).Within R :=
  h

/-- What a sequence does is within a relation if its first step is and the others are after what
that step came to. -/
theorem Run.within_bind_at (hR : Cumulative R) {run : Run γ φ α} {next : α → Run γ φ β}
    {world : World γ φ} (hrun : R world (run world).2)
    (hnext : ∀ value middle, run world = (.ok value, middle) → R middle (next value middle).2) :
    R world ((run >>= next) world).2 := by
  cases h : run world with
  | mk outcome middle =>
    rw [h] at hrun
    cases outcome with
    | ok value =>
      rw [Run.bind_of_ok h]
      exact hR.trans hrun (hnext value middle h)
    | error error =>
      rw [Run.bind_of_error h]
      exact hrun

theorem Run.within_bind (hR : Cumulative R) {run : Run γ φ α} {next : α → Run γ φ β}
    (hrun : run.Within R) (hnext : ∀ value, (next value).Within R) : (run >>= next).Within R :=
  fun world => Run.within_bind_at hR (hrun world) fun value middle _ => hnext value middle

end Within

end ContractDeploy
