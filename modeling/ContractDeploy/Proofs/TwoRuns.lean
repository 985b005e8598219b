import ContractDeploy.Proofs.UpgradeRecording

/-!
# Two runs side by side

The same steps can be taken on two hosts, from two worlds. If a relation between two worlds is kept
by whatever is asked of the node, asked in both, then runs as a whole keep it and end with the same
outcome. What is told, the clock and the journal belong to one world each: the relation has to be
blind to them on either side. Artifacts are loaded from the files, so that it has to see to it that
the files of both worlds give the same.
-/

namespace ContractDeploy

variable {γ φ α β : Type}

/-- Two runs, started in related worlds, end with the same outcome in related worlds. -/
def Run.Related (R : World γ φ → World γ φ → Prop) (run other : Run γ φ α) : Prop :=
  ∀ world middle, R world middle →
    (run world).1 = (other middle).1 ∧ R (run world).2 (other middle).2

/-- A change of the first world that a relation does not see. -/
def UnseenLeft (R : World γ φ → World γ φ → Prop) (before after : World γ φ) : Prop :=
  ∀ other, R before other → R after other

/-- A change of the second world that a relation does not see. -/
def UnseenRight (R : World γ φ → World γ φ → Prop) (before after : World γ φ) : Prop :=
  ∀ world, R world before → R world after

/-! ## Putting runs together -/

section Combine

variable {R : World γ φ → World γ φ → Prop}

theorem cumulative_unseenLeft (R : World γ φ → World γ φ → Prop) :
    Cumulative (UnseenLeft R) where
  refl _ _ h := h
  trans hfirst hlast other h := hlast other (hfirst other h)

theorem cumulative_unseenRight (R : World γ φ → World γ φ → Prop) :
    Cumulative (UnseenRight R) where
  refl _ _ h := h
  trans hfirst hlast world h := hlast world (hfirst world h)

namespace Run

theorem related_pure (value : α) : Run.Related R (pure value : Run γ φ α) (pure value) :=
  fun _ _ h => ⟨rfl, h⟩

theorem related_throw (error : DeployError) :
    Run.Related R (throw error : Run γ φ α) (throw error) :=
  fun _ _ h => ⟨rfl, h⟩

theorem related_ofExcept (outcome : Except DeployError α) :
    Run.Related R (liftM outcome : Run γ φ α) (liftM outcome) :=
  fun _ _ h => ⟨rfl, h⟩

/-- Acts that give nothing are related if the relation sees neither. -/
theorem related_ofAct {act other : Act γ φ Unit} (hleft : act.Within (UnseenLeft R))
    (hright : other.Within (UnseenRight R)) :
    Run.Related R (liftM act : Run γ φ Unit) (liftM other) := by
  intro world middle h
  exact ⟨rfl, hright middle _ (hleft world middle h)⟩

theorem related_bind {run other : Run γ φ α} {next last : α → Run γ φ β}
    (hrun : Run.Related R run other) (hnext : ∀ value, Run.Related R (next value) (last value)) :
    Run.Related R (run >>= next) (other >>= last) := by
  intro world middle h
  obtain ⟨houtcome, hafter⟩ := hrun world middle h
  cases hfirst : run world with
  | mk outcome reached =>
    cases hsecond : other middle with
    | mk found arrived =>
      rw [hfirst, hsecond] at houtcome hafter
      dsimp only at houtcome hafter
      subst houtcome
      cases outcome with
      | ok value =>
        rw [Run.bind_of_ok hfirst, Run.bind_of_ok hsecond]
        exact hnext value reached arrived hafter
      | error error =>
        rw [Run.bind_of_error hfirst, Run.bind_of_error hsecond]
        exact ⟨rfl, hafter⟩

end Run

end Combine

/-- A relation between the worlds of two hosts that everything a deployment does in both of them
keeps. -/
structure RelatedSteps (host other : Host γ φ) (journal : Journal)
    (R : World γ φ → World γ φ → Prop) : Prop where
  left : JournalSteps host journal (UnseenLeft R)
  right : JournalSteps other journal (UnseenRight R)
  submitted : ∀ transaction, Run.Related R (host.submit transaction) (other.submit transaction)
  awaited : ∀ hash, Run.Related R (host.await hash) (other.await hash)
  codeRead : ∀ address, Run.Related R (host.codeAt address) (other.codeAt address)

namespace RelatedSteps

variable {host other : Host γ φ} {journal : Journal} {R : World γ φ → World γ φ → Prop}
  {deployer : Deployer φ}

/-! ## Calls -/

section Calls

variable (h : RelatedSteps host other journal R) (endpoint : Endpoint)

include h

theorem tellAll (notices : List Notice) :
    Run.Related R (Run.tellAll notices : Run γ φ Unit) (Run.tellAll notices) :=
  Run.related_ofAct (h.left.told notices) (h.right.told notices)

theorem record (lines : List String) :
    Run.Related R (liftM (journal.record host lines) : Run γ φ Unit)
      (liftM (journal.record other lines)) :=
  Run.related_ofAct (Journal.record_within h.left lines) (Journal.record_within h.right lines)

theorem recordOutcome (receipt : Receipt) :
    Run.Related R (liftM (Endpoint.recordOutcome host journal receipt) : Run γ φ Unit)
      (liftM (Endpoint.recordOutcome other journal receipt)) :=
  Run.related_ofAct (Endpoint.recordOutcome_within h.left receipt)
    (Endpoint.recordOutcome_within h.right receipt)

theorem submitBare (call : Call) :
    Run.Related R (endpoint.submitBare host call) (endpoint.submitBare other call) := by
  refine Run.related_bind (Run.related_ofExcept _) fun _ => ?_
  refine Run.related_bind (h.submitted _) fun txHash => ?_
  exact Run.related_pure _

theorem wait (submitted : Submitted) :
    Run.Related R (endpoint.wait host submitted) (endpoint.wait other submitted) := by
  refine Run.related_bind (Run.related_ofExcept _) fun _ => ?_
  exact h.awaited submitted.txHash

/-- A call is submitted alike with the journal, and without any. -/
theorem submit (hjournal : endpoint.KeepsOnly journal) (call : Call) :
    Run.Related R (endpoint.submit host call) (endpoint.submit other call) := by
  refine Run.related_bind (h.submitBare endpoint call) fun submitted => ?_
  cases hkept : endpoint.journal with
  | none => exact Run.related_pure submitted
  | some kept =>
    obtain rfl := hjournal kept hkept
    refine Run.related_bind (h.record _) fun _ => ?_
    refine Run.related_bind (h.wait endpoint submitted) fun receipt => ?_
    refine Run.related_bind (h.recordOutcome receipt) fun _ => ?_
    exact Run.related_pure submitted

theorem send (hjournal : endpoint.KeepsOnly journal) (call : Call) :
    Run.Related R (endpoint.send host call) (endpoint.send other call) := by
  refine Run.related_bind (h.submit endpoint hjournal call) fun submitted => ?_
  refine Run.related_bind (h.wait endpoint submitted) fun receipt => ?_
  split
  · exact Run.related_pure receipt
  · exact Run.related_throw _

end Calls

/-! ## Deployments -/

section Deployments

variable (h : RelatedSteps host other deployer.journal R)

include h

/-- What is sent with the deployer's own journal is sent alike. -/
theorem sendRecorded {endpoint : Endpoint} (hjournal : endpoint.journal = some deployer.journal)
    (call : Call) : Run.Related R (endpoint.send host call) (endpoint.send other call) :=
  h.send endpoint (Endpoint.keepsOnly_of_eq hjournal) call

theorem deployArtifact (artifact : Artifact) (args : List String) (libraries : Libraries) :
    Run.Related R (deployer.deployArtifact host artifact args libraries)
      (deployer.deployArtifact other artifact args libraries) := by
  refine Run.related_bind (Run.related_ofExcept _) fun _ => ?_
  refine Run.related_bind (Run.related_ofExcept _) fun code => ?_
  refine Run.related_bind (Run.related_ofExcept _) fun call => ?_
  refine Run.related_bind (h.sendRecorded rfl call) fun receipt => ?_
  refine Run.related_bind (h.tellAll _) fun _ => ?_
  refine Run.related_bind (Run.related_ofExcept _) fun address => ?_
  refine Run.related_bind (h.codeRead address) fun runtimeCode => ?_
  refine Run.related_bind (h.tellAll _) fun _ => ?_
  exact Run.related_pure _

theorem accept (prepared : PreparedUpgrade) (admin : Address) (implementation proxy : Deployed) :
    Run.Related R (deployer.accept host prepared admin implementation proxy)
      (deployer.accept other prepared admin implementation proxy) := by
  rw [Deployer.accept, Deployer.accept]
  split
  · refine Run.related_bind (h.tellAll _) fun _ => ?_
    exact Run.related_pure _
  · refine Run.related_bind ?_ fun receipt => Run.related_pure _
    rw [Deployer.sendAccept, Deployer.sendAccept]
    split
    · exact h.sendRecorded rfl _
    · exact Run.related_throw _

variable (hsource : ∀ name, Run.Related R (deployer.source.load name : Run γ φ Artifact)
  (deployer.source.load name))

include hsource

theorem deployLibraries (contract : String) (names : List String) (libraries : Libraries) :
    Run.Related R (deployer.deployLibraries host contract names libraries)
      (deployer.deployLibraries other contract names libraries) := by
  induction names generalizing libraries with
  | nil => exact Run.related_pure libraries
  | cons name names ih =>
    refine Run.related_bind (h.tellAll _) fun _ => ?_
    refine Run.related_bind (hsource name) fun library => ?_
    refine Run.related_bind (h.deployArtifact library [] _) fun deployed => ?_
    exact ih _

theorem deploy (name : String) (args : List String) (autolink : Bool) :
    Run.Related R (deployer.deploy host name args autolink)
      (deployer.deploy other name args autolink) := by
  refine Run.related_bind (Run.related_ofExcept _) fun _ => ?_
  refine Run.related_bind (hsource name) fun artifact => ?_
  cases autolink with
  | true =>
    refine Run.related_bind (h.deployLibraries hsource _ _ _) fun libraries => ?_
    exact h.deployArtifact artifact args libraries
  | false => exact h.deployArtifact artifact args _

theorem completeFromImplementation (prepared : PreparedUpgrade) (admin : Address)
    (implementation : Deployed) :
    Run.Related R (deployer.completeFromImplementation host prepared admin implementation)
      (deployer.completeFromImplementation other prepared admin implementation) := by
  refine Run.related_bind (h.deploy hsource _ _ false) fun proxy => ?_
  refine Run.related_bind (h.accept prepared admin implementation proxy) fun acceptance => ?_
  exact Run.related_pure _

end Deployments

end RelatedSteps

/-- Preparing an upgrade only loads artifacts. -/
theorem Deployer.prepare_related {R : World γ φ → World γ φ → Prop} {deployer : Deployer φ}
    (hsource : ∀ name, Run.Related R (deployer.source.load name : Run γ φ Artifact)
      (deployer.source.load name)) (upgrade : Upgrade) :
    Run.Related R (deployer.prepare upgrade : Run γ φ PreparedUpgrade)
      (deployer.prepare upgrade) := by
  refine Run.related_bind (hsource _) fun implementation => ?_
  refine Run.related_bind (hsource _) fun proxy => ?_
  refine Run.related_bind (Run.related_ofExcept _) fun _ => ?_
  refine Run.related_bind ?_ fun adminInterface => ?_
  · rw [Deployer.adminInterface]
    split
    · exact Run.related_pure none
    · exact Run.related_bind (hsource _) fun admin => Run.related_pure _
  · refine Run.related_bind (Run.related_ofExcept _) fun initCall => ?_
    exact Run.related_pure _

/-! ## Runs that record -/

/-- Two steps that record, started with the same book in related worlds, end with the same outcome
and the same book, of the same file, in related worlds. -/
def Recording.Related (file : String) (R : World γ φ → World γ φ → Prop)
    (recording other : Recording γ φ α) : Prop :=
  ∀ book world middle, book.file = file → R world middle →
    (recording book world).1 = (other book middle).1 ∧ (recording book world).1.2.file = file ∧
      R (recording book world).2 (other book middle).2

namespace Recording

variable {file : String} {R : World γ φ → World γ φ → Prop}

theorem related_pure (value : α) :
    Recording.Related file R (pure value : Recording γ φ α) (pure value) :=
  fun _ _ _ hfile h => ⟨rfl, hfile, h⟩

theorem related_throw (error : DeployError) :
    Recording.Related file R (throw error : Recording γ φ α) (throw error) :=
  fun _ _ _ hfile h => ⟨rfl, hfile, h⟩

theorem related_ofExcept (outcome : Except DeployError α) :
    Recording.Related file R (liftM outcome : Recording γ φ α) (liftM outcome) :=
  fun _ _ _ hfile h => ⟨rfl, hfile, h⟩

theorem related_get : Recording.Related file R (get : Recording γ φ Book) get :=
  fun _ _ _ hfile h => ⟨rfl, hfile, h⟩

theorem related_ofRun {run other : Run γ φ α} (h : Run.Related R run other) :
    Recording.Related file R (Recording.ofRun run) (Recording.ofRun other) := by
  intro book world middle hfile hrelated
  obtain ⟨houtcome, hafter⟩ := h world middle hrelated
  exact ⟨congrArg (fun outcome => (outcome, book)) houtcome, hfile, hafter⟩

theorem related_bind {recording other : Recording γ φ α} {next last : α → Recording γ φ β}
    (hrecording : Recording.Related file R recording other)
    (hnext : ∀ value, Recording.Related file R (next value) (last value)) :
    Recording.Related file R (recording >>= next) (other >>= last) := by
  intro book world middle hfile hrelated
  obtain ⟨houtcome, hkept, hafter⟩ := hrecording book world middle hfile hrelated
  cases hfirst : recording book world with
  | mk result reached =>
    cases hsecond : other book middle with
    | mk found arrived =>
      rw [hfirst, hsecond] at houtcome hafter
      rw [hfirst] at hkept
      dsimp only at houtcome hkept hafter
      subst houtcome
      obtain ⟨outcome, between⟩ := result
      cases outcome with
      | ok value =>
        rw [bind_of_ok hfirst, bind_of_ok hsecond]
        exact hnext value between reached arrived hkept hafter
      | error error =>
        rw [bind_of_error hfirst, bind_of_error hsecond]
        exact ⟨rfl, hkept, hafter⟩

end Recording

/-- A relation between the worlds of two hosts that setting entries keeps as well, for a book in
this file. -/
structure RelatedRecording (host other : Host γ φ) (journal : Journal) (file : String)
    (R : World γ φ → World γ φ → Prop) : Prop extends RelatedSteps host other journal R where
  saved : ∀ name record, Recording.Related file R (Recording.save host name record)
    (Recording.save other name record)

namespace RelatedRecording

variable {host other : Host γ φ} {deployer : Deployer φ} {file : String}
  {R : World γ φ → World γ φ → Prop}

section Deployments

variable (h : RelatedRecording host other deployer.journal file R)
  (hsource : ∀ name, Run.Related R (deployer.source.load name : Run γ φ Artifact)
    (deployer.source.load name))

include h

theorem recordAcceptance (upgrade : Upgrade) (deployment : ProxyDeployment) :
    Recording.Related file R (Deployer.recordAcceptance host upgrade deployment)
      (Deployer.recordAcceptance other upgrade deployment) := by
  rw [Deployer.recordAcceptance, Deployer.recordAcceptance]
  split
  · exact Recording.related_bind Recording.related_get fun book => h.saved _ _
  · exact Recording.related_pure ()

include hsource

theorem deployAndSave (name : String) (args : List String) :
    Recording.Related file R (deployer.deployAndSave host name args)
      (deployer.deployAndSave other name args) := by
  refine Recording.related_bind ?_ fun deployed => ?_
  · exact Recording.related_ofRun (h.toRelatedSteps.deploy hsource name args true)
  refine Recording.related_bind (h.saved name _) fun _ => ?_
  exact Recording.related_pure deployed

theorem deployBehindProxyAndSave (upgrade : Upgrade) :
    Recording.Related file R (deployer.deployBehindProxyAndSave host upgrade)
      (deployer.deployBehindProxyAndSave other upgrade) := by
  refine Recording.related_bind (Recording.related_ofExcept _) fun _ => ?_
  refine Recording.related_bind ?_ fun admin => ?_
  · refine Recording.related_bind Recording.related_get fun book => ?_
    dsimp only
    split
    · exact Recording.related_pure _
    · exact Recording.related_throw _
  refine Recording.related_bind ?_ fun prepared => ?_
  · exact Recording.related_ofRun (Deployer.prepare_related hsource upgrade)
  refine Recording.related_bind (h.deployAndSave hsource upgrade.name []) fun implementation => ?_
  refine Recording.related_bind ?_ fun deployment => ?_
  · exact Recording.related_ofRun
      (h.toRelatedSteps.completeFromImplementation hsource prepared admin implementation)
  refine Recording.related_bind (h.recordAcceptance upgrade deployment) fun _ => ?_
  exact Recording.related_pure deployment

end Deployments

end RelatedRecording

end ContractDeploy
