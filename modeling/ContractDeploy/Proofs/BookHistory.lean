import ContractDeploy.Proofs.UpgradeRecording

/-!
# What recording does step by step

A run that records goes from moment to moment of the world and of the book that it works on. As with
a deployment, a relation between such moments that sending and setting an entry stay within is one
that every run that records stays within. One of these relations is the history of the book: it
went through documents, each the one before with one entry set, and these are what was handed to the
disk, in their order. A run that sets one entry only, if several times, leaves nothing behind of the
earlier ones.
-/

namespace ContractDeploy

variable {γ φ α β : Type}

/-! ## Relations that runs that record stay within -/

/-- A run that records stays within a relation between moments of the book and the world, whether
it gives a value or fails. -/
def Recording.Within (R : Book × World γ φ → Book × World γ φ → Prop)
    (recording : Recording γ φ α) : Prop :=
  ∀ book world, R (book, world) ((recording book world).1.2, (recording book world).2)

namespace Recording

variable {R : Book × World γ φ → Book × World γ φ → Prop}

theorem within_ofRun {run : Run γ φ α}
    (h : ∀ book, run.Within fun before after => R (book, before) (book, after)) :
    (Recording.ofRun run).Within R := by
  intro book world
  cases hrun : run world with
  | mk outcome after =>
    have hwithin := h book world
    rw [hrun] at hwithin
    rw [ofRun_apply hrun]
    exact hwithin

theorem within_pure (hR : Cumulative R) (value : α) : (pure value : Recording γ φ α).Within R :=
  fun book world => hR.refl (book, world)

theorem within_throw (hR : Cumulative R) (error : DeployError) :
    (throw error : Recording γ φ α).Within R :=
  fun book world => hR.refl (book, world)

theorem within_ofExcept (hR : Cumulative R) (outcome : Except DeployError α) :
    (liftM outcome : Recording γ φ α).Within R :=
  fun book world => hR.refl (book, world)

theorem within_get (hR : Cumulative R) : (get : Recording γ φ Book).Within R :=
  fun book world => hR.refl (book, world)

/-- What a sequence does is within a relation if its first step is and the others are after what
that step came to. -/
theorem within_bind_at (hR : Cumulative R) {recording : Recording γ φ α}
    {next : α → Recording γ φ β} {book : Book} {world : World γ φ}
    (hfirst : R (book, world) ((recording book world).1.2, (recording book world).2))
    (hnext : ∀ value between middle, recording book world = ((.ok value, between), middle) →
      R (between, middle) ((next value between middle).1.2, (next value between middle).2)) :
    R (book, world)
      (((recording >>= next) book world).1.2, ((recording >>= next) book world).2) := by
  cases h : recording book world with
  | mk result middle =>
    obtain ⟨outcome, between⟩ := result
    rw [h] at hfirst
    cases outcome with
    | ok value =>
      rw [bind_of_ok h]
      exact hR.trans hfirst (hnext value between middle h)
    | error error =>
      rw [bind_of_error h]
      exact hfirst

theorem within_bind (hR : Cumulative R) {recording : Recording γ φ α} {next : α → Recording γ φ β}
    (hrecording : recording.Within R) (hnext : ∀ value, (next value).Within R) :
    (recording >>= next).Within R :=
  fun book world => within_bind_at hR (hrecording book world)
    fun value between middle _ => hnext value between middle

end Recording

/-- What sending stays within, an upgrade that records nothing stays within. -/
theorem SendingSteps.deployBehindProxy {host : Host γ φ} {deployer : Deployer φ} {accepts : Prop}
    {R : World γ φ → World γ φ → Prop} {upgrade : Upgrade}
    (h : SendingSteps host deployer accepts R) (haccepts : upgrade.manualAccept = false → accepts)
    (admin : Address) : (deployer.deployBehindProxy host upgrade admin).Within R := by
  refine Run.within_bind h.toCumulative (Run.within_ofExcept h.toCumulative _) fun _ => ?_
  intro world
  have hprepare := Deployer.reads_prepare deployer upgrade world
  refine Run.within_bind_at h.toCumulative ?_ fun prepared middle hprepared => ?_
  · rw [hprepare]
    exact h.refl world
  have hread := congrArg Prod.fst (hprepare.symm.trans hprepared)
  obtain ⟨rfl, -⟩ := Deployer.preparation_eq_ok hread
  refine Run.within_bind h.toCumulative (h.deploy _ [] true) (fun implementation => ?_) middle
  exact h.completeFromImplementation haccepts admin implementation

/-- A relation between moments that setting an entry under one of these names stays within, and so
does everything that a deployer does without touching the book. -/
structure RecordingSteps (host : Host γ φ) (deployer : Deployer φ) (accepts : Prop)
    (names : String → Prop) (R : Book × World γ φ → Book × World γ φ → Prop) : Prop
    extends Cumulative R where
  sending : ∀ book,
    SendingSteps host deployer accepts fun before after => R (book, before) (book, after)
  saved : ∀ {name}, names name → ∀ record, (Recording.save host name record).Within R

namespace RecordingSteps

variable {host : Host γ φ} {deployer : Deployer φ} {accepts : Prop} {names : String → Prop}
  {R : Book × World γ φ → Book × World γ φ → Prop} {name : String} {upgrade : Upgrade}

theorem deployAndSave (h : RecordingSteps host deployer accepts names R) (hname : names name)
    (args : List String) : (deployer.deployAndSave host name args).Within R := by
  refine Recording.within_bind h.toCumulative ?_ fun deployed => ?_
  · exact Recording.within_ofRun fun book => (h.sending book).deploy name args true
  refine Recording.within_bind h.toCumulative (h.saved hname _) fun _ => ?_
  exact Recording.within_pure h.toCumulative deployed

theorem recordAcceptance (h : RecordingSteps host deployer accepts names R)
    (hname : names upgrade.name) (deployment : ProxyDeployment) :
    (Deployer.recordAcceptance host upgrade deployment).Within R := by
  rw [Deployer.recordAcceptance]
  split
  · refine Recording.within_bind h.toCumulative (Recording.within_get h.toCumulative) fun book => ?_
    exact h.saved hname _
  · exact Recording.within_pure h.toCumulative ()

theorem recordedAdmin (h : RecordingSteps host deployer accepts names R) :
    (Deployer.recordedAdmin : Recording γ φ Address).Within R := by
  refine Recording.within_bind h.toCumulative (Recording.within_get h.toCumulative) fun book => ?_
  dsimp only
  split
  · exact Recording.within_pure h.toCumulative _
  · exact Recording.within_throw h.toCumulative _

theorem deployBehindProxyAndSave (h : RecordingSteps host deployer accepts names R)
    (hname : names upgrade.name) (haccepts : upgrade.manualAccept = false → accepts) :
    (deployer.deployBehindProxyAndSave host upgrade).Within R := by
  refine Recording.within_bind h.toCumulative (Recording.within_ofExcept h.toCumulative _)
    fun _ => ?_
  refine Recording.within_bind h.toCumulative h.recordedAdmin fun admin => ?_
  intro book world
  have hprepare : Recording.ofRun (deployer.prepare upgrade) book world =
      ((deployer.preparation upgrade world.files, book), world) :=
    Recording.ofRun_apply (Deployer.reads_prepare deployer upgrade world)
  refine Recording.within_bind_at h.toCumulative ?_ fun prepared between middle hprepared => ?_
  · rw [hprepare]
    exact h.refl (book, world)
  -- What was prepared is the upgrade, so that the call that accepts is sent for it alone.
  have hread := congrArg (fun result => result.1.1) (hprepare.symm.trans hprepared)
  obtain ⟨rfl, -⟩ := Deployer.preparation_eq_ok hread
  refine Recording.within_bind h.toCumulative (h.deployAndSave hname []) (fun implementation => ?_)
    between middle
  refine Recording.within_bind h.toCumulative ?_ fun deployment => ?_
  · exact Recording.within_ofRun fun book =>
      (h.sending book).completeFromImplementation haccepts admin implementation
  refine Recording.within_bind h.toCumulative (h.recordAcceptance hname deployment) fun _ => ?_
  exact Recording.within_pure h.toCumulative deployment

end RecordingSteps

/-! ## The history of a book -/

/-- A book went through these documents, each with an entry set under one of these names, and came
to be another. -/
inductive Book.Sets (names : String → Prop) : Book → List BookDocument → Book → Prop
  | none (book : Book) : Sets names book [] book
  | next {book settled : Book} {name : String} {record : Record} {documents : List BookDocument}
      (named : names name) (rest : Sets names (book.insert name record) documents settled) :
      Sets names book ((book.insert name record).document :: documents) settled

namespace Book.Sets

variable {names : String → Prop} {before middle after : Book} {documents more : List BookDocument}

theorem file_eq (h : before.Sets names documents after) : after.file = before.file := by
  induction h with
  | none book => rfl
  | next named rest ih => exact ih

theorem append (h : before.Sets names documents middle) (hmore : middle.Sets names more after) :
    before.Sets names (documents ++ more) after := by
  induction h with
  | none book => exact hmore
  | next named rest ih => exact .next named (ih hmore)

end Book.Sets

/-- The book went through documents, which were handed to the disk for its file. -/
def BookRecorded (host : Host γ φ) (journal : Journal) (names : String → Prop)
    (before after : Book × World γ φ) : Prop :=
  ∃ saves, before.1.Sets names (saves.map Prod.fst) after.1 ∧
    BookSaves host.disk journal before.1.file saves before.2.files after.2.files

theorem cumulative_bookRecorded (host : Host γ φ) (journal : Journal) (names : String → Prop) :
    Cumulative (BookRecorded host journal names) where
  refl moment := ⟨[], .none moment.1, .refl⟩
  trans := by
    intro before middle after hfirst hlast
    obtain ⟨saves, hsets, hsaves⟩ := hfirst
    obtain ⟨more, hmoreSets, hmoreSaves⟩ := hlast
    rw [hsets.file_eq] at hmoreSaves
    refine ⟨saves ++ more, ?_, hsaves.append hmoreSaves⟩
    rw [List.map_append]
    exact hsets.append hmoreSets

/-- What only adds to the journal is no more of the history. -/
theorem BookRecorded.of_grown {host : Host γ φ} {journal : Journal} {names : String → Prop}
    {book : Book} {before after : World γ φ}
    (h : journal.Grown host.disk before.files after.files) :
    BookRecorded host journal names (book, before) (book, after) :=
  ⟨[], .none book, h⟩

/-- Setting an entry hands the document with it to the disk. -/
theorem bookRecorded_save {names : String → Prop} {name : String} (host : Host γ φ)
    (journal : Journal) (hname : names name) (record : Record) :
    (Recording.save host name record).Within (BookRecorded host journal names) := by
  intro book world
  obtain ⟨answer, after, hsave, -, hwritten⟩ := Recording.save_apply host journal name record book
    world
  rw [hsave]
  exact ⟨_, .next hname (.none _), hwritten⟩

/-- Whatever a deployer records belongs to the history of the book. -/
theorem recordingSteps_bookRecorded (host : Host γ φ) (deployer : Deployer φ)
    (names : String → Prop) :
    RecordingSteps host deployer True names (BookRecorded host deployer.journal names) where
  toCumulative := cumulative_bookRecorded host deployer.journal names
  sending book := by
    have hgrown := (deploymentSteps_grown host deployer.journal).sending True
    exact {
      refl := fun world => .of_grown (hgrown.refl world)
      trans := fun hfirst hlast =>
        (cumulative_bookRecorded host deployer.journal names).trans hfirst hlast
      told := fun notices world => .of_grown (hgrown.told notices world)
      codeRead := fun address world => .of_grown (hgrown.codeRead address world)
      sent := fun hsends world => .of_grown (hgrown.sent hsends world) }
  saved hname record := bookRecorded_save host deployer.journal hname record

/-! ## One entry -/

/-- The document with one entry of a network replaced. -/
def BookDocument.replace (document : BookDocument) (network name : String) (record : Record) :
    BookDocument :=
  document.insert network (((document.get? network).getD NameMap.empty).insert name record)

namespace BookDocument

variable (document : BookDocument) (network name : String)

/-- Of the records that one entry is set to, only the last is seen. -/
theorem replace_replace (first last : Record) :
    (document.replace network name first).replace network name last =
      document.replace network name last := by
  have hentries (entries : NameMap Record) :
      (entries.insert name first).insert name last = entries.insert name last := by
    refine NameMap.ext_get? fun entry => ?_
    simp only [NameMap.get?_insert]
    split <;> rfl
  refine NameMap.ext_get? fun other => ?_
  simp only [replace, NameMap.get?_insert, if_true, Option.getD_some, hentries]
  split <;> rfl

/-- A network that was opened without entries is no other once one of them is set. -/
theorem replace_withNetwork (record : Record) :
    (document.withNetwork network).replace network name record =
      document.replace network name record := by
  refine NameMap.ext_get? fun other => ?_
  simp only [replace, withNetwork, NameMap.get?_insert]
  split <;> simp

end BookDocument

/-- A book in which one entry was set, if several times, went through documents that differ in that
entry alone. -/
theorem Book.Sets.replaced {names : String → Prop} {before after : Book}
    {documents : List BookDocument} (h : before.Sets names documents after)
    (hone : ∀ {first second}, names first → names second → first = second) :
    ∀ document ∈ documents, ∃ name record, names name ∧
      document = before.document.replace before.network name record := by
  induction h with
  | none book => exact fun document hdocument => absurd hdocument List.not_mem_nil
  | @next book settled name record documents named rest ih =>
    intro document hdocument
    rcases List.mem_cons.1 hdocument with rfl | hlater
    · exact ⟨name, record, named, rfl⟩
    · obtain ⟨other, last, hother, rfl⟩ := ih document hlater
      obtain rfl := hone hother named
      exact ⟨other, last, named, book.document.replace_replace book.network other record last⟩

end ContractDeploy
