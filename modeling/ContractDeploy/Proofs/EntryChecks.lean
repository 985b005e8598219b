import ContractDeploy.Proofs.Verification

/-!
# What the check of an entry decides

An entry passes if its address is known, if its artifact yields the code that was recorded, and if
the code at its address can be read, is there, and is the one that was recorded. These conditions
are stated here each in its own words (`Verifier.Matches`), and next to them the first that fails,
with its mismatch (`Verifier.FirstMismatch`). An entry either passes or has a first mismatch, and
the check finds it. Nothing else of an entry matters.
-/

namespace ContractDeploy

variable {γ φ : Type}

namespace Verifier

/-! ## The conditions -/

/-- The artifact of an entry yields this code, linked with the libraries of the entry. -/
def Yields (verifier : Verifier φ) (name : String) (record : Record) (files : φ) (code : Bytes) :
    Prop :=
  ∃ artifact, verifier.source.read files (verifier.artifactName name record) = .ok artifact ∧
    artifact.linkedCode (record.fields.libraries.getD NameMap.empty) = .ok code

/-- The artifact of an entry yields no code. -/
inductive Unavailable (verifier : Verifier φ) (name : String) (record : Record) (files : φ) :
    DeployError → Prop
  | unread {error : DeployError}
      (hread : verifier.source.read files (verifier.artifactName name record) = .error error) :
      Unavailable verifier name record files error
  | uncoded {artifact : Artifact} {fault : CodeFault}
      (hread : verifier.source.read files (verifier.artifactName name record) = .ok artifact)
      (hcode : artifact.linkedCode (record.fields.libraries.getD NameMap.empty) = .error fault) :
      Unavailable verifier name record files (.ofCode fault)

/-- The artifact of an entry yields code of the recorded hash. -/
def CreationMatches (verifier : Verifier φ) (name : String) (record : Record) (files : φ) : Prop :=
  ∃ code, verifier.Yields name record files code ∧
    record.fields.creationCodeHash = some (keccak256 code)

/-- An entry agrees with its artifact and with the chain. -/
structure Matches (verifier : Verifier φ) (host : Host γ φ) (name : String) (record : Record)
    (withCreation : Bool) (world : World γ φ) : Prop where
  address : record.address ≠ FixedBytes.zero
  creation : withCreation = true → verifier.CreationMatches name record world.files
  runtime : ∃ code, (host.node.code record.address world.chain).1 = .ok code ∧
    keccak256 code ≠ keccak256 [] ∧ keccak256 code ≠ keccak256 [0] ∧
    record.fields.runtimeCodeHash = some (keccak256 code)

/-- The first thing about an entry that does not match. What comes before it does. -/
inductive FirstMismatch (verifier : Verifier φ) (host : Host γ φ) (name : String)
    (record : Record) (withCreation : Bool) (world : World γ φ) : Mismatch → Prop
  | addressMissing (hzero : record.address = FixedBytes.zero) :
      FirstMismatch verifier host name record withCreation world .addressMissing
  | artifactUnavailable {error : DeployError} (haddress : record.address ≠ FixedBytes.zero)
      (hasked : withCreation = true)
      (hunavailable : verifier.Unavailable name record world.files error) :
      FirstMismatch verifier host name record withCreation world (.artifactUnavailable error)
  | creationCode {code : Bytes} (haddress : record.address ≠ FixedBytes.zero)
      (hasked : withCreation = true) (hyields : verifier.Yields name record world.files code)
      (hdiffers : record.fields.creationCodeHash ≠ some (keccak256 code)) :
      FirstMismatch verifier host name record withCreation world
        (.creationCode record.fields.creationCodeHash (keccak256 code))
  | codeUnavailable {reason : String} (haddress : record.address ≠ FixedBytes.zero)
      (hcreation : withCreation = true → verifier.CreationMatches name record world.files)
      (hread : (host.node.code record.address world.chain).1 = .error reason) :
      FirstMismatch verifier host name record withCreation world
        (.codeUnavailable (.query (.unavailable reason)))
  | noCode {code : Bytes} (haddress : record.address ≠ FixedBytes.zero)
      (hcreation : withCreation = true → verifier.CreationMatches name record world.files)
      (hread : (host.node.code record.address world.chain).1 = .ok code)
      (hnone : keccak256 code = keccak256 [] ∨ keccak256 code = keccak256 [0]) :
      FirstMismatch verifier host name record withCreation world .noCode
  | runtimeCode {code : Bytes} (haddress : record.address ≠ FixedBytes.zero)
      (hcreation : withCreation = true → verifier.CreationMatches name record world.files)
      (hread : (host.node.code record.address world.chain).1 = .ok code)
      (hsome : keccak256 code ≠ keccak256 [] ∧ keccak256 code ≠ keccak256 [0])
      (hdiffers : record.fields.runtimeCodeHash ≠ some (keccak256 code)) :
      FirstMismatch verifier host name record withCreation world
        (.runtimeCode record.fields.runtimeCodeHash (keccak256 code))

section Check

variable {verifier : Verifier φ} {host : Host γ φ} {name : String} {record : Record}
  {withCreation : Bool} {world : World γ φ} {mismatch : Mismatch}

/-- An artifact that is looked for yields code or is unavailable. -/
theorem yields_or_unavailable (verifier : Verifier φ) (name : String) (record : Record)
    (files : φ) :
    (∃ code, verifier.Yields name record files code) ∨
      ∃ error, verifier.Unavailable name record files error := by
  cases hread : verifier.source.read files (verifier.artifactName name record) with
  | error error => exact .inr ⟨error, .unread hread⟩
  | ok artifact =>
    cases hcode : artifact.linkedCode (record.fields.libraries.getD NameMap.empty) with
    | error fault => exact .inr ⟨_, .uncoded hread hcode⟩
    | ok code => exact .inl ⟨code, artifact, hread, hcode⟩

/-- An entry matches, or there is a first thing about it that does not. -/
theorem matches_or_firstMismatch (verifier : Verifier φ) (host : Host γ φ) (name : String)
    (record : Record) (withCreation : Bool) (world : World γ φ) :
    verifier.Matches host name record withCreation world ∨
      ∃ mismatch, verifier.FirstMismatch host name record withCreation world mismatch := by
  by_cases haddress : record.address = FixedBytes.zero
  · exact .inr ⟨_, .addressMissing haddress⟩
  by_cases hcreation : withCreation = true → verifier.CreationMatches name record world.files
  · cases hread : (host.node.code record.address world.chain).1 with
    | error reason => exact .inr ⟨_, .codeUnavailable haddress hcreation hread⟩
    | ok code =>
      by_cases hnone : keccak256 code = keccak256 [] ∨ keccak256 code = keccak256 [0]
      · exact .inr ⟨_, .noCode haddress hcreation hread hnone⟩
      have hsome := not_or.1 hnone
      by_cases hsame : record.fields.runtimeCodeHash = some (keccak256 code)
      · exact .inl ⟨haddress, hcreation, code, hread, hsome.1, hsome.2, hsame⟩
      · exact .inr ⟨_, .runtimeCode haddress hcreation hread hsome hsame⟩
  · obtain ⟨hasked, hdiffers⟩ := Classical.not_imp.1 hcreation
    rcases verifier.yields_or_unavailable name record world.files with
      ⟨code, hyields⟩ | ⟨error, hunavailable⟩
    · exact .inr ⟨_, .creationCode haddress hasked hyields fun hhash =>
        hdiffers ⟨code, hyields, hhash⟩⟩
    · exact .inr ⟨_, .artifactUnavailable haddress hasked hunavailable⟩

/-! ## The steps of a check -/

theorem artifactCode_of_yields {files : φ} {code : Bytes}
    (h : verifier.Yields name record files code) :
    verifier.artifactCode (verifier.artifactName name record) record.fields.libraries files =
      .ok code := by
  obtain ⟨artifact, hread, hcode⟩ := h
  rw [artifactCode, hread]
  show (artifact.linkedCode _).mapError _ = _
  rw [hcode]
  rfl

theorem artifactCode_of_unavailable {files : φ} {error : DeployError}
    (h : verifier.Unavailable name record files error) :
    verifier.artifactCode (verifier.artifactName name record) record.fields.libraries files =
      .error error := by
  cases h with
  | unread hread =>
    rw [artifactCode, hread]
    rfl
  | @uncoded artifact fault hread hcode =>
    rw [artifactCode, hread]
    show (artifact.linkedCode _).mapError _ = _
    rw [hcode]
    rfl

theorem checkCreation_of_yields {files : φ} {code : Bytes}
    (h : verifier.Yields name record files code) :
    verifier.checkCreation name record files =
      compareCreation record.fields.creationCodeHash (keccak256 code) := by
  rw [checkCreation, artifactCode_of_yields h]
  rfl

theorem checkCreation_of_matches {files : φ} (h : verifier.CreationMatches name record files) :
    verifier.checkCreation name record files = .ok () := by
  obtain ⟨code, hyields, hhash⟩ := h
  rw [checkCreation_of_yields hyields, compareCreation, if_pos hhash]

theorem checkRuntime_of_unread {reason : String}
    (h : (host.node.code record.address world.chain).1 = .error reason) :
    (checkRuntime host record world).1 =
      .error (.codeUnavailable (.query (.unavailable reason))) := by
  have hread : (host.codeAt record.address world).1 = .error (.query (.unavailable reason)) := by
    show (host.node.code record.address world.chain).1.mapError _ = _
    rw [h]
    rfl
  cases hrun : host.codeAt record.address world with
  | mk outcome after =>
    rw [hrun] at hread
    have hfailed : outcome = .error (.query (.unavailable reason)) := hread
    subst hfailed
    simp only [checkRuntime, bind, StateT.bind, ExceptT.run, hrun]
    rfl

theorem isDeployed_iff (record : Record) :
    record.isDeployed = true ↔ record.address ≠ FixedBytes.zero := by
  rw [Record.isDeployed, Bool.not_eq_true', ← Bool.not_eq_true, FixedBytes.isZero_iff]

/-- The order of a check: the address, the code that created the contract, the code at the
address. -/
theorem check_apply (verifier : Verifier φ) (host : Host γ φ) (name : String) (record : Record)
    (withCreation : Bool) (world : World γ φ) :
    verifier.check host name record withCreation world =
      if record.isDeployed then
        match if withCreation then verifier.checkCreation name record world.files else .ok () with
        | .error mismatch => (.error mismatch, world)
        | .ok () => checkRuntime host record world
      else (.error .addressMissing, world) := by
  simp only [check, bind, StateT.bind, get, getThe, MonadStateOf.get, StateT.get, pure]
  cases record.isDeployed with
  | false => rfl
  | true =>
    cases (if withCreation then verifier.checkCreation name record world.files else .ok ()) <;> rfl

theorem check_of_zero (hzero : record.address = FixedBytes.zero) :
    verifier.check host name record withCreation world = (.error .addressMissing, world) := by
  have hdeployed : ¬ record.isDeployed = true := by
    rw [isDeployed_iff]
    exact not_not_intro hzero
  rw [check_apply, if_neg hdeployed]

/-- The code that created a contract is judged before the chain is asked. -/
theorem check_of_checkCreation_error (haddress : record.address ≠ FixedBytes.zero)
    (h : verifier.checkCreation name record world.files = .error mismatch) :
    verifier.check host name record true world = (.error mismatch, world) := by
  rw [check_apply, if_pos ((isDeployed_iff record).2 haddress), if_pos rfl, h]

/-- An entry whose creation matches, or is not asked for, is judged by the code at its address. -/
theorem check_of_creation (haddress : record.address ≠ FixedBytes.zero)
    (h : withCreation = true → verifier.CreationMatches name record world.files) :
    verifier.check host name record withCreation world = checkRuntime host record world := by
  have hcreation : (if withCreation then verifier.checkCreation name record world.files
      else .ok ()) = .ok () := by
    split
    · next hasked => exact checkCreation_of_matches (h hasked)
    · rfl
  rw [check_apply, if_pos ((isDeployed_iff record).2 haddress), hcreation]

theorem isOfNoCode_iff (hash : Hash) :
    hash.isOfNoCode = true ↔ hash = keccak256 [] ∨ hash = keccak256 [0] := by
  rw [Hash.isOfNoCode, Bool.or_eq_true, decide_eq_true_iff, decide_eq_true_iff]

theorem compareRuntime_of_some {recorded : Option Hash} {observed : Hash}
    (h : observed ≠ keccak256 [] ∧ observed ≠ keccak256 [0]) :
    compareRuntime recorded observed =
      if recorded = some observed then .ok () else .error (.runtimeCode recorded observed) := by
  have hsome : ¬ observed.isOfNoCode = true := by
    rw [isOfNoCode_iff]
    exact not_or.2 h
  rw [compareRuntime, if_neg hsome]

/-- An entry that matches passes. -/
theorem check_of_matches (h : verifier.Matches host name record withCreation world) :
    (verifier.check host name record withCreation world).1 = .ok () := by
  obtain ⟨code, hread, hempty, hzero, hhash⟩ := h.runtime
  rw [check_of_creation h.address h.creation, checkRuntime_of_code hread,
    compareRuntime_of_some ⟨hempty, hzero⟩, if_pos hhash]

/-- A check finds the first mismatch. -/
theorem check_of_firstMismatch
    (h : verifier.FirstMismatch host name record withCreation world mismatch) :
    (verifier.check host name record withCreation world).1 = .error mismatch := by
  cases h with
  | addressMissing hzero => rw [check_of_zero hzero]
  | @artifactUnavailable error haddress hasked hunavailable =>
    subst hasked
    have hcreation : verifier.checkCreation name record world.files =
        .error (.artifactUnavailable error) := by
      rw [checkCreation, artifactCode_of_unavailable hunavailable]
      rfl
    rw [check_of_checkCreation_error haddress hcreation]
  | @creationCode code haddress hasked hyields hdiffers =>
    subst hasked
    have hcreation : verifier.checkCreation name record world.files =
        .error (.creationCode record.fields.creationCodeHash (keccak256 code)) := by
      rw [checkCreation_of_yields hyields, compareCreation, if_neg hdiffers]
    rw [check_of_checkCreation_error haddress hcreation]
  | codeUnavailable haddress hcreation hread =>
    rw [check_of_creation haddress hcreation, checkRuntime_of_unread hread]
  | noCode haddress hcreation hread hnone =>
    rw [check_of_creation haddress hcreation, checkRuntime_of_code hread, compareRuntime,
      if_pos ((isOfNoCode_iff _).2 hnone)]
  | runtimeCode haddress hcreation hread hsome hdiffers =>
    rw [check_of_creation haddress hcreation, checkRuntime_of_code hread,
      compareRuntime_of_some hsome, if_neg hdiffers]

theorem check_eq_ok_iff :
    (verifier.check host name record withCreation world).1 = .ok () ↔
      verifier.Matches host name record withCreation world := by
  refine ⟨fun hpassed => ?_, check_of_matches⟩
  rcases verifier.matches_or_firstMismatch host name record withCreation world with
    hmatches | ⟨mismatch, hfirst⟩
  · exact hmatches
  · rw [check_of_firstMismatch hfirst] at hpassed
    cases hpassed

theorem check_eq_error_iff :
    (verifier.check host name record withCreation world).1 = .error mismatch ↔
      verifier.FirstMismatch host name record withCreation world mismatch := by
  refine ⟨fun hfailed => ?_, check_of_firstMismatch⟩
  rcases verifier.matches_or_firstMismatch host name record withCreation world with
    hmatches | ⟨found, hfirst⟩
  · rw [check_of_matches hmatches] at hfailed
    cases hfailed
  · rw [check_of_firstMismatch hfirst] at hfailed
    cases hfailed
    exact hfirst

/-- An entry with a mismatch does not agree with its artifact and the chain. -/
theorem FirstMismatch.not_matches
    (h : verifier.FirstMismatch host name record withCreation world mismatch) :
    ¬ verifier.Matches host name record withCreation world := by
  intro hmatches
  have hfailed := check_of_firstMismatch h
  rw [check_of_matches hmatches] at hfailed
  cases hfailed

/-- Only one mismatch is the first. -/
theorem FirstMismatch.unique {other : Mismatch}
    (h : verifier.FirstMismatch host name record withCreation world mismatch)
    (hother : verifier.FirstMismatch host name record withCreation world other) :
    mismatch = other :=
  Except.error.inj ((check_of_firstMismatch h).symm.trans (check_of_firstMismatch hother))

end Check

/-! ## What a check does not look at -/

/-- Two checks see the same: the same address, code and recorded hash of it, and, if the code that
created the contract is checked, the same artifact, libraries and recorded hash of that code. -/
structure SameView (host : Host γ φ) (withCreation : Bool) (verifier other : Verifier φ)
    (name otherName : String) (record otherRecord : Record) (world otherWorld : World γ φ) :
    Prop where
  address : otherRecord.address = record.address
  code : (host.node.code record.address otherWorld.chain).1 =
    (host.node.code record.address world.chain).1
  runtimeCodeHash : otherRecord.fields.runtimeCodeHash = record.fields.runtimeCodeHash
  creation : withCreation = true →
    other.source.read otherWorld.files (other.artifactName otherName otherRecord) =
        verifier.source.read world.files (verifier.artifactName name record) ∧
      otherRecord.fields.libraries = record.fields.libraries ∧
      otherRecord.fields.creationCodeHash = record.fields.creationCodeHash

namespace SameView

variable {host : Host γ φ} {withCreation : Bool} {verifier other : Verifier φ}
  {name otherName : String} {record otherRecord : Record} {world otherWorld : World γ φ}

theorem yields (h : SameView host withCreation verifier other name otherName record otherRecord
    world otherWorld) (hasked : withCreation = true) {code : Bytes}
    (hyields : verifier.Yields name record world.files code) :
    other.Yields otherName otherRecord otherWorld.files code := by
  obtain ⟨hread, hlibraries, -⟩ := h.creation hasked
  unfold Yields
  rw [hread, hlibraries]
  exact hyields

theorem unavailable (h : SameView host withCreation verifier other name otherName record
    otherRecord world otherWorld) (hasked : withCreation = true) {error : DeployError}
    (hunavailable : verifier.Unavailable name record world.files error) :
    other.Unavailable otherName otherRecord otherWorld.files error := by
  obtain ⟨hsame, hlibraries, -⟩ := h.creation hasked
  cases hunavailable with
  | unread hread => exact .unread (hsame.trans hread)
  | uncoded hread hcode => exact .uncoded (hsame.trans hread) (by rwa [hlibraries])

theorem creationMatches (h : SameView host withCreation verifier other name otherName record
    otherRecord world otherWorld)
    (hcreation : withCreation = true → verifier.CreationMatches name record world.files) :
    withCreation = true → other.CreationMatches otherName otherRecord otherWorld.files := by
  intro hasked
  obtain ⟨code, hyields, hhash⟩ := hcreation hasked
  exact ⟨code, h.yields hasked hyields, (h.creation hasked).2.2.trans hhash⟩

/-- Checks that see the same come to the same. -/
theorem check_eq (h : SameView host withCreation verifier other name otherName record otherRecord
    world otherWorld) :
    (other.check host otherName otherRecord withCreation otherWorld).1 =
      (verifier.check host name record withCreation world).1 := by
  have haddress : record.address ≠ FixedBytes.zero → otherRecord.address ≠ FixedBytes.zero := by
    rw [h.address]
    exact id
  have hcode : ∀ answer, (host.node.code record.address world.chain).1 = answer →
      (host.node.code otherRecord.address otherWorld.chain).1 = answer := by
    intro answer hread
    rw [h.address, h.code, hread]
  rcases verifier.matches_or_firstMismatch host name record withCreation world with
    hmatches | ⟨mismatch, hfirst⟩
  · obtain ⟨code, hread, hempty, hzero, hhash⟩ := hmatches.runtime
    have hother : other.Matches host otherName otherRecord withCreation otherWorld :=
      ⟨haddress hmatches.address, h.creationMatches hmatches.creation, code, hcode _ hread, hempty,
        hzero, h.runtimeCodeHash.trans hhash⟩
    rw [check_of_matches hother, check_of_matches hmatches]
  · rw [check_of_firstMismatch hfirst]
    apply check_of_firstMismatch
    cases hfirst with
    | addressMissing hzero => exact .addressMissing (h.address.trans hzero)
    | artifactUnavailable hknown hasked hunavailable =>
      exact .artifactUnavailable (haddress hknown) hasked (h.unavailable hasked hunavailable)
    | creationCode hknown hasked hyields hdiffers =>
      rw [← (h.creation hasked).2.2] at hdiffers ⊢
      exact .creationCode (haddress hknown) hasked (h.yields hasked hyields) hdiffers
    | codeUnavailable hknown hcreation hread =>
      exact .codeUnavailable (haddress hknown) (h.creationMatches hcreation) (hcode _ hread)
    | noCode hknown hcreation hread hnone =>
      exact .noCode (haddress hknown) (h.creationMatches hcreation) (hcode _ hread) hnone
    | runtimeCode hknown hcreation hread hsome hdiffers =>
      rw [← h.runtimeCodeHash] at hdiffers ⊢
      exact .runtimeCode (haddress hknown) (h.creationMatches hcreation) (hcode _ hread) hsome
        hdiffers

end SameView

/-! ## Telling the mismatch -/

section Verify

variable (verifier : Verifier φ) (host : Host γ φ) (name : String) (record : Record)
  (withCreation : Bool)

theorem cumulative_silent :
    Cumulative fun before after : World γ φ => after.notices = before.notices where
  refl _ := rfl
  trans hfirst hsecond := hsecond.trans hfirst

/-- A check tells nothing. -/
theorem check_silent :
    (verifier.check host name record withCreation).Within
      fun before after => after.notices = before.notices := by
  refine Act.within_bind cumulative_silent (fun _ => rfl) fun world => ?_
  dsimp only
  split
  · exact Act.within_pure cumulative_silent _
  · split
    · exact Act.within_pure cumulative_silent _
    · refine Act.within_bind cumulative_silent (fun _ => rfl) fun outcome => ?_
      cases outcome <;> exact Act.within_pure cumulative_silent _

variable (world : World γ φ)

/-- Verifying tells which contract is checked, answers whether it passes, and tells the mismatch if
it does not. -/
theorem verify_cases :
    (verifier.Matches host name record withCreation world ∧
      ∃ after, verifier.verify host name record withCreation world = (true, after) ∧
        after.notices = world.notices ++ [.checking name]) ∨
    ∃ mismatch after, verifier.FirstMismatch host name record withCreation world mismatch ∧
      verifier.verify host name record withCreation world = (false, after) ∧
        after.notices = world.notices ++
          [.checking name, .mismatched name record.address mismatch] := by
  have htold : (Act.tell (.checking name) : Act γ φ Unit) world =
      ((), { world with notices := world.notices ++ [.checking name] }) := rfl
  have hsilent := check_silent verifier host name record withCreation
    { world with notices := world.notices ++ [.checking name] }
  have hview : SameView host withCreation verifier verifier name name record record world
      { world with notices := world.notices ++ [.checking name] } :=
    ⟨rfl, rfl, rfl, fun _ => ⟨rfl, rfl, rfl⟩⟩
  have hsame := hview.check_eq
  cases hcheck : verifier.check host name record withCreation
      { world with notices := world.notices ++ [.checking name] } with
  | mk outcome after =>
    rw [hcheck] at hsame hsilent
    cases outcome with
    | ok _ =>
      refine .inl ⟨check_eq_ok_iff.1 hsame.symm, after, ?_, hsilent⟩
      simp only [verify, bind, StateT.bind, htold, hcheck]
      rfl
    | error mismatch =>
      refine .inr ⟨mismatch,
        { after with notices := after.notices ++ [.mismatched name record.address mismatch] },
        check_eq_error_iff.1 hsame.symm, ?_, ?_⟩
      · simp only [verify, bind, StateT.bind, htold, hcheck]
        rfl
      · show after.notices ++ [.mismatched name record.address mismatch] = _
        rw [hsilent, List.append_assoc]
        rfl

theorem verify_eq_true_iff :
    (verifier.verify host name record withCreation world).1 = true ↔
      verifier.Matches host name record withCreation world := by
  rcases verifier.verify_cases host name record withCreation world with
    ⟨hmatches, after, hverify, -⟩ | ⟨mismatch, after, hfirst, hverify, -⟩
  · rw [hverify]
    exact ⟨fun _ => hmatches, fun _ => rfl⟩
  · rw [hverify]
    exact ⟨nofun, fun hmatches => absurd hmatches hfirst.not_matches⟩

theorem verify_eq_false_iff :
    (verifier.verify host name record withCreation world).1 = false ↔
      ∃ mismatch, verifier.FirstMismatch host name record withCreation world mismatch := by
  rcases verifier.verify_cases host name record withCreation world with
    ⟨hmatches, after, hverify, -⟩ | ⟨mismatch, after, hfirst, hverify, -⟩
  · rw [hverify]
    exact ⟨nofun, fun ⟨_, hfirst⟩ => absurd hmatches hfirst.not_matches⟩
  · rw [hverify]
    exact ⟨fun _ => ⟨mismatch, hfirst⟩, fun _ => rfl⟩

/-- Of an entry that passes, only that it is checked is told. -/
theorem verify_tells_of_matches
    (h : verifier.Matches host name record withCreation world) :
    (verifier.verify host name record withCreation world).2.notices =
      world.notices ++ [.checking name] := by
  rcases verifier.verify_cases host name record withCreation world with
    ⟨-, after, hverify, htold⟩ | ⟨mismatch, after, hfirst, -, -⟩
  · rw [hverify]
    exact htold
  · exact absurd h hfirst.not_matches

/-- Of one that does not, the first mismatch is told as well. -/
theorem verify_tells_of_firstMismatch {mismatch : Mismatch}
    (h : verifier.FirstMismatch host name record withCreation world mismatch) :
    (verifier.verify host name record withCreation world).2.notices = world.notices ++
      [.checking name, .mismatched name record.address mismatch] := by
  rcases verifier.verify_cases host name record withCreation world with
    ⟨hmatches, -, -, -⟩ | ⟨found, after, hfirst, hverify, htold⟩
  · exact absurd hmatches h.not_matches
  · rw [h.unique hfirst, hverify]
    exact htold

end Verify

/-- A check passes exactly the entries that agree with their artifact and with the chain, and finds
the first mismatch of any other. Verifying answers whether the entry passes and does not fail
itself; of one that does not pass, the first mismatch is told. Of an entry, only the kind, the
address, the two recorded hashes and the libraries matter; if the code that created the contract is
not checked, only the address and the other hash. -/
theorem check_finds_first_mismatch (verifier : Verifier φ) (host : Host γ φ) (name : String)
    (record : Record) (withCreation : Bool) (world : World γ φ) :
    ((verifier.check host name record withCreation world).1 = .ok () ↔
      verifier.Matches host name record withCreation world) ∧
    (∀ mismatch, (verifier.check host name record withCreation world).1 = .error mismatch ↔
      verifier.FirstMismatch host name record withCreation world mismatch) ∧
    ((verifier.verify host name record withCreation world).1 = true ↔
      verifier.Matches host name record withCreation world) ∧
    ((verifier.verify host name record withCreation world).1 = false ↔
      ∃ mismatch, verifier.FirstMismatch host name record withCreation world mismatch) ∧
    (verifier.Matches host name record withCreation world →
      (verifier.verify host name record withCreation world).2.notices =
        world.notices ++ [.checking name]) ∧
    (∀ mismatch, verifier.FirstMismatch host name record withCreation world mismatch →
      (verifier.verify host name record withCreation world).2.notices = world.notices ++
        [.checking name, .mismatched name record.address mismatch]) ∧
    (∀ other : Record, other.isProxy = record.isProxy → other.address = record.address →
      other.fields.creationCodeHash = record.fields.creationCodeHash →
      other.fields.runtimeCodeHash = record.fields.runtimeCodeHash →
      other.fields.libraries = record.fields.libraries →
      (verifier.check host name other withCreation world).1 =
        (verifier.check host name record withCreation world).1) ∧
    ∀ (another : Verifier φ) (anotherName : String) (other : Record) (files : φ),
      other.address = record.address →
      other.fields.runtimeCodeHash = record.fields.runtimeCodeHash →
      (another.check host anotherName other false { world with files }).1 =
        (verifier.check host name record false world).1 := by
  refine ⟨check_eq_ok_iff, fun mismatch => check_eq_error_iff,
    verifier.verify_eq_true_iff host name record withCreation world,
    verifier.verify_eq_false_iff host name record withCreation world,
    verifier.verify_tells_of_matches host name record withCreation world,
    fun mismatch => verifier.verify_tells_of_firstMismatch host name record withCreation world,
    ?_, ?_⟩
  · intro other hproxy haddress hcreation hruntime hlibraries
    refine SameView.check_eq ⟨haddress, rfl, hruntime, fun _ => ⟨?_, hlibraries, hcreation⟩⟩
    rw [artifactName, artifactName, hproxy]
  · intro another anotherName other files haddress hruntime
    exact SameView.check_eq ⟨haddress, rfl, hruntime, nofun⟩

end Verifier

end ContractDeploy
