import ContractDeploy.Integrity
import ContractDeploy.Proofs.BookSession
import ContractDeploy.Proofs.Deployments
import ContractDeploy.Proofs.UpgradeRecording

/-!
# Recorded deployments are found sound

The deployer writes down the hash of the code that it linked and that of the code that it found at
the new address; the verifier links again, reads again and compares. Both meet only in the entry of
the address book. As long as the artifact and the code are what the run found, the comparison comes
out right: for a direct entry against the contract's own artifact, and for one behind a proxy
against the proxy's. That holds for the entry in memory and for the one that is read back from the
file.
-/

namespace ContractDeploy

variable {γ φ : Type}

namespace Verifier

/-! ## Sound entries -/

/-- An entry is found sound at any later moment, as long as its artifact is what it was in some
files and the code at its address is what it was on some chain, provided that it has an address and
that the code there is not that of an account without code. -/
def Sound (verifier : Verifier φ) (host : Host γ φ) (name : String) (record : Record) (files : φ)
    (chain : γ) : Prop :=
  ∀ later : World γ φ,
    verifier.source.read later.files (verifier.artifactName name record) =
      verifier.source.read files (verifier.artifactName name record) →
    (host.node.code record.address later.chain).1 =
      (host.node.code record.address chain).1 →
    record.isDeployed = true →
    (∀ code, (host.node.code record.address later.chain).1 = .ok code →
      (keccak256 code).isOfNoCode = false) →
    (verifier.check host name record true later).1 = .ok ()

section Check

variable {verifier : Verifier φ} {host : Host γ φ} {name : String} {record : Record}
  {world : World γ φ}

theorem checkRuntime_of_code {code : Bytes}
    (h : (host.node.code record.address world.chain).1 = .ok code) :
    (checkRuntime host record world).1 =
      compareRuntime record.fields.runtimeCodeHash (keccak256 code) := by
  have hread : (host.codeAt record.address world).1 = .ok code := by
    show (host.node.code record.address world.chain).1.mapError _ = _
    rw [h]
    rfl
  cases hrun : host.codeAt record.address world with
  | mk outcome after =>
    rw [hrun] at hread
    have hcode : outcome = .ok code := hread
    subst hcode
    simp only [checkRuntime, bind, StateT.bind, ExceptT.run, hrun]
    rfl

/-- Once the address is known and the code there is right, the check depends on the code that
created the contract. -/
theorem check_iff_checkCreation (hdeployed : record.isDeployed = true)
    (hruntime : (checkRuntime host record world).1 = .ok ()) :
    (verifier.check host name record true world).1 = .ok () ↔
      verifier.checkCreation name record world.files = .ok () := by
  cases hcreation : verifier.checkCreation name record world.files with
  | ok _ =>
    have hcheck : verifier.check host name record true world =
        checkRuntime host record world := by
      simp only [check, hdeployed, bind, StateT.bind, get, getThe, MonadStateOf.get, StateT.get,
        pure, Bool.not_true, Bool.false_eq_true, if_false, if_true, hcreation]
    rw [hcheck, hruntime]
  | error mismatch =>
    have hcheck : verifier.check host name record true world = (.error mismatch, world) := by
      simp only [check, hdeployed, bind, StateT.bind, get, getThe, MonadStateOf.get, StateT.get,
        pure, Bool.not_true, Bool.false_eq_true, if_false, if_true, hcreation]
      rfl
    rw [hcheck]

/-- The code that created a contract is right if the artifact yields code of the recorded hash. -/
theorem checkCreation_eq_ok_iff {files : φ} :
    verifier.checkCreation name record files = .ok () ↔
      ∃ artifact code,
        verifier.source.read files (verifier.artifactName name record) = .ok artifact ∧
        artifact.linkedCode (record.fields.libraries.getD NameMap.empty) = .ok code ∧
        record.fields.creationCodeHash = some (keccak256 code) := by
  constructor
  · intro h
    obtain ⟨code, hcode, h⟩ := Except.bind_eq_ok h
    obtain ⟨artifact, hread, hlink⟩ := Except.bind_eq_ok (mapError_eq_ok hcode)
    refine ⟨artifact, code, hread, mapError_eq_ok hlink, ?_⟩
    unfold compareCreation at h
    split at h
    · next hhash => exact hhash
    · cases h
  · rintro ⟨artifact, code, hread, hcode, hhash⟩
    have hartifact : verifier.artifactCode (verifier.artifactName name record)
        record.fields.libraries files = .ok code := by
      rw [artifactCode, hread]
      show (artifact.linkedCode _).mapError _ = _
      rw [hcode]
      rfl
    rw [checkCreation, hartifact]
    show compareCreation _ (keccak256 code) = _
    rw [compareCreation, if_pos hhash]

end Check

/-! ## What a deployment recorded is sound -/

theorem eq_empty_of_isEmpty {α : Type} {map : NameMap α} (h : map.isEmpty = true) :
    map = NameMap.empty :=
  NameMap.ext (List.isEmpty_iff.1 h)

/-- The libraries that a record keeps are those that were linked, also when there were none. -/
theorem libraries_toSnapshot (deployed : Deployed) (args : List String) :
    (deployed.toSnapshot args).libraries.getD NameMap.empty = deployed.libraries := by
  show (if deployed.libraries.isEmpty then none else some deployed.libraries).getD _ = _
  split
  · next hempty => exact (eq_empty_of_isEmpty hempty).symm
  · rfl

/-- An entry with the fields of a deployment passes the check as long as the artifact that it is
compared with yields the code that was deployed, provided that the code at its address is the one
that the deployment stands on. -/
theorem check_iff_comesFrom (verifier : Verifier φ) (host : Host γ φ) (name : String)
    (world : World γ φ) {record : Record} {deployed : Deployed} {chain : γ} {args : List String}
    {initArgs : Option (List String)}
    (hfields : record.fields = { deployed.toSnapshot args with initArgs })
    (hstands : deployed.StandsOn host.node chain)
    (hsame : (host.node.code record.address world.chain).1 =
      (host.node.code record.address chain).1)
    (hdeployed : record.isDeployed = true)
    (hcode : ∀ code, (host.node.code record.address world.chain).1 = .ok code →
      (keccak256 code).isOfNoCode = false) :
    (verifier.check host name record true world).1 = .ok () ↔
      deployed.ComesFrom verifier.source (verifier.artifactName name record) world.files := by
  have hruntime : (checkRuntime host record world).1 = .ok () := by
    obtain ⟨runtimeCode, hfound, hhash⟩ := hstands
    have haddress : record.address = deployed.address := by
      rw [Record.address, hfields]
      rfl
    have hworld : (host.node.code record.address world.chain).1 = .ok runtimeCode := by
      rw [hsame, haddress]
      exact hfound
    rw [checkRuntime_of_code hworld, compareRuntime, hcode runtimeCode hworld, hfields, ← hhash]
    exact if_pos rfl
  have hlibraries : record.fields.libraries.getD NameMap.empty = deployed.libraries := by
    rw [hfields]
    exact libraries_toSnapshot deployed args
  have hhash : record.fields.creationCodeHash = some deployed.creationCodeHash := by
    rw [hfields]
    rfl
  rw [check_iff_checkCreation hdeployed hruntime, checkCreation_eq_ok_iff, hlibraries, hhash]
  simp only [Option.some.injEq]
  rfl

/-- An entry with the fields of a deployment is sound against the artifact that the deployment
comes from and the code that it stands on. -/
theorem sound_of_deployed {verifier : Verifier φ} {host : Host γ φ} {name : String}
    {record : Record} {deployed : Deployed} {files : φ} {chain : γ} (args : List String)
    (initArgs : Option (List String))
    (hfields : record.fields = { deployed.toSnapshot args with initArgs })
    (hcomes : deployed.ComesFrom verifier.source (verifier.artifactName name record) files)
    (hstands : deployed.StandsOn host.node chain) :
    verifier.Sound host name record files chain := by
  intro later hartifact hsame hdeployed hcode
  rw [check_iff_comesFrom verifier host name _ hfields hstands hsame hdeployed hcode]
  exact hcomes.of_read hartifact

end Verifier

/-! ## Reopening -/

/-- A book that the file holds is read back as it was. -/
theorem reopened_of_held {host : Host γ φ} {book : Book} {reopening : World γ φ}
    (hheld : host.disk.read reopening.files book.file = .ok book.document.print) :
    ∃ reopened opened, Book.openFile host book.file book.network reopening =
        (.ok reopened, opened) ∧ ∀ name, reopened.get name = book.get name := by
  obtain ⟨opened, hopen, -⟩ := openFile_of_read book.network reopening hheld
    (BookDocument.parse_print book.document)
  refine ⟨_, opened, hopen, fun name => ?_⟩
  rw [Book.get, Book.get, entries_get?, entries_get?]
  exact congrArg (fun found => found.getD Record.missing) (find?_withNetwork book.document _ _ name)

/-- A book that the disk took as the last one is read back as it was, from then on and until its
file is written again. -/
theorem reopened_of_taken {host : Host γ φ} {journal : Journal} {book : Book}
    {earlier : List BookSave} {before after : φ} {reopening : World γ φ}
    (hsaves : BookSaves host.disk journal book.file (earlier ++ [(book.document, .ok ())]) before
      after)
    (hback : host.disk.GivesBack book.file) (hapart : journal.Apart host.disk book.file)
    (hsame : host.disk.read reopening.files book.file = host.disk.read after book.file) :
    ∃ reopened opened, Book.openFile host book.file book.network reopening =
        (.ok reopened, opened) ∧ ∀ name, reopened.get name = book.get name :=
  reopened_of_held (hsame.trans (hsaves.read_taken hback hapart))

/-! ## Recorded deployments -/

/-- Files and a chain that a run went through between two worlds. -/
structure Passed (host : Host γ φ) (journal : Journal) (path : String) (before after : World γ φ)
    (files : φ) (chain : γ) : Prop where
  filesBefore : ∃ saves, BookSaves host.disk journal path saves before.files files
  filesAfter : ∃ saves, BookSaves host.disk journal path saves files after.files
  chainBefore : host.node.Reaches before.chain chain
  chainAfter : host.node.Reaches chain after.chain

/-- A run recorded a deployment under a name. The record has the fields of the deployment, which
comes from the artifact in certain files and stands on the code at its address on a certain chain,
both of which the run went through. The record is found sound as long as that artifact and that code
are still there, and if the disk took the book, it is the one that is read when the book is opened
again. -/
structure EntryStands (verifier : Verifier φ) (host : Host γ φ) (journal : Journal) (name : String)
    (before after : World γ φ) (book : Book) (record : Record) (deployed : Deployed) (files : φ)
    (chain : γ) (answer : Except FileFault Unit) : Prop where
  entry : book.get name = record
  fields : ∃ args initArgs, record.fields = { deployed.toSnapshot args with initArgs }
  comesFrom : deployed.ComesFrom verifier.source (verifier.artifactName name record) files
  standsOn : deployed.StandsOn host.node chain
  passed : Passed host journal book.file before after files chain
  sound : verifier.Sound host name record files chain
  /-- The book is the last that was handed to the disk, which gave this answer. -/
  handed : ∃ earlier, BookSaves host.disk journal book.file (earlier ++ [(book.document, answer)])
    before.files after.files
  reopened : answer = .ok () → host.disk.GivesBack book.file → journal.Apart host.disk book.file →
    ∀ reopening : World γ φ,
      host.disk.read reopening.files book.file = host.disk.read after.files book.file →
        ∃ reopened opened, Book.openFile host book.file book.network reopening =
            (.ok reopened, opened) ∧ reopened.get name = record

section Entries

variable {host : Host γ φ} {deployer : Deployer φ} {book settled : Book} {world after : World γ φ}

theorem entryStands_of_deployed {verifier : Verifier φ} {journal : Journal} {name : String}
    {record : Record} {deployed : Deployed} {answer : Except FileFault Unit} {files : φ} {chain : γ}
    (args : List String) (initArgs : Option (List String)) (earlier : List BookSave)
    (hentry : book.get name = record)
    (hfields : record.fields = { deployed.toSnapshot args with initArgs })
    (hcomes : deployed.ComesFrom verifier.source (verifier.artifactName name record) files)
    (hstands : deployed.StandsOn host.node chain)
    (hpassed : Passed host journal book.file world after files chain)
    (hsaves : BookSaves host.disk journal book.file (earlier ++ [(book.document, answer)])
      world.files after.files) :
    EntryStands verifier host journal name world after book record deployed files chain answer where
  entry := hentry
  fields := ⟨args, initArgs, hfields⟩
  comesFrom := hcomes
  standsOn := hstands
  passed := hpassed
  sound := Verifier.sound_of_deployed args initArgs hfields hcomes hstands
  handed := ⟨earlier, hsaves⟩
  reopened htaken hback hapart reopening hsame := by
    rw [htaken] at hsaves
    obtain ⟨reopened, opened, hopen, hget⟩ := reopened_of_taken hsaves hback hapart hsame
    exact ⟨reopened, opened, hopen, (hget name).trans hentry⟩

theorem deployAndSave_entryStands (proxyName : String) {name : String} {args : List String}
    {deployed : Deployed}
    (h : deployer.deployAndSave host name args book world = ((.ok deployed, settled), after)) :
    ∃ chain answer, EntryStands ⟨deployer.source, proxyName⟩ host deployer.journal name world after
      settled (.direct (deployed.toSnapshot args)) deployed world.files chain answer := by
  cases hdeploy : deployer.deploy host name args true world with
  | mk outcome middle =>
    cases outcome with
    | error error =>
      rw [deployAndSave_of_error hdeploy] at h
      cases h
    | ok found =>
      obtain ⟨answer, last, hrun, hlast, hsaves⟩ := deployAndSave_of_ok book hdeploy
      rw [hrun] at h
      cases h
      obtain ⟨hcomes, chain, hbefore, hafter, hstands⟩ := Deployer.deploy_eq_ok hdeploy
      have hget := Book.get_insert book name name (.direct (deployed.toSnapshot args))
      rw [if_pos rfl] at hget
      have hpassed : Passed host deployer.journal book.file world after world.files chain :=
        ⟨⟨[], .refl⟩, ⟨_, hsaves⟩, hbefore, hlast ▸ hafter⟩
      exact ⟨chain, answer,
        entryStands_of_deployed args none [] hget rfl hcomes hstands hpassed hsaves⟩

/-- A run whose implementation was accepted deployed the proxy from its artifact once the
implementation was recorded, and recorded it last. -/
theorem deployBehindProxyAndSave_of_accepted {upgrade : Upgrade} {deployment : ProxyDeployment}
    {receipt : Receipt}
    (h : deployer.deployBehindProxyAndSave host upgrade book world =
      ((.ok deployment, settled), after))
    (haccepted : deployment.acceptance = .accepted receipt) :
    ∃ prepared implementation recorded answer saved completed lastAnswer chain,
      ImplementationRecorded host deployer upgrade book world prepared implementation recorded
        answer saved ∧
      deployer.completeFromImplementation host prepared (book.get Upgrade.adminName).address
        implementation saved = (.ok deployment, completed) ∧
      deployment.proxy.ComesFrom deployer.source upgrade.proxyName saved.files ∧
      deployment.proxy.StandsOn host.node chain ∧
      Passed host deployer.journal book.file world after saved.files chain ∧
      book.Replaced upgrade.name
        (.proxied { deployment.proxy.toSnapshot [] with initArgs := recordedArgs upgrade.initArgs }
          (implementation.toSnapshot [])) settled ∧
      BookSaves host.disk deployer.journal book.file
        ([(recorded.document, answer)] ++ [(settled.document, lastAnswer)]) world.files
        after.files := by
  obtain ⟨prepared, implementation, recorded, answer, saved, completed, hrecorded, hcomplete,
    hchain, ⟨payload, hpending, -⟩ | ⟨_, lastAnswer, -, hsettled, hsaves⟩⟩ :=
    deployBehindProxyAndSave_eq_ok h
  · rw [haccepted] at hpending
    cases hpending
  · obtain ⟨reached, hreached, himplements⟩ := hrecorded.implemented
    obtain ⟨hupgrade, -⟩ := Deployer.preparation_eq_ok himplements.isPrepared
    obtain ⟨middle, hdeployProxy, haccept, -⟩ :=
      Deployer.completeFromImplementation_eq_ok hcomplete
    obtain ⟨hcomes, chain, hbefore, hafter, hstands⟩ := Deployer.deploy_eq_ok hdeployProxy
    rw [hupgrade] at hcomes
    have hsaved := Deployer.reaches_deploy himplements.isDeployed
    rw [← hreached] at hsaved
    have hcompleted := Deployer.reaches_accept haccept
    have hmemory := hrecorded.memory.trans (recorded.replaced_insert upgrade.name
      (Deployer.acceptedRecord upgrade deployment.proxy (recorded.get upgrade.name)))
    rw [← hsettled, acceptedRecord_of_replaced _ hrecorded.memory] at hmemory
    have hlater := hsaves.of_grown (completeFromImplementation_grown hcomplete)
    have hpassed : Passed host deployer.journal book.file world after saved.files chain :=
      ⟨⟨_, hrecorded.file⟩, ⟨_, hlater⟩, hsaved.trans hbefore, hchain ▸ hafter.trans hcompleted⟩
    exact ⟨prepared, implementation, recorded, answer, saved, completed, lastAnswer, chain,
      hrecorded, hcomplete, hcomes, hstands, hpassed, hmemory, hrecorded.file.append hlater⟩

theorem completeFromImplementation_implementation {prepared : PreparedUpgrade} {admin : Address}
    {implementation : Deployed} {deployment : ProxyDeployment}
    (h : deployer.completeFromImplementation host prepared admin implementation world =
      (.ok deployment, after)) : deployment.implementation = implementation := by
  obtain ⟨_, -, -, hdeliver⟩ := Deployer.completeFromImplementation_eq_ok h
  rw [hdeliver]
  rfl

/-- The entry of an accepted upgrade is that of the proxy, whose artifact is loaded once the
implementation is recorded. -/
theorem entryStands_of_accepted {upgrade : Upgrade} {deployment : ProxyDeployment}
    {receipt : Receipt}
    (h : deployer.deployBehindProxyAndSave host upgrade book world =
      ((.ok deployment, settled), after))
    (haccepted : deployment.acceptance = .accepted receipt) :
    ∃ files chain answer, EntryStands ⟨deployer.source, upgrade.proxyName⟩ host deployer.journal
      upgrade.name world after settled
      (.proxied { deployment.proxy.toSnapshot [] with initArgs := recordedArgs upgrade.initArgs }
        (deployment.implementation.toSnapshot []))
      deployment.proxy files chain answer := by
  obtain ⟨_, implementation, recorded, answer, saved, _, lastAnswer, chain, -, hcomplete, hcomes,
    hstands, hpassed, hmemory, hsaves⟩ := deployBehindProxyAndSave_of_accepted h haccepted
  rw [← hmemory.file] at hpassed hsaves
  rw [completeFromImplementation_implementation hcomplete]
  exact ⟨saved.files, chain, lastAnswer, entryStands_of_deployed [] (recordedArgs upgrade.initArgs)
    [(recorded.document, answer)] hmemory.get_eq rfl hcomes hstands hpassed hsaves⟩

/-- The entry of an upgrade that is left to be accepted is that of the implementation, and nothing
is written to the file afterwards. -/
theorem entryStands_of_pending (proxyName : String) {upgrade : Upgrade}
    {deployment : ProxyDeployment} {payload : AcceptPayload}
    (h : deployer.deployBehindProxyAndSave host upgrade book world =
      ((.ok deployment, settled), after))
    (hpending : deployment.acceptance = .pending payload) :
    ∃ chain answer, EntryStands ⟨deployer.source, proxyName⟩ host deployer.journal upgrade.name
      world after settled (.direct (deployment.implementation.toSnapshot []))
      deployment.implementation world.files chain answer := by
  obtain ⟨prepared, implementation, recorded, answer, saved, completed, hrecorded, hcomplete,
    hchain, ⟨_, -, rfl, hsaves⟩ | ⟨receipt, _, haccepted, -⟩⟩ := deployBehindProxyAndSave_eq_ok h
  · obtain ⟨reached, hreached, himplements⟩ := hrecorded.implemented
    obtain ⟨hcomes, chain, hbefore, hafter, hstands⟩ := Deployer.deploy_eq_ok himplements.isDeployed
    obtain ⟨middle, hdeployProxy, haccept, -⟩ :=
      Deployer.completeFromImplementation_eq_ok hcomplete
    have hproxied := Deployer.reaches_deploy hdeployProxy
    have hcompleted := Deployer.reaches_accept haccept
    have hall := (hrecorded.file.append_grown (completeFromImplementation_grown
      hcomplete)).append_grown hsaves
    rw [← hrecorded.memory.file] at hall
    have hpassed : Passed host deployer.journal settled.file world after world.files chain :=
      ⟨⟨[], .refl⟩, ⟨_, hall⟩, hbefore,
        hchain ▸ ((hafter.trans (hreached ▸ hproxied)).trans hcompleted)⟩
    rw [completeFromImplementation_implementation hcomplete]
    exact ⟨chain, answer, entryStands_of_deployed [] none [] hrecorded.memory.get_eq rfl hcomes
      hstands hpassed hall⟩
  · rw [hpending] at haccepted
    cases haccepted

end Entries

/-- What a deployment records is found sound afterwards, as long as its artifact and its code are
what they were when it was deployed, and so is what a deployment behind a proxy records. If the
implementation was accepted, that is the proxy, which is compared with the artifact of its own name;
if it is left to be accepted, the implementation. -/
theorem recorded_deployments_are_sound (host : Host γ φ) (deployer : Deployer φ)
    (proxyName : String) (book settled : Book) (world after : World γ φ) :
    (∀ name args deployed,
      deployer.deployAndSave host name args book world = ((.ok deployed, settled), after) →
      ∃ chain answer, EntryStands ⟨deployer.source, proxyName⟩ host deployer.journal name world
        after settled (.direct (deployed.toSnapshot args)) deployed world.files chain answer) ∧
    ∀ upgrade deployment,
      deployer.deployBehindProxyAndSave host upgrade book world =
        ((.ok deployment, settled), after) →
      (∀ receipt, deployment.acceptance = .accepted receipt →
        ∃ files chain answer, EntryStands ⟨deployer.source, upgrade.proxyName⟩ host
          deployer.journal upgrade.name world after settled
          (.proxied
            { deployment.proxy.toSnapshot [] with initArgs := recordedArgs upgrade.initArgs }
            (deployment.implementation.toSnapshot []))
          deployment.proxy files chain answer) ∧
      ∀ payload, deployment.acceptance = .pending payload →
        ∃ chain answer, EntryStands ⟨deployer.source, proxyName⟩ host deployer.journal
          upgrade.name world after settled (.direct (deployment.implementation.toSnapshot []))
          deployment.implementation world.files chain answer := by
  constructor
  · intro name args deployed h
    exact deployAndSave_entryStands proxyName h
  · intro upgrade deployment h
    exact ⟨fun receipt => entryStands_of_accepted h,
      fun payload => entryStands_of_pending proxyName h⟩

/-! ## A run of its own -/

/-- A node that includes every transaction at once. It counts them, and gives each its own hash. -/
def promptNode : Node Nat where
  submit _ count := (.ok (FixedBytes.ofNat count), count + 1)
  receipt hash count := (.ok (some {
    txHash := hash
    sender := FixedBytes.ofNat 1
    callee := none
    contractAddress := some (FixedBytes.ofNat (256 + Bytes.toNat hash.bytes))
    succeeded := true
    blockNumber := some count }), count)
  code _ count := (.ok [0x60, 0x80], count)
  blockNumber count := (.ok count, count)
  baseFee count := (.ok none, count)
  chainId count := (.ok 1337, count)
  patience _ _ := 0
  patience_decreases _ _ _ h := by simp at h

/-- What stands at the addresses of that node counts as code. -/
theorem promptNode_hasCode {address : Address} {chain : Nat} {code : Bytes}
    (h : (promptNode.code address chain).1 = .ok code) : (keccak256 code).isOfNoCode = false := by
  cases h
  decide +kernel

/-- A host with that node and a file tree. -/
def promptHost : Host Nat FileTree where
  node := promptNode
  disk := FileTree.disk
  clock _ := ⟨0⟩

/-- A deployer whose contracts all have the same code. Only the proxy's is made with arguments. -/
def plainDeployer : Deployer FileTree where
  sender := { address := FixedBytes.ofNat 1 }
  source := {
    read := fun _ name => .ok {
      contractName := name
      interface := {
        constructorInputs :=
          if name = Upgrade.defaultProxyName then
            some [.mk "implementation" "address" [], .mk "admin" "address" []]
          else none }
      bytecode := "6080"
      links := NameMap.empty } }

/-- An address book in which there is a proxy admin. -/
def adminBook : Book where
  file := "addresses.json"
  network := "goerli"
  document := NameMap.empty.insert "goerli" (NameMap.empty.insert Upgrade.adminName
    (.direct (Snapshot.at (FixedBytes.ofNat 2))))

/-- A contract behind a proxy, whose implementation is accepted from the deploying account. -/
def tokenUpgrade : Upgrade where
  name := "Token"
  initArgs := []
  proxyName := Upgrade.defaultProxyName
  manualAccept := false

/-- Whether a run gave an accepted deployment and recorded an address for it. -/
def isAcceptedWithAddress (name : String) (result : Recorded γ φ ProxyDeployment) : Bool :=
  match result.1.1 with
  | .ok ⟨_, _, _, .accepted _⟩ => (result.1.2.get name).isDeployed
  | _ => false

theorem exists_of_isAcceptedWithAddress {name : String} {result : Recorded γ φ ProxyDeployment}
    (h : isAcceptedWithAddress name result = true) :
    ∃ deployment settled after, result = ((.ok deployment, settled), after) ∧
      (∃ receipt, deployment.acceptance = .accepted receipt) ∧
      (settled.get name).isDeployed = true := by
  obtain ⟨⟨outcome, settled⟩, after⟩ := result
  unfold isAcceptedWithAddress at h
  split at h
  · next contract implementation proxy receipt houtcome =>
    exact ⟨⟨contract, implementation, proxy, .accepted receipt⟩, settled, after, by
      rw [← houtcome], ⟨receipt, rfl⟩, h⟩
  · cases h

/-- A contract is deployed behind a proxy and recorded, and its entry is found sound. -/
theorem recorded_deployments_are_sound_token :
    let start : World Nat FileTree := {
      chain := 0
      files := .file "addresses.json" (.text "") .done }
    let verifier : Verifier FileTree := { source := plainDeployer.source }
    ∃ deployment settled after files chain answer,
      plainDeployer.deployBehindProxyAndSave promptHost tokenUpgrade adminBook start =
        ((.ok deployment, settled), after) ∧
      (∃ receipt, deployment.acceptance = .accepted receipt) ∧
      EntryStands verifier promptHost plainDeployer.journal "Token" start after settled
        (.proxied (deployment.proxy.toSnapshot []) (deployment.implementation.toSnapshot []))
        deployment.proxy files chain answer ∧
      (verifier.check promptHost "Token" (settled.get "Token") true after).1 = .ok () := by
  intro start verifier
  have hrun : isAcceptedWithAddress "Token" (plainDeployer.deployBehindProxyAndSave promptHost
      tokenUpgrade adminBook start) = true := by
    decide +kernel
  obtain ⟨deployment, settled, after, hgave, ⟨receipt, haccepted⟩, haddress⟩ :=
    exists_of_isAcceptedWithAddress hrun
  obtain ⟨-, hupgrade⟩ := recorded_deployments_are_sound promptHost plainDeployer
    Upgrade.defaultProxyName adminBook settled start after
  obtain ⟨files, chain, answer, hstands⟩ :=
    (hupgrade tokenUpgrade deployment hgave).1 receipt haccepted
  have hsound := hstands.sound
  rw [← hstands.entry] at hsound
  exact ⟨deployment, settled, after, files, chain, answer, hgave, ⟨receipt, haccepted⟩, hstands,
    hsound after rfl rfl haddress fun _ hread => promptNode_hasCode hread⟩

end ContractDeploy
