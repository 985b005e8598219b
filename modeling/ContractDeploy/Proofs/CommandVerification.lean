import ContractDeploy.Proofs.Commands
import ContractDeploy.Proofs.Verification

/-!
# Verifying what an earlier command recorded

A command that deploys and a later one that verifies share the file of the address book and nothing
else. The file says what was deployed, but of a contract behind a proxy it does not say which
proxy's artifact it was; the later command goes by the default one. So a direct entry is found sound
as long as nothing changed, and an entry behind a proxy is if the default proxy's artifact has the
code of the proxy that was deployed.
-/

namespace ContractDeploy

variable {γ φ : Type}

/-! ## Verifying -/

section Verify

variable {host : Host γ φ} {sender : Sender} {locations : Locations} {name : String}
  {world opened : World γ φ} {book : Book}

/-- Verifying tells which contract is checked and then goes by the check. -/
theorem verify_iff_check (verifier : Verifier φ) (host : Host γ φ) (name : String)
    (record : Record) (world : World γ φ) :
    (verifier.verify host name record true world).1 = true ↔
      (verifier.check host name record true
        { world with notices := world.notices ++ [.checking name] }).1 = .ok () := by
  have htold : (Act.tell (.checking name) : Act γ φ Unit) world =
      ((), { world with notices := world.notices ++ [.checking name] }) := rfl
  cases hcheck : verifier.check host name record true
      { world with notices := world.notices ++ [.checking name] } with
  | mk outcome after =>
    cases outcome with
    | ok _ =>
      have hverify : (verifier.verify host name record true world).1 = true := by
        simp only [Verifier.verify, bind, StateT.bind, htold, hcheck]
        rfl
      exact ⟨fun _ => rfl, fun _ => hverify⟩
    | error mismatch =>
      have hverify : (verifier.verify host name record true world).1 = false := by
        simp only [Verifier.verify, bind, StateT.bind, htold, hcheck]
        rfl
      simp [hverify]

theorem Context.verify_singleton {context : Context φ}
    (hconnected : context.sender.requireConnection = .ok ()) :
    (context.verify host (some name) true world).1 =
      if (context.verifier.verify host name (context.book.get name) true world).1 then .ok ()
      else .error (.unverified [name] 1) := by
  have hconnection : Context.liftRun (liftM context.sender.requireConnection : Run γ φ Unit) world =
      (.ok (), world) := Command.liftRun_of_ok (by rw [Run.ofExcept_apply, hconnected])
  have hchecked : context.failing host true [name] world =
      (if (context.verifier.verify host name (context.book.get name) true world).1 then []
        else [name],
        (context.verifier.verify host name (context.book.get name) true world).2) := rfl
  rw [verify, Command.bind_of_ok hconnection, Command.bind_of_ok (Command.ofAct_of_eq hchecked)]
  cases (context.verifier.verify host name (context.book.get name) true world).1 with
  | true =>
    exact congrArg Prod.fst (Command.liftRun_of_ok (Run.tell_apply (.verified 1) _))
  | false => rfl

/-- Verifying one contract succeeds if the contract passes its check, and otherwise names it. -/
theorem run_verify_of_opened {id : Nat} (hconnected : sender.requireConnection = .ok ())
    (hid : (host.node.chainId world.chain).1 = .ok id)
    (hopen : Book.openFile host locations.addressBook (toString id)
      { world with
        chain := (host.node.chainId world.chain).2
        notices := world.notices ++ [Context.networkNotice id] } = (.ok book, opened)) :
    (Command.run host (.verify (some name) true) sender locations world).1 =
      if ((Context.of host sender locations book).verifier.verify host name (book.get name) true
        opened).1 then .ok () else .error (.unverified [name] 1) := by
  have hmake := Context.make_of_opened hconnected hid hopen
  rw [Command.run, Command.bind_of_ok (Command.liftRun_of_ok hmake)]
  exact Context.verify_singleton hconnected

end Verify

/-! ## What recording commands leave -/

/-- The files as they are once a book with this entry was handed to the disk for its file, with the
disk's answer. -/
def LeavesEntry (disk : Disk φ) (file network name : String) (record : Record)
    (answer : Except FileFault Unit) (files : φ) : Prop :=
  ∃ (settled : Book) (before : φ), settled.file = file ∧ settled.network = network ∧
    settled.get name = record ∧
    disk.write settled.file settled.document.print before = (answer, files)

/-- An entry that the disk took is found when the book is opened again. -/
theorem LeavesEntry.reopened {host : Host γ φ} {file network name : String} {record : Record}
    {files : φ} (h : LeavesEntry host.disk file network name record (.ok ()) files)
    (hback : host.disk.GivesBack file) (reopening : World γ φ)
    (hsame : host.disk.read reopening.files file = host.disk.read files file) :
    ∃ reopened opened, Book.openFile host file network reopening = (.ok reopened, opened) ∧
      reopened.get name = record := by
  obtain ⟨settled, before, rfl, rfl, hget, hwrite⟩ := h
  have hheld := hback _ _ _ hwrite
  obtain ⟨reopened, opened, hopen, hsettled⟩ := reopened_of_held (hsame.trans hheld)
  exact ⟨reopened, opened, hopen, (hsettled name).trans hget⟩

/-- What the file holds determines the entry. -/
theorem LeavesEntry.unique {host : Host γ φ} {file network name : String} {record other : Record}
    {files : φ} (h : LeavesEntry host.disk file network name record (.ok ()) files)
    (hother : LeavesEntry host.disk file network name other (.ok ()) files)
    (hback : host.disk.GivesBack file) (world : World γ φ) : record = other := by
  obtain ⟨book, _, hopen, hget⟩ := h.reopened hback { world with files } rfl
  obtain ⟨again, _, hopenAgain, hgetAgain⟩ :=
    hother.reopened hback { world with files } rfl
  rw [hopen] at hopenAgain
  cases hopenAgain
  exact hget.symm.trans hgetAgain

/-- A command deployed something and recorded it: the entry has the fields of the deployment, which
comes from an artifact and stands on the code of its address at moments of the command, and the book
with the entry was the last that was handed to the disk. -/
structure RecordsDeployment (host : Host γ φ) (locations : Locations) (name artifactName : String)
    (world after : World γ φ) (network : String) (record : Record) (deployed : Deployed)
    (files : φ) (chain : γ) (answer : Except FileFault Unit) : Prop where
  onNetwork : ∃ id, (host.node.chainId world.chain).1 = .ok id ∧ network = toString id
  fields : ∃ args initArgs, record.fields = { deployed.toSnapshot args with initArgs }
  comesFrom : deployed.ComesFrom (locations.source host.disk) artifactName files
  standsOn : deployed.StandsOn host.node chain
  passed : Passed host ⟨some locations.journal⟩ locations.addressBook
    { world with chain := (host.node.chainId world.chain).2 } after files chain
  entry : LeavesEntry host.disk locations.addressBook network name record answer after.files

section Recording

variable {host : Host γ φ} {sender : Sender} {locations : Locations} {world after : World γ φ}

/-- Setting an entry is all that a step that saves does to the files. -/
theorem Recording.save_leavesEntry (host : Host γ φ) (name : String) (record : Record) (book : Book)
    (world : World γ φ) :
    ∃ answer after,
      Recording.save host name record book world = ((.ok (), book.insert name record), after) ∧
      after.chain = world.chain ∧
      LeavesEntry host.disk book.file book.network name record answer after.files := by
  obtain ⟨after, hsave, hchain, hfiles⟩ := Recording.save_files host name record book world
  have hget := Book.get_insert book name name record
  rw [if_pos rfl] at hget
  exact ⟨_, after, hsave, hchain, book.insert name record, world.files, rfl, rfl, hget,
    Prod.ext rfl hfiles.symm⟩

/-- A deployment that was recorded is followed by nothing else that is written. -/
theorem deployAndSave_leavesEntry {deployer : Deployer φ} {name : String} {args : List String}
    {book settled : Book} {deployed : Deployed}
    (h : deployer.deployAndSave host name args book world = ((.ok deployed, settled), after)) :
    ∃ middle answer, deployer.deploy host name args true world = (.ok deployed, middle) ∧
      after.chain = middle.chain ∧
      LeavesEntry host.disk book.file book.network name (.direct (deployed.toSnapshot args)) answer
        after.files := by
  obtain ⟨found, between, middle, hdeploy, hsaved⟩ := Recording.bind_eq_ok h
  obtain ⟨hrun, rfl⟩ := Recording.ofRun_eq_ok hdeploy
  obtain ⟨answer, last, hsave, hchain, hentry⟩ := Recording.save_leavesEntry host name
    (.direct (found.toSnapshot args)) between middle
  rw [Recording.bind_of_ok hsave] at hsaved
  cases hsaved
  exact ⟨middle, answer, hrun, hchain, hentry⟩

/-- Deploying a contract from a context records it. -/
theorem deploy_records {contract : String} {args : List String} {id : Nat} {book settled : Book}
    {opened : World γ φ} (hopens : OpensBook host locations world id book opened)
    (h : (Context.of host sender locations book).deploy host contract args book opened =
      ((.ok (), settled), after)) :
    ∃ deployed chain answer, settled.get contract = .direct (Deployed.toSnapshot deployed args) ∧
      RecordsDeployment host locations contract contract world after (toString id)
        (.direct (deployed.toSnapshot args)) deployed world.files chain answer := by
  obtain ⟨deployed, between, saved, hdeploy, htell⟩ := Recording.bind_eq_ok h
  obtain ⟨htold, rfl⟩ := Recording.ofRun_eq_ok htell
  obtain ⟨hfiles, hafter⟩ := Run.tellAll_eq_ok htold
  obtain ⟨middle, answer, hdeployed, hsaved, hentry⟩ := deployAndSave_leavesEntry hdeploy
  obtain ⟨hcomes, chain, hbefore, hlast, hstands⟩ := Deployer.deploy_eq_ok hdeployed
  obtain ⟨_, last, hrun, -, hsaves⟩ := deployAndSave_of_ok book hdeployed
  rw [hdeploy] at hrun
  cases hrun
  have hget := Book.get_insert book contract contract (.direct (deployed.toSnapshot args))
  rw [if_pos rfl] at hget
  refine ⟨deployed, chain, answer, hget, ⟨id, hopens.named, rfl⟩, ⟨args, none, rfl⟩, ?_, hstands,
    ⟨⟨[], .refl⟩, ?_, ?_, ?_⟩, ?_⟩
  · rw [← hopens.files]
    exact hcomes
  · rw [hfiles, ← hopens.files, ← hopens.file]
    exact ⟨_, hsaves⟩
  · rw [← hopens.chain]
    exact hbefore
  · rw [hafter, hsaved]
    exact hlast
  · rw [hfiles, ← hopens.file, ← hopens.network]
    exact hentry

/-- An upgrade that recorded its proxy writes nothing afterwards. -/
theorem deployBehindProxyAndSave_leavesEntry {deployer : Deployer φ} {upgrade : Upgrade}
    {book settled recorded : Book} {deployment : ProxyDeployment} {receipt : Receipt}
    {prepared : PreparedUpgrade} {implementation : Deployed} {firstAnswer : Except FileFault Unit}
    {saved completed : World γ φ}
    (h : deployer.deployBehindProxyAndSave host upgrade book world =
      ((.ok deployment, settled), after))
    (hrecorded : ImplementationRecorded host deployer upgrade book world prepared implementation
      recorded firstAnswer saved)
    (hcomplete : deployer.completeFromImplementation host prepared
      (book.get Upgrade.adminName).address implementation saved = (.ok deployment, completed))
    (haccepted : deployment.acceptance = .accepted receipt) :
    ∃ answer, LeavesEntry host.disk book.file book.network upgrade.name
      (.proxied { deployment.proxy.toSnapshot [] with initArgs := recordedArgs upgrade.initArgs }
        (implementation.toSnapshot [])) answer after.files := by
  obtain ⟨answer, last, hsave, -, hentry⟩ := Recording.save_leavesEntry host upgrade.name
    (Deployer.acceptedRecord upgrade deployment.proxy (recorded.get upgrade.name)) recorded
    completed
  rw [← recordAcceptance_of_accepted haccepted] at hsave
  rw [hrecorded.onwards, afterImplementation,
    Recording.bind_of_ok (Recording.ofRun_apply hcomplete), Recording.bind_of_ok hsave] at h
  cases h
  rw [acceptedRecord_of_replaced _ hrecorded.memory, hrecorded.memory.file,
    hrecorded.memory.network] at hentry
  exact ⟨answer, hentry⟩

/-- A call that is sent is accepted or fails. -/
theorem accepted_of_direct {deployer : Deployer φ} {prepared : PreparedUpgrade} {admin : Address}
    {implementation : Deployed} {deployment : ProxyDeployment}
    (hdirect : prepared.upgrade.manualAccept = false)
    (h : deployer.completeFromImplementation host prepared admin implementation world =
      (.ok deployment, after)) :
    ∃ receipt, deployment.acceptance = .accepted receipt := by
  obtain ⟨middle, -, haccept, -⟩ := Deployer.completeFromImplementation_eq_ok h
  rw [Deployer.accept, hdirect, if_neg Bool.false_ne_true] at haccept
  obtain ⟨receipt, _, -, haccept⟩ := Run.bind_eq_ok haccept
  exact ⟨receipt, (Except.ok.inj (congrArg Prod.fst haccept)).symm⟩

/-- Deploying a contract behind a proxy from a context, with the call that accepts sent, records the
proxy. -/
theorem deployProxy_records (upgrade : Upgrade) (hdirect : upgrade.manualAccept = false)
    {id : Nat} {book settled : Book} {opened : World γ φ}
    (hopens : OpensBook host locations world id book opened)
    (h : (Context.of host sender locations book).deployProxy host upgrade book opened =
      ((.ok (), settled), after)) :
    ∃ proxy implementation files chain answer,
      let record := Record.proxied
        { Deployed.toSnapshot proxy [] with initArgs := recordedArgs upgrade.initArgs }
        (Deployed.toSnapshot implementation [])
      settled.get upgrade.name = record ∧
      RecordsDeployment host locations upgrade.name upgrade.proxyName world after (toString id)
        record proxy files chain answer := by
  obtain ⟨deployment, between, saved, hdeploy, htell⟩ := Recording.bind_eq_ok h
  obtain ⟨htold, rfl⟩ := Recording.ofRun_eq_ok htell
  obtain ⟨hfiles, hafter⟩ := Run.tellAll_eq_ok htold
  -- The call was to be sent, so a run that succeeded has it accepted, not left pending.
  have haccepted : ∃ receipt, deployment.acceptance = .accepted receipt := by
    obtain ⟨_, _, _, _, _, _, hrecorded, hcomplete, -⟩ := deployBehindProxyAndSave_eq_ok hdeploy
    obtain ⟨_, -, himplements⟩ := hrecorded.implemented
    refine accepted_of_direct ?_ hcomplete
    rw [(Deployer.preparation_eq_ok himplements.isPrepared).1]
    exact hdirect
  obtain ⟨receipt, haccepted⟩ := haccepted
  obtain ⟨_, implementation, _, _, recorded, _, _, chain, hrecorded, hcomplete, hcomes, hstands,
    hpassed, hmemory, -⟩ := deployBehindProxyAndSave_of_accepted hdeploy haccepted
  obtain ⟨answer, hentry⟩ :=
    deployBehindProxyAndSave_leavesEntry hdeploy hrecorded hcomplete haccepted
  refine ⟨deployment.proxy, implementation, recorded.files, chain, answer, hmemory.get_eq,
    ⟨id, hopens.named, rfl⟩, ⟨[], _, rfl⟩, hcomes, hstands, ?_, ?_⟩
  · rw [hopens.file] at hpassed
    exact ⟨hopens.files ▸ hpassed.filesBefore, hfiles ▸ hpassed.filesAfter,
      hopens.chain ▸ hpassed.chainBefore, hafter ▸ hpassed.chainAfter⟩
  · rw [hfiles, ← hopens.file, ← hopens.network]
    exact hentry

end Recording

/-- What a command recorded is determined by what it left. -/
theorem RecordsDeployment.unique {host : Host γ φ} {locations : Locations}
    {name artifactName network otherName otherNetwork : String} {world after : World γ φ}
    {record other : Record} {deployed otherDeployed : Deployed} {files otherFiles : φ}
    {chain otherChain : γ}
    (h : RecordsDeployment host locations name artifactName world after network record deployed
      files chain (.ok ()))
    (hother : RecordsDeployment host locations name otherName world after otherNetwork other
      otherDeployed otherFiles otherChain (.ok ()))
    (hback : host.disk.GivesBack locations.addressBook) : record = other := by
  obtain ⟨id, hid, rfl⟩ := h.onNetwork
  obtain ⟨otherId, hotherId, rfl⟩ := hother.onNetwork
  cases hid.symm.trans hotherId
  exact h.entry.unique hother.entry hback after

/-! ## Verifying what was recorded -/

/-- A later moment at which what was recorded stands: an account is connected to the same network,
the file of the address book and the code at the recorded address are what they were, the address is
not the zero address, and the code is not that of an account without code. -/
structure StillStands (host : Host γ φ) (locations : Locations) (network : String)
    (record : Record) (chain : γ) (after : World γ φ) (sender : Sender) (later : World γ φ) :
    Prop where
  connected : sender.requireConnection = .ok ()
  sameNetwork : ∃ id, (host.node.chainId later.chain).1 = .ok id ∧ network = toString id
  sameBook : host.disk.read later.files locations.addressBook =
    host.disk.read after.files locations.addressBook
  sameCode : (host.node.code record.address (host.node.chainId later.chain).2).1 =
    (host.node.code record.address chain).1
  deployed : record.isDeployed = true
  hasCode : ∀ code, (host.node.code record.address (host.node.chainId later.chain).2).1 = .ok code →
    (keccak256 code).isOfNoCode = false

/-- Verifying one contract succeeds. -/
def Verifies (host : Host γ φ) (locations : Locations) (name : String) (sender : Sender)
    (world : World γ φ) : Prop :=
  (Command.run host (.verify (some name) true) sender locations world).1 = .ok ()

/-- What was recorded is verified exactly if the artifact that the entry is compared with yields the
code that was deployed. -/
theorem RecordsDeployment.verifies_iff {host : Host γ φ} {locations : Locations}
    {name artifactName network : String} {world after later : World γ φ} {record : Record}
    {deployed : Deployed} {files : φ} {chain : γ} {sender : Sender}
    (h : RecordsDeployment host locations name artifactName world after network record deployed
      files chain (.ok ()))
    (hback : host.disk.GivesBack locations.addressBook)
    (hstill : StillStands host locations network record chain after sender later) :
    Verifies host locations name sender later ↔
      deployed.ComesFrom (locations.source host.disk)
        (if record.isProxy then Upgrade.defaultProxyName else name) later.files := by
  obtain ⟨id, hid, rfl⟩ := hstill.sameNetwork
  obtain ⟨args, initArgs, hfields⟩ := h.fields
  obtain ⟨book, opened, hopen, hget⟩ := h.entry.reopened hback { later with
    chain := (host.node.chainId later.chain).2
    notices := later.notices ++ [Context.networkNotice id] } hstill.sameBook
  obtain ⟨hfiles, hchain⟩ : opened.files = later.files ∧
      opened.chain = (host.node.chainId later.chain).2 := (openFile_eq_ok hopen).2.2
  have hcode := hstill.sameCode
  have hsome := hstill.hasCode
  rw [← hchain] at hcode hsome
  have hcheck := Verifier.check_iff_comesFrom (Context.of host sender locations book).verifier host
    name { opened with notices := opened.notices ++ [.checking name] } hfields h.standsOn hcode
    hstill.deployed hsome
  rw [Verifies, run_verify_of_opened hstill.connected hid hopen, hget, ← hfiles]
  -- The command asks for one contract only, so its outcome is the answer for that contract.
  refine Iff.trans ?_ ((verify_iff_check _ host name record opened).trans hcheck)
  split
  · next hverified => exact ⟨fun _ => hverified, fun _ => rfl⟩
  · next hverified => exact ⟨nofun, fun hverified' => absurd hverified' hverified⟩

/-- What a command deployed and recorded is verified by a later command, as long as nothing changed.
Of a contract behind a proxy the address book does not say which proxy's artifact it was deployed
from, and the later command goes by the default one: it succeeds exactly if that artifact yields the
code of the proxy that was deployed. -/
theorem verification_after_deployment (host : Host γ φ) (sender : Sender) (locations : Locations)
    (world after : World γ φ) :
    (∀ contract args,
      Command.run host (.deploy contract args) sender locations world = (.ok (), after) →
      ∃ network deployed chain answer,
        let record := Record.direct (Deployed.toSnapshot deployed args)
        RecordsDeployment host locations contract contract world after network record deployed
          world.files chain answer ∧
        (answer = .ok () → host.disk.GivesBack locations.addressBook → ∀ verifying later,
          StillStands host locations network record chain after verifying later →
          (locations.source host.disk).read later.files contract =
            (locations.source host.disk).read world.files contract →
          Verifies host locations contract verifying later)) ∧
    ∀ upgrade : Upgrade, upgrade.manualAccept = false →
      Command.run host (.deployProxy upgrade) sender locations world = (.ok (), after) →
      ∃ network proxy implementation files chain answer,
        let record := Record.proxied
          { Deployed.toSnapshot proxy [] with initArgs := recordedArgs upgrade.initArgs }
          (Deployed.toSnapshot implementation [])
        RecordsDeployment host locations upgrade.name upgrade.proxyName world after network record
          proxy files chain answer ∧
        (answer = .ok () → host.disk.GivesBack locations.addressBook → ∀ verifying later,
          StillStands host locations network record chain after verifying later →
          (locations.source host.disk).read later.files upgrade.proxyName =
            (locations.source host.disk).read files upgrade.proxyName →
          (Verifies host locations upgrade.name verifying later ↔
            proxy.ComesFrom (locations.source host.disk) Upgrade.defaultProxyName later.files) ∧
          (upgrade.proxyName = Upgrade.defaultProxyName →
            Verifies host locations upgrade.name verifying later)) := by
  constructor
  · intro contract args h
    obtain ⟨id, book, opened, settled, hopens, h⟩ :=
      run_recording_eq_ok (fun context => context.deploy host contract args) h
    obtain ⟨deployed, chain, answer, -, hrecords⟩ := deploy_records hopens h
    refine ⟨toString id, deployed, chain, answer, hrecords, ?_⟩
    intro htaken hback verifying later hstill hsame
    subst htaken
    exact (hrecords.verifies_iff hback hstill).2 (hrecords.comesFrom.of_read hsame)
  · intro upgrade hdirect h
    obtain ⟨id, book, opened, settled, hopens, h⟩ :=
      run_recording_eq_ok (fun context => context.deployProxy host upgrade) h
    obtain ⟨proxy, implementation, files, chain, answer, -, hrecords⟩ :=
      deployProxy_records upgrade hdirect hopens h
    refine ⟨toString id, proxy, implementation, files, chain, answer, hrecords, ?_⟩
    intro htaken hback verifying later hstill hsame
    subst htaken
    have hiff := hrecords.verifies_iff hback hstill
    refine ⟨hiff, fun hdefault => hiff.2 ?_⟩
    show proxy.ComesFrom _ Upgrade.defaultProxyName later.files
    rw [← hdefault]
    exact hrecords.comesFrom.of_read hsame

/-! ## A proxy of another name -/

/-- The text of an artifact whose constructor has these parameters. -/
def artifactText (parameters : String) : String :=
  "\x7b\"contractName\":\"Plain\",\"abi\":[\x7b\"type\":\"constructor\",\"inputs\":[" ++
    parameters ++ "]\x7d],\"bytecode\":\"0x6080\"\x7d"

/-- The parameters of a proxy's constructor. -/
def proxyParameters : String :=
  "\x7b\"name\":\"implementation\",\"type\":\"address\"\x7d," ++
    "\x7b\"name\":\"admin\",\"type\":\"address\"\x7d"

/-- Files of which only the address book ever changes. Beside it stand the artifacts of a contract,
of the proxy admin and of one proxy, all with the same code. -/
def shelf (proxyName : String) : Disk String where
  read book path :=
    if path = "addresses.json" then .ok book
    else if path = Path.join "build" (ArtifactSource.fileName proxyName) then
      .ok (artifactText proxyParameters)
    else .ok (artifactText "")
  write path text book :=
    if path = "addresses.json" then (.ok (), text) else (.error .notFound, book)
  append _ _ book := (.ok (), book)
  list _ _ :=
    .leaf (ArtifactSource.fileName "Token") <|
      .leaf (ArtifactSource.fileName Upgrade.adminName) <|
        .leaf (ArtifactSource.fileName proxyName) .done

/-- A host with such files. -/
def shelfHost (proxyName : String) : Host Nat String where
  node := promptNode
  disk := shelf proxyName
  clock _ := ⟨0⟩

/-- Where the tool is to find those files. -/
def shelfLocations : Locations where
  addressBook := "addresses.json"
  artifacts := "build"
  journal := "tx-logs"

/-- A chain and an address book in which there is a proxy admin. -/
def shelfWorld : World Nat String where
  chain := 0
  files := "\x7b\"1337\":\x7b\"GraphProxyAdmin\":" ++
    "\x7b\"address\":\"0x0000000000000000000000000000000000000002\"\x7d\x7d\x7d"

/-- A connected account. -/
def plainSender : Sender where
  address := FixedBytes.ofNat 1

/-- A contract behind a proxy of this name. -/
def tokenBehind (proxyName : String) : Upgrade where
  name := "Token"
  initArgs := []
  proxyName := proxyName
  manualAccept := false

/-- Whether steps of a command succeed and record an address for a contract. -/
def recordsAddress (host : Host γ φ) (sender : Sender) (locations : Locations) (name : String)
    (recording : Context φ → Recording γ φ Unit) (world : World γ φ) : Bool :=
  match Context.make host sender locations world with
  | (.error _, _) => false
  | (.ok context, opened) =>
    match (recording context context.book opened).1 with
    | (.error _, _) => false
    | (.ok (), settled) => (settled.get name).isDeployed

theorem exists_of_recordsAddress {host : Host γ φ} {sender : Sender} {locations : Locations}
    {name : String} {recording : Context φ → Recording γ φ Unit} {world : World γ φ}
    (h : recordsAddress host sender locations name recording world = true) :
    ∃ id book opened settled after, OpensBook host locations world id book opened ∧
      Context.make host sender locations world =
        (.ok (Context.of host sender locations book), opened) ∧
      recording (Context.of host sender locations book) book opened = ((.ok (), settled), after) ∧
      (settled.get name).isDeployed = true := by
  unfold recordsAddress at h
  split at h
  · cases h
  · next context opened hmake =>
    obtain ⟨id, book, rfl, hopens⟩ := Context.make_eq_ok hmake
    split at h
    · cases h
    · next settled hrecording =>
      exact ⟨id, book, opened, settled, _, hopens, hmake, Prod.ext hrecording rfl, h⟩

section Shelf

variable {proxyName name artifactName network : String} {world after : World Nat String}
  {record : Record} {deployed : Deployed} {files : String} {chain : Nat}
  {answer : Except FileFault Unit}

theorem shelf_givesBack (proxyName : String) :
    (shelfHost proxyName).disk.GivesBack shelfLocations.addressBook := by
  intro text before after h
  cases h
  rfl

theorem fileName_ne {entry name : String} (h : entry ≠ name) :
    ArtifactSource.fileName entry ≠ ArtifactSource.fileName name := by
  intro hfile
  apply h
  simpa [ArtifactSource.fileName, String.append_assoc] using hfile

/-- The artifacts do not depend on the address book. -/
theorem shelf_artifacts_unchanged (before after name : String) :
    (shelfLocations.source (shelf "OtherProxy")).read after name =
      (shelfLocations.source (shelf "OtherProxy")).read before name := by
  by_cases htoken : "Token" = name
  · subst htoken
    rfl
  by_cases hadmin : Upgrade.adminName = name
  · subst hadmin
    rfl
  by_cases hproxy : "OtherProxy" = name
  · subst hproxy
    rfl
  have hnone : ∀ book, ((shelf "OtherProxy").list book "build").find "build"
      (ArtifactSource.fileName name) = .ok none := by
    intro book
    unfold shelf Listing.find
    simp only [Listing.findHere, if_neg (fileName_ne htoken), if_neg (fileName_ne hadmin),
      if_neg (fileName_ne hproxy)]
    rfl
  have hread : ∀ book, (shelfLocations.source (shelf "OtherProxy")).read book name =
      .error (.artifactNotFound (.notBelow name "build")) := by
    intro book
    unfold Locations.source ArtifactSource.inDirectory shelfLocations
    simp only [hnone]
  rw [hread, hread]

theorem LeavesEntry.answer_on_shelf
    (h : LeavesEntry (shelfHost proxyName).disk shelfLocations.addressBook network name record
      answer files) : answer = .ok () := by
  obtain ⟨settled, before, hfile, -, -, hwrite⟩ := h
  rw [hfile] at hwrite
  exact (congrArg Prod.fst hwrite).symm

/-- What was recorded on the shelf stands right after the command. -/
theorem RecordsDeployment.stands_on_shelf
    (h : RecordsDeployment (shelfHost proxyName) shelfLocations name artifactName world after
      network record deployed files chain answer)
    (hdeployed : record.isDeployed = true) :
    StillStands (shelfHost proxyName) shelfLocations network record chain after plainSender
      after where
  connected := rfl
  sameNetwork := h.onNetwork
  sameBook := rfl
  sameCode := rfl
  deployed := hdeployed
  hasCode _ hread := promptNode_hasCode hread

/-- A contract that was deployed on the shelf is recorded at an address. -/
theorem deploy_on_shelf (proxyName : String)
    (h : recordsAddress (shelfHost proxyName) plainSender shelfLocations "Token"
      (fun context => context.deploy (shelfHost proxyName) "Token" []) shelfWorld = true) :
    ∃ after network deployed chain,
      let record := Record.direct (Deployed.toSnapshot deployed [])
      Command.run (shelfHost proxyName) (.deploy "Token" []) plainSender shelfLocations shelfWorld =
        (.ok (), after) ∧
      RecordsDeployment (shelfHost proxyName) shelfLocations "Token" "Token" shelfWorld after
        network record deployed shelfWorld.files chain (.ok ()) ∧
      record.isDeployed = true := by
  obtain ⟨id, book, opened, settled, after, hopens, hmake, hdeploy, haddress⟩ :=
    exists_of_recordsAddress h
  obtain ⟨deployed, chain, answer, hget, hrecords⟩ := deploy_records hopens hdeploy
  obtain rfl := hrecords.entry.answer_on_shelf
  rw [hget] at haddress
  exact ⟨after, _, deployed, chain, run_recording_of_ok hmake hdeploy, hrecords, haddress⟩

/-- A contract that was deployed behind the proxy of the shelf is recorded at an address. -/
theorem deployProxy_on_shelf (proxyName : String)
    (h : recordsAddress (shelfHost proxyName) plainSender shelfLocations "Token"
      (fun context => context.deployProxy (shelfHost proxyName) (tokenBehind proxyName))
      shelfWorld = true) :
    ∃ after network proxy implementation files chain,
      let record := Record.proxied
        { Deployed.toSnapshot proxy [] with
          initArgs := recordedArgs (tokenBehind proxyName).initArgs }
        (Deployed.toSnapshot implementation [])
      Command.run (shelfHost proxyName) (.deployProxy (tokenBehind proxyName)) plainSender
        shelfLocations shelfWorld = (.ok (), after) ∧
      RecordsDeployment (shelfHost proxyName) shelfLocations "Token" proxyName shelfWorld after
        network record proxy files chain (.ok ()) ∧
      record.isDeployed = true := by
  obtain ⟨id, book, opened, settled, after, hopens, hmake, hdeploy, haddress⟩ :=
    exists_of_recordsAddress h
  obtain ⟨proxy, implementation, files, chain, answer, hget, hrecords⟩ :=
    deployProxy_records (tokenBehind proxyName) rfl hopens hdeploy
  obtain rfl := hrecords.entry.answer_on_shelf
  have hname : settled.get "Token" = _ := hget
  rw [hname] at haddress
  exact ⟨after, _, proxy, implementation, files, chain, run_recording_of_ok hmake hdeploy, hrecords,
    haddress⟩

end Shelf

/-- A contract that was deployed is verified, and so is one behind the default proxy. -/
theorem verification_after_deployment_token :
    let host := shelfHost Upgrade.defaultProxyName
    (∃ after,
      Command.run host (.deploy "Token" []) plainSender shelfLocations shelfWorld =
        (.ok (), after) ∧
      Verifies host shelfLocations "Token" plainSender after) ∧
    ∃ after,
      Command.run host (.deployProxy (tokenBehind Upgrade.defaultProxyName)) plainSender
        shelfLocations shelfWorld = (.ok (), after) ∧
      Verifies host shelfLocations "Token" plainSender after := by
  intro host
  have hback := shelf_givesBack Upgrade.defaultProxyName
  constructor
  · obtain ⟨after, _, _, _, hrun, hknown, hdeployed⟩ :=
      deploy_on_shelf Upgrade.defaultProxyName (by decide +kernel)
    obtain ⟨_, _, _, _, hrecords, hverifies⟩ :=
      (verification_after_deployment host plainSender shelfLocations shelfWorld after).1 "Token" []
        hrun
    obtain rfl := hrecords.entry.answer_on_shelf
    rw [hknown.unique hrecords hback] at hdeployed
    exact ⟨after, hrun, hverifies rfl hback plainSender after
      (hrecords.stands_on_shelf hdeployed) rfl⟩
  · obtain ⟨after, _, _, _, _, _, hrun, hknown, hdeployed⟩ :=
      deployProxy_on_shelf Upgrade.defaultProxyName (by decide +kernel)
    obtain ⟨_, _, _, _, _, _, hrecords, hverifies⟩ :=
      (verification_after_deployment host plainSender shelfLocations shelfWorld after).2
        (tokenBehind Upgrade.defaultProxyName) rfl hrun
    obtain rfl := hrecords.entry.answer_on_shelf
    rw [hknown.unique hrecords hback] at hdeployed
    exact ⟨after, hrun, (hverifies rfl hback plainSender after
      (hrecords.stands_on_shelf hdeployed) rfl).2 rfl⟩

/-- A contract behind a proxy of another name is not verified right after it was deployed and
recorded, although nothing changed. -/
theorem other_proxy_not_verified :
    let host := shelfHost "OtherProxy"
    ∃ after network proxy implementation files chain,
      let record := Record.proxied (Deployed.toSnapshot proxy [])
        (Deployed.toSnapshot implementation [])
      Command.run host (.deployProxy (tokenBehind "OtherProxy")) plainSender shelfLocations
        shelfWorld = (.ok (), after) ∧
      RecordsDeployment host shelfLocations "Token" "OtherProxy" shelfWorld after network record
        proxy files chain (.ok ()) ∧
      StillStands host shelfLocations network record chain after plainSender after ∧
      (∀ name, (shelfLocations.source host.disk).read after.files name =
        (shelfLocations.source host.disk).read files name) ∧
      ¬ Verifies host shelfLocations "Token" plainSender after := by
  intro host
  obtain ⟨after, network, proxy, implementation, files, chain, hrun, hrecords, hdeployed⟩ :=
    deployProxy_on_shelf "OtherProxy" (by decide +kernel)
  have hstill := hrecords.stands_on_shelf hdeployed
  refine ⟨after, network, proxy, implementation, files, chain, hrun, hrecords, hstill,
    shelf_artifacts_unchanged files after.files, fun hverified => ?_⟩
  -- The verifier looks for the default proxy's artifact, and there is none.
  obtain ⟨_, _, hread, -⟩ :=
    (hrecords.verifies_iff (shelf_givesBack "OtherProxy") hstill).1 hverified
  cases hread

end ContractDeploy
