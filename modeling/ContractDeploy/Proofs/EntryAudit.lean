import ContractDeploy.Proofs.BookSession
import ContractDeploy.Proofs.CommandFrame
import ContractDeploy.Proofs.EntryChecks

/-!
# Checking recorded contracts

The command that verifies checks its entries one after the other, each in the world that the checks
before it left, and goes on after a failure. What it comes to is put together at the end: it
succeeds if every check passed, and otherwise it names those that did not, in the order in which
they were made. The checks of a command are one list here, with the outcome of each, so that the
error, the transcript and the number of checks are all read off that list.
-/

namespace ContractDeploy

variable {γ φ : Type}

/-- The world after something is told. -/
def World.telling (world : World γ φ) (notices : List Notice) : World γ φ :=
  { world with notices := world.notices ++ notices }

theorem World.telling_nil (world : World γ φ) : world.telling [] = world := by
  rw [World.telling, List.append_nil]

/-! ## One check after the other -/

/-- The check of a contract, with what it came to. -/
structure EntryCheck where
  name : String
  outcome : Except Mismatch Unit

namespace EntryCheck

/-- Whether the contract passed. -/
def passed (check : EntryCheck) : Bool := check.outcome.isOk

theorem passed_iff (check : EntryCheck) : check.passed = true ↔ check.outcome = .ok () := by
  obtain ⟨name, outcome⟩ := check
  cases outcome with
  | ok _ => exact ⟨fun _ => rfl, fun _ => rfl⟩
  | error mismatch => exact ⟨nofun, nofun⟩

/-- What is told of the mismatch that a check found. -/
def mismatchNotices (check : EntryCheck) (record : Record) : List Notice :=
  match check.outcome with
  | .ok _ => []
  | .error mismatch => [.mismatched check.name record.address mismatch]

/-- All that is told of a check. -/
def notices (book : Book) (check : EntryCheck) : List Notice :=
  .checking check.name :: check.mismatchNotices (book.get check.name)

/-- The names of the contracts that did not pass. -/
def failures (checks : List EntryCheck) : List String :=
  (checks.filter fun check => !check.passed).map name

/-- Whether a name is among the failures is decided by its own check alone. -/
theorem failures_cons (check : EntryCheck) (checks : List EntryCheck) :
    failures (check :: checks) =
      if check.passed then failures checks else check.name :: failures checks := by
  cases hpassed : check.passed <;> simp [failures, hpassed]

theorem failures_eq_nil_iff (checks : List EntryCheck) :
    failures checks = [] ↔ ∀ check ∈ checks, check.outcome = .ok () := by
  simp only [failures, List.map_eq_nil_iff, List.filter_eq_nil_iff, Bool.not_eq_true',
    Bool.not_eq_false, passed_iff]

end EntryCheck

/-- Entries of a book are checked one after the other, each in the world that the checks before it
left, whatever those came to. -/
inductive ChecksInTurn (host : Host γ φ) (verifier : Verifier φ) (book : Book)
    (withCreation : Bool) : World γ φ → List EntryCheck → World γ φ → Prop
  | done (world : World γ φ) : ChecksInTurn host verifier book withCreation world [] world
  | next {world checked after : World γ φ} {name : String} {outcome : Except Mismatch Unit}
      {checks : List EntryCheck}
      (check : verifier.check host name (book.get name) withCreation
        (world.telling [.checking name]) = (outcome, checked))
      (rest : ChecksInTurn host verifier book withCreation
        (checked.telling (EntryCheck.mismatchNotices ⟨name, outcome⟩ (book.get name))) checks
        after) :
      ChecksInTurn host verifier book withCreation world (⟨name, outcome⟩ :: checks) after

section Turns

variable {host : Host γ φ} {verifier : Verifier φ} {book : Book} {withCreation : Bool}
  {world after : World γ φ} {checks : List EntryCheck}

/-- What is told is told of the checks, one after the other. -/
theorem ChecksInTurn.notices (h : ChecksInTurn host verifier book withCreation world checks after) :
    after.notices = world.notices ++ checks.flatMap (EntryCheck.notices book) := by
  induction h with
  | done world => simp
  | @next world checked after name outcome checks hcheck _ ih =>
    have hsilent := verifier.check_silent host name (book.get name) withCreation
      (world.telling [.checking name])
    rw [hcheck] at hsilent
    have hchecked : checked.notices = world.notices ++ [.checking name] := hsilent
    rw [ih, World.telling, hchecked]
    simp [EntryCheck.notices]

/-- A contract without an entry does not pass. -/
theorem ChecksInTurn.of_unrecorded
    (h : ChecksInTurn host verifier book withCreation world checks after) :
    ∀ check ∈ checks, book.get check.name = Record.missing →
      check.outcome = .error .addressMissing := by
  induction h with
  | done world => nofun
  | @next world checked after name outcome checks hcheck _ ih =>
    refine List.forall_mem_cons.2 ⟨fun hmissing => ?_, ih⟩
    have hzero : (book.get name).address = FixedBytes.zero := by
      rw [hmissing]
      rfl
    have hfails : verifier.check host name (book.get name) withCreation
        (world.telling [.checking name]) =
          (.error .addressMissing, world.telling [.checking name]) :=
      Verifier.check_of_zero hzero
    rw [hcheck] at hfails
    exact congrArg Prod.fst hfails

theorem Verifier.verify_apply (verifier : Verifier φ) (host : Host γ φ) (name : String)
    (record : Record) (withCreation : Bool) {outcome : Except Mismatch Unit}
    {checked : World γ φ}
    (h : verifier.check host name record withCreation (world.telling [.checking name]) =
      (outcome, checked)) :
    verifier.verify host name record withCreation world =
      (EntryCheck.passed ⟨name, outcome⟩,
        checked.telling (EntryCheck.mismatchNotices ⟨name, outcome⟩ record)) := by
  have htold : (Act.tell (.checking name) : Act γ φ Unit) world =
      ((), world.telling [.checking name]) := rfl
  cases outcome with
  | ok _ =>
    simp only [verify, bind, StateT.bind, htold, h, EntryCheck.mismatchNotices,
      World.telling_nil]
    rfl
  | error mismatch =>
    simp only [verify, bind, StateT.bind, htold, h]
    rfl

/-- The loop over names makes one check for each, and gives the names that did not pass. -/
theorem Context.failing_inTurn (host : Host γ φ) (context : Context φ) (withCreation : Bool)
    (names : List String) (world : World γ φ) :
    ∃ checks after, checks.map EntryCheck.name = names ∧
      ChecksInTurn host context.verifier context.book withCreation world checks after ∧
      context.failing host withCreation names world = (EntryCheck.failures checks, after) := by
  induction names generalizing world with
  | nil => exact ⟨[], world, rfl, .done world, rfl⟩
  | cons name names ih =>
    cases hcheck : context.verifier.check host name (context.book.get name) withCreation
        (world.telling [.checking name]) with
    | mk outcome checked =>
      have hverify := context.verifier.verify_apply host name _ withCreation hcheck
      obtain ⟨checks, after, hnames, hinTurn, hfailing⟩ := ih (checked.telling
        (EntryCheck.mismatchNotices ⟨name, outcome⟩ (context.book.get name)))
      refine ⟨⟨name, outcome⟩ :: checks, after, congrArg (name :: ·) hnames,
        .next hcheck hinTurn, ?_⟩
      rw [EntryCheck.failures_cons]
      simp only [failing, bind, StateT.bind, hverify, hfailing]
      rfl

end Turns

/-! ## The whole audit -/

/-- The contracts that are to be checked: the one that is named, or all that are recorded. -/
def Book.audited (book : Book) (contract : Option String) : List String :=
  match contract with
  | some name => [name]
  | none => book.list

/-- What checking entries of a book comes to. -/
structure Audit (host : Host γ φ) (verifier : Verifier φ) (book : Book) (names : List String)
    (withCreation : Bool) (world : World γ φ) (checks : List EntryCheck)
    (result : Except CommandError Unit × World γ φ) : Prop where
  /-- Every name is checked, in order. -/
  complete : checks.map EntryCheck.name = names
  /-- No check depends on what an earlier one came to, and after the last nothing is done but that
  the success is told. -/
  inTurn : ∃ checked, ChecksInTurn host verifier book withCreation world checks checked ∧
    result.2 = checked.telling
      (if EntryCheck.failures checks = [] then [.verified names.length] else [])
  passes : result.1 = .ok () ↔ ∀ check ∈ checks, check.outcome = .ok ()
  /-- The error gives the names that did not pass, in order, and says how many they are and how
  many were checked. -/
  fails : ∀ error, result.1 = .error error →
    error = .unverified (EntryCheck.failures checks) names.length ∧
    error.message = toString (EntryCheck.failures checks).length ++ " of " ++
      toString names.length ++ " contracts failed verification: " ++
        ", ".intercalate (EntryCheck.failures checks)

theorem Context.verify_eq (host : Host γ φ) (context : Context φ) (contract : Option String)
    (withCreation : Bool) :
    context.verify host contract withCreation = (do
      Context.liftRun context.sender.requireConnection
      let failed ← context.failing host withCreation (context.book.audited contract)
      if failed.isEmpty then
        Context.liftRun (Run.tell (.verified (context.book.audited contract).length))
      else throw (.unverified failed (context.book.audited contract).length)) := by
  cases contract <;> rfl

/-- What a connected account makes of the names that did not pass. -/
theorem Context.verify_of_failing {host : Host γ φ} {context : Context φ} {contract : Option String}
    {withCreation : Bool} {world checked : World γ φ} {failed : List String}
    (hconnected : context.sender.requireConnection = .ok ())
    (h : context.failing host withCreation (context.book.audited contract) world =
      (failed, checked)) :
    context.verify host contract withCreation world =
      (if failed = [] then .ok ()
        else .error (.unverified failed (context.book.audited contract).length),
        checked.telling (if failed = [] then
          [.verified (context.book.audited contract).length] else [])) := by
  have hconnection : Context.liftRun (liftM context.sender.requireConnection : Run γ φ Unit) world =
      (.ok (), world) := Command.liftRun_of_ok (by rw [Run.ofExcept_apply, hconnected])
  rw [context.verify_eq, Command.bind_of_ok hconnection, Command.bind_of_ok (Command.ofAct_of_eq h)]
  cases failed with
  | nil => rfl
  | cons name names =>
    simp only [List.isEmpty_cons, Bool.false_eq_true, if_false, reduceCtorEq, World.telling_nil]
    rfl

theorem Context.verify_audit (host : Host γ φ) (context : Context φ)
    (hconnected : context.sender.requireConnection = .ok ()) (contract : Option String)
    (withCreation : Bool) (world : World γ φ) :
    ∃ checks, Audit host context.verifier context.book (context.book.audited contract)
      withCreation world checks (context.verify host contract withCreation world) := by
  obtain ⟨checks, checked, hnames, hinTurn, hfailing⟩ :=
    context.failing_inTurn host withCreation (context.book.audited contract) world
  rw [Context.verify_of_failing hconnected hfailing]
  refine ⟨checks, hnames, ⟨checked, hinTurn, rfl⟩, ?_, fun error herror => ?_⟩
  · rw [← EntryCheck.failures_eq_nil_iff]
    dsimp only
    split
    · next hnone => exact ⟨fun _ => hnone, fun _ => rfl⟩
    · next hsome => exact ⟨nofun, fun hnone => absurd hnone hsome⟩
  · dsimp only at herror
    split at herror
    · cases herror
    · cases herror
      exact ⟨rfl, rfl⟩

/-- What a book lists and gives is what is recorded. -/
structure Book.Shows (book : Book) (recorded : String → Option Record) : Prop where
  /-- Names are listed in the order of their bytes, each once. -/
  inOrder : book.list.Pairwise fun a b => Bytes.ofString a < Bytes.ofString b
  listed : ∀ name, name ∈ book.list ↔ (recorded name).isSome
  given : ∀ name, book.get name = (recorded name).getD Record.missing

/-- A book shows what its document has for its network. -/
theorem Book.shows (book : Book) : book.Shows (book.document.find? book.network) := by
  refine ⟨pairwise_list book, fun name => ?_, fun name => ?_⟩
  · rw [← entries_get?]
    exact mem_names _ name
  · rw [Book.get, entries_get?]

theorem bookOf_shows (locations : Locations) (id : Nat) (document : BookDocument) :
    (locations.bookOf id document).Shows (document.find? (toString id)) := by
  have hfind : (document.withNetwork (toString id)).find? (toString id) =
      document.find? (toString id) :=
    funext (find?_withNetwork document (toString id) (toString id))
  rw [← hfind]
  exact (locations.bookOf id document).shows

/-- Where nothing is recorded, nothing is listed. -/
theorem Book.Shows.list_eq_nil {book : Book} {recorded : String → Option Record}
    (h : book.Shows recorded) (hnone : ∀ name, recorded name = none) : book.list = [] := by
  refine List.eq_nil_iff_forall_not_mem.2 fun name hname => ?_
  have hsome := (h.listed name).1 hname
  rw [hnone] at hsome
  cases hsome

/-- The command that verifies is exhaustive. It fails if it cannot open the book of its network.
Otherwise it checks the contract that is named, or every recorded contract of the network in the
order of names, each once and without stopping at a failure; it succeeds exactly if every check
passes, and otherwise its error has exactly the names that did not pass. It writes nothing and hands
nothing to the node. -/
theorem verify_is_exhaustive (host : Host γ φ) (contract : Option String) (withCreation : Bool)
    (sender : Sender) (locations : Locations) (world : World γ φ) :
    let result := (Command.verify contract withCreation).run host sender locations world
    world.Undisturbed result.2 ∧
    (∀ error opened, Context.make host sender locations world = (.error error, opened) →
      result = (.error (.failed error), opened)) ∧
    ∀ context opened, Context.make host sender locations world = (.ok context, opened) →
      ∃ id document checks, locations.Finds host world id document ∧
        context.book.Shows (document.find? (toString id)) ∧
        Audit host ⟨locations.source host.disk, Upgrade.defaultProxyName⟩ context.book
          (context.book.audited contract) withCreation opened checks result ∧
        result.2.notices = opened.notices ++ checks.flatMap (EntryCheck.notices context.book) ++
          (if EntryCheck.failures checks = [] then [.verified checks.length] else []) ∧
        (∀ check ∈ checks, document.find? (toString id) check.name = none →
          check.outcome = .error .addressMissing) ∧
        (contract = none → (∀ name, document.find? (toString id) name = none) →
          result.1 = .ok ()) := by
  refine ⟨?_, fun error opened hmake => Command.run_of_unmade _ hmake,
    fun context opened hmake => ?_⟩
  · rw [Command.run_eq]
    exact Command.within_bind cumulative_undisturbed
      (Command.within_liftRun (Context.make_undisturbed host sender locations))
      (fun context => context.verify_undisturbed host contract withCreation) world
  · have hconnected := Context.make_connected hmake
    obtain ⟨id, document, hfinds, rfl, -, -⟩ := Context.make_finds hmake
    have hshows := bookOf_shows locations id document
    rw [Command.run_eq, Command.bind_of_ok (Command.liftRun_of_ok hmake)]
    obtain ⟨checks, haudit⟩ := Context.verify_audit host
      (Context.of host sender locations (locations.bookOf id document)) hconnected contract
      withCreation opened
    obtain ⟨checked, hinTurn, hafter⟩ := haudit.inTurn
    refine ⟨id, document, checks, hfinds, hshows, haudit, ?_, ?_, ?_⟩
    · have hlength := congrArg List.length haudit.complete
      rw [List.length_map] at hlength
      rw [Command.steps, hafter, World.telling, hinTurn.notices, hlength]
    · intro check hcheck hnone
      refine hinTurn.of_unrecorded check hcheck ((hshows.given check.name).trans ?_)
      rw [hnone]
      rfl
    · rintro rfl hnone
      have hempty := hshows.list_eq_nil hnone
      have hchecks : checks = [] := List.map_eq_nil_iff.1 (haudit.complete.trans hempty)
      refine haudit.passes.2 ?_
      rw [hchecks]
      nofun

/-- A network without entries verifies, and a name without an entry does not. -/
example :
    ((Command.verify none true).run rehearsalHost ⟨FixedBytes.ofNat 1, true⟩ treeLocations
      treeWorld).1 = .ok () ∧
    ((Command.verify (some "Token") true).run rehearsalHost ⟨FixedBytes.ofNat 1, true⟩
      treeLocations treeWorld).1 = .error (.unverified ["Token"] 1) :=
  ⟨rfl, rfl⟩

end ContractDeploy
