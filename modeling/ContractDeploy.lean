import ContractDeploy.Artifact.Link
import ContractDeploy.Artifact.Source
import ContractDeploy.Book
import ContractDeploy.Chain.Networks
import ContractDeploy.Chain.Rehearsal
import ContractDeploy.Command
import ContractDeploy.CommandLine
import ContractDeploy.Connection
import ContractDeploy.Contract
import ContractDeploy.Deployer
import ContractDeploy.Endpoint
import ContractDeploy.Files.Tree
import ContractDeploy.Integrity
import ContractDeploy.Main
import ContractDeploy.Record.Form
import ContractDeploy.Report
import ContractDeploy.Upgrade
import ContractDeploy.Proofs.HexText
import ContractDeploy.Proofs.JsonContent
import ContractDeploy.Proofs.RecordDocument
import ContractDeploy.Proofs.Footprint
import ContractDeploy.Proofs.FileHistory
import ContractDeploy.Proofs.Recordings
import ContractDeploy.Proofs.UpgradeRecording
import ContractDeploy.Proofs.BookHistory
import ContractDeploy.Proofs.Utf8Order
import ContractDeploy.Proofs.TreeJournals
import ContractDeploy.Proofs.BookSession
import ContractDeploy.Proofs.ChainHistory
import ContractDeploy.Proofs.Deployments
import ContractDeploy.Proofs.Verification
import ContractDeploy.Proofs.Creations
import ContractDeploy.Proofs.DeploymentAttempts
import ContractDeploy.Proofs.UpgradeSteps
import ContractDeploy.Proofs.AcceptanceModes
import ContractDeploy.Proofs.Preflight
import ContractDeploy.Proofs.TwoRuns
import ContractDeploy.Proofs.ChainDependence
import ContractDeploy.Proofs.SavingAgreement
import ContractDeploy.Proofs.JournalTransparency
import ContractDeploy.Proofs.BackedRecords
import ContractDeploy.Proofs.CalldataFailures
import ContractDeploy.Proofs.Commands
import ContractDeploy.Proofs.CommandFrame
import ContractDeploy.Proofs.CommandVerification
import ContractDeploy.Proofs.FailingSinks
import ContractDeploy.Proofs.DailyLog
import ContractDeploy.Proofs.TransactionLog
import ContractDeploy.Proofs.Linking
import ContractDeploy.Proofs.LinkedCode
import ContractDeploy.Proofs.OpenHandles
import ContractDeploy.Proofs.Progress
import ContractDeploy.Proofs.UnresolvedPlaceholders
import ContractDeploy.Proofs.EntryChecks
import ContractDeploy.Proofs.RecordValidation
import ContractDeploy.Proofs.AbiDecoding
import ContractDeploy.Proofs.ArgumentValues
import ContractDeploy.Proofs.CallEncoding
import ContractDeploy.Proofs.AcceptCalls
import ContractDeploy.Proofs.TextlessArguments
import ContractDeploy.Proofs.LogLines
import ContractDeploy.Proofs.AtomicRecording
import ContractDeploy.Proofs.IndependentWrites
import ContractDeploy.Proofs.ArtifactSearch
import ContractDeploy.Proofs.EntryAudit
import ContractDeploy.Proofs.RecordedCalls
import ContractDeploy.Proofs.ArgumentLists
import ContractDeploy.Proofs.RecordedContracts
import ContractDeploy.Proofs.Polling
