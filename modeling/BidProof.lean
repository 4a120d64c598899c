import BidProof.Lib.Steps
import BidProof.Lib.Table
import BidProof.Lib.Program
import BidProof.Accounts.Owners
import BidProof.Accounts.TokenAuthority
import BidProof.Accounts.Replay
import BidProof.Accounts.SecondFactor
import BidProof.Accounts.Isolation
import BidProof.Job.Fencing
import BidProof.Ocr.Egress
import BidProof.Run.LostUpdate
import BidProof.Challenge.Store
import BidProof.Challenge.OneTime
import BidProof.Accounts.Links
import BidProof.Accounts.FactorKept
import BidProof.Accounts.PasswordChange
import BidProof.Lib.RelyGuarantee
import BidProof.Accounts.FirstSignIn
import BidProof.Accounts.Guesses
import BidProof.Accounts.Directory
import BidProof.Workspace.Calls
import BidProof.Workspace.Service
import BidProof.Workspace.Requests
import BidProof.Workspace.Access
import BidProof.Workspace.ProjectWrites
import BidProof.Workspace.ProjectReads
import BidProof.Accounts.SelfService
import BidProof.Workspace.TokenWrites
import BidProof.Workspace.Enqueue
import BidProof.Run.Deletion
import BidProof.Audit.Chain
import BidProof.Audit.Tamper
import BidProof.Run.Ledger
import BidProof.Storage.Columns
import BidProof.Storage.Reads
import BidProof.Storage.Views
import BidProof.Scan.Extraction
import BidProof.Lib.Paths
import BidProof.Run.Files
import BidProof.Run.Citation
import BidProof.Lib.Faults
import BidProof.Run.CreateRun
import BidProof.Run.AllOrNothing
import BidProof.Lib.Words
import BidProof.Scan.Matching
import BidProof.Scan.Completeness
import BidProof.Scan.Locators
import BidProof.Scan.Normalization
import BidProof.Ocr.Tiles
import BidProof.Storage.Accuracy
import BidProof.Backup.Restore
import BidProof.Backup.Exactness
import BidProof.Backup.Create
import BidProof.Backup.Consistency
import BidProof.Workspace.Purges
import BidProof.Workspace.Staging
import BidProof.Workspace.Hygiene
import BidProof.Lib.Chunks
import BidProof.Lib.Latest
import BidProof.Lib.Numeration
import BidProof.Lib.Seams
import BidProof.Lib.Xml
import BidProof.Ocr.Provenance
import BidProof.Ocr.Redaction
import BidProof.Request.Budget
import BidProof.Run.Comparison
import BidProof.Scan.Docx
import BidProof.Scan.Ooxml
import BidProof.Scan.Runs
import BidProof.Upload.Content
import BidProof.Upload.StoredNames
import BidProof.Accounts.Cleanup
import BidProof.Challenge.Limits
import BidProof.Eval.Teds
import BidProof.Job.Cancel
import BidProof.Lib.Double
import BidProof.Lib.Keyset
import BidProof.Lib.Typeset
import BidProof.Quality.Gates
import BidProof.Report.Figures
import BidProof.Report.Layout
import BidProof.Storage.Pages
import BidProof.Client.Displayed
import BidProof.Client.Store
import BidProof.Client.Transport
import BidProof.Client.WatchJob
import BidProof.Eval.Annotations
import BidProof.Eval.KeyFieldF1
import BidProof.Lib.Checks
import BidProof.Lib.Decimal
import BidProof.Storage.Timestamps
import BidProof.Workflow.State
import BidProof.Accounts.Federation
import BidProof.Accounts.SignInFlows
import BidProof.Client.Paths
import BidProof.Client.Render
import BidProof.Client.SessionChannel
import BidProof.Pilot.Ledger
import BidProof.Report.Csv
import BidProof.Report.Html
import BidProof.Accounts.Authenticator
import BidProof.Client.Toasts
import BidProof.Quality.GroundTruth
import BidProof.Client.ScanDock
import BidProof.Client.ScanRuns
