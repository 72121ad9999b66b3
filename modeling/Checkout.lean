import Checkout.Main
import Checkout.Proofs.Action
import Checkout.Proofs.Lock.Claims
import Checkout.Proofs.Path.Join
import Checkout.Proofs.Lock.Descent
import Checkout.Proofs.Lock.Ledger
import Checkout.Proofs.Lock.Hierarchy
import Checkout.Proofs.Lock.Accounts
import Checkout.Proofs.Process.Basic
import Checkout.Proofs.Process.Exclusive
import Checkout.Proofs.FileSystem.Nodes
import Checkout.Proofs.FileSystem.Walk
import Checkout.Proofs.FileSystem.LockFile
import Checkout.Proofs.FileSystem.Canonical
import Checkout.Proofs.Preserves
import Checkout.Proofs.Lock.WellFormed
import Checkout.Proofs.WorkingCopy.Children
import Checkout.Proofs.Lock.Rooted
import Checkout.Proofs.Process.Closing
import Checkout.Proofs.FileSystem.Borrowed
import Checkout.Proofs.Lock.Borrowing
import Checkout.Proofs.WorkingCopy.Versioned
import Checkout.Proofs.Lock.Opening
import Checkout.Proofs.FileSystem.Agree
import Checkout.Proofs.FileSystem.Walks
import Checkout.Proofs.FileSystem.GivingWay
import Checkout.Proofs.FileSystem.Lent
import Checkout.Proofs.WorkingCopy.Reach
import Checkout.Proofs.Lock.Lending
import Checkout.Proofs.Race.Basic
import Checkout.Proofs.Race.Holdings
import Checkout.Proofs.Race.Alone
import Checkout.Proofs.Race.Course
import Checkout.Proofs.Race.Outcome
import Checkout.Proofs.Auth.Resolution
import Checkout.Proofs.Auth.Remembered
import Checkout.Proofs.FileSystem.Guarded
import Checkout.Proofs.FileSystem.Probing
import Checkout.Proofs.Lock.Custody
import Checkout.Proofs.Lock.Keeping
import Checkout.Proofs.Lock.Records
import Checkout.Proofs.Process.LockFiles
import Checkout.Proofs.Process.Keeper
import Checkout.Proofs.Process.Scoped
import Checkout.Proofs.Auth.Provenance
import Checkout.Proofs.Auth.Attempts
import Checkout.Proofs.Auth.Trust
import Checkout.Proofs.Auth.Unattended
import Checkout.Proofs.Toml.Text
import Checkout.Proofs.Toml.Value
import Checkout.Proofs.Toml.Document
import Checkout.Proofs.Credential.Names
import Checkout.Proofs.FileSystem.Writing
import Checkout.Proofs.Settings.Acceptable
import Checkout.Proofs.Settings.Document
import Checkout.Proofs.Settings.Saved
import Checkout.Proofs.Settings.Parameters
import Checkout.Proofs.CommandLine.Lines
import Checkout.Proofs.CommandLine.Resolving
import Checkout.Proofs.CommandLine.Secrets
import Checkout.Proofs.Lock.Closing
import Checkout.Proofs.Process.Life
import Checkout.Proofs.Process.Sweeping
import Checkout.Proofs.FileSystem.Joining
import Checkout.Proofs.WorkingCopy.Preorder
import Checkout.Proofs.WorkingCopy.PlainAreas
import Checkout.Proofs.Lock.Obstacles
import Checkout.Proofs.Lock.Trail
import Checkout.Proofs.Lock.InOrder
import Checkout.Proofs.Path.Ancestors
import Checkout.Proofs.FileSystem.Parents
import Checkout.Proofs.FileSystem.Without
import Checkout.Proofs.FileSystem.LessLocked
import Checkout.Proofs.Lock.Probes
import Checkout.Proofs.Lock.Lookups
import Checkout.Proofs.Lock.Requests
import Checkout.Proofs.Lock.Reading
import Checkout.Proofs.Lock.LessLocked
import Checkout.Proofs.Lock.Anchors
import Checkout.Proofs.WorkingCopy.Anchors
import Checkout.Proofs.WorkingCopy.Reachable
import Checkout.Proofs.WorkingCopy.Cleaning
import Checkout.Proofs.Process.Deeds
import Checkout.Proofs.Process.History
import Checkout.Proofs.Settings.Trusted
import Checkout.Proofs.FileSystem.Footing
import Checkout.Proofs.FileSystem.Keys
import Checkout.Proofs.FileSystem.Directories
import Checkout.Proofs.WorkingCopy.Ensuring
import Checkout.Proofs.Json.Text
import Checkout.Proofs.Json.Document
import Checkout.Proofs.Timestamp.Rendered
import Checkout.Proofs.WorkingCopy.Recorded
import Checkout.Proofs.CommandLine.Dialogue
import Checkout.Proofs.CommandLine.Naming
import Checkout.Proofs.CommandLine.Envelopes
