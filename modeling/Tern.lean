import Tern.Base.FirstSeen
import Tern.Base.History
import Tern.Base.Hysteresis
import Tern.Base.Nesting
import Tern.Base.RecursiveQuery
import Tern.Base.System
import Tern.Base.Text
import Tern.Base.Unfolding
import Tern.Base.Wildcard
import Tern.Base.Like
import Tern.Base.Placeholder
import Tern.Ssh.KnownHosts
import Tern.Ssh.Crates
import Tern.Ssh.Verdict
import Tern.Ssh.FileEntries
import Tern.Ssh.Import
import Tern.Ssh.Provenance
import Tern.Ssh.Hashing
import Tern.Ssh.Numbering
import Tern.Ssh.Learning
import Tern.Ssh.Removal
import Tern.Ssh.Ledger
import Tern.Ssh.Interleaving
import Tern.TermStream.Coalescer
import Tern.TermStream.Framing
import Tern.Webview.TermSession
import Tern.Webview.Watermarks
import Tern.Webview.Backpressure
import Tern.Webview.Clipboard
import Tern.Webview.Controller
import Tern.Webview.Bookkeeping
import Tern.Webview.ClosedTabs
import Tern.Webview.Reclaim
import Tern.Webview.Finished
import Tern.Webview.Tabs
import Tern.Webview.Progress
import Tern.Webview.Pool
import Tern.Webview.Sidebar
import Tern.Session.Model
import Tern.Session.Steps
import Tern.Session.Lifecycle
import Tern.Session.AttemptCap
import Tern.Session.Size
import Tern.Session.Delivery
import Tern.Session.FlowControl
import Tern.SshConfig.Platform
import Tern.SshConfig.Lex
import Tern.SshConfig.Quoting
import Tern.SshConfig.Parse
import Tern.SshConfig.Inclusion
import Tern.SshConfig.Settings
import Tern.SshConfig.Expand
import Tern.SshConfig.Resolve
import Tern.SshConfig.Calls
import Tern.SshConfig.Redaction
import Tern.SshConfig.Isolation
import Tern.SshConfig.Globbing
import Tern.Store.Model
import Tern.Store.Hosts
import Tern.Store.Apply
import Tern.Store.AllOrNothing
import Tern.Store.Rewriting
import Tern.Store.Folders
import Tern.Store.Forest
import Tern.Store.Calls
import Tern.Store.FolderDeletion
import Tern.Store.Reimport
import Tern.Store.Migrate
import Tern.Store.Layout
import Tern.Store.RoundTrip
import Tern.Store.Tags
import Tern.Store.Query
import Tern.Store.Search
import Tern.SshConfig.Scan
import Tern.SshConfig.Preview
import Tern.SshConfig.Commit
import Tern.SshConfig.Inexpressible
import Tern.SshConfig.Walk
import Tern.SshConfig.Audit
import Tern.Desktop.HostKeyPrompt
import Tern.Desktop.Auth
import Tern.Desktop.Reconnect
import Tern.Desktop.Backoff
import Tern.Ssh.Authenticate
import Tern.Ssh.AuthChain
import Tern.Ssh.ConnectTimeout
import Tern.Desktop.StoreCommands
import Tern.Desktop.Ownership
import Tern.Desktop.Roles
import Tern.Desktop.Atomicity
import Tern.Desktop.Stranded
import Tern.Desktop.Phases
import Tern.Desktop.Settling
import Tern.Desktop.Deferral
import Tern.Desktop.Serial
import Tern.Desktop.Serializable
import Tern.Ssh.Opaque
import Tern.Desktop.Secrecy
import Tern.Desktop.Trust
import Tern.Desktop.Steady
import Tern.Desktop.Counting
import Tern.Desktop.SessionCfg
import Tern.Desktop.SavedSession
import Tern.Session.Backlog
import Tern.TermStream.Cadence
import Tern.Ssh.Recovery
import Tern.Session.LocalPty
import Tern.Session.LocalDelivery
import Tern.Ssh.Keys
import Tern.Webview.HostForm
import Tern.Webview.ImportDialog
