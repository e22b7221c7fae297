import Palworld.Auth.CurrentUser
import Palworld.Auth.Tokens
import Palworld.Config.Harmless
import Palworld.Engine.Cancel
import Palworld.Engine.Restart
import Palworld.Metrics.ReadYourWrites
import Palworld.Settings.Save
import Palworld.Sockets.Delivery
import Palworld.Supervisor.Commands
import Palworld.Supervisor.Peer
import Palworld.Database.Tables
import Palworld.Database.Users
import Palworld.Database.AllOrNothing
import Palworld.Database.Permissions
import Palworld.Lib.Paging
import Palworld.Database.Feedback
import Palworld.Accounts.Administrator
import Palworld.Accounts.Bootstrap
import Palworld.Accounts.Login
import Palworld.Accounts.Sessions
import Palworld.Telemetry.Observer
import Palworld.Engine.Abort
import Palworld.Update.Watcher
import Palworld.Update.Dispatch
import Palworld.Update.OneAtATime
import Palworld.Update.Progress
import Palworld.Config.Entries
import Palworld.Config.RoundTrip
import Palworld.Lib.SixPlaces
import Palworld.Config.Spill
import Palworld.Config.Standing
import Palworld.Config.Protected
import Palworld.Config.PartialSave
import Palworld.Settings.Schema
import Palworld.Settings.Shown
import Palworld.Lib.AtomicFile
import Palworld.Tls.Stage
import Palworld.Tls.Certificate
import Palworld.Tls.Provision
import Palworld.Tls.Scheduler
import Palworld.Tls.LiveSettings
import Palworld.Tls.Served
import Palworld.Tls.Acme
import Palworld.Lib.StreamReader
import Palworld.Lib.Traced
import Palworld.Lib.Rewrite
import Palworld.Supervisor.Framing
import Palworld.Supervisor.Client
import Palworld.Logs.Redaction
import Palworld.Logs.Scraper
import Palworld.Lib.Lines
import Palworld.Lib.Json
import Palworld.Update.DeployRun
import Palworld.Update.RunProgress
import Palworld.Lib.Percent
import Palworld.Lib.FormatRewrite
import Palworld.Logs.Records
import Palworld.Lib.FileTree
import Palworld.Deploy.Archive
import Palworld.Deploy.Release
import Palworld.Lib.JsonText
import Palworld.Lib.JsonRoundTrip
import Palworld.Lib.PyRepr
import Palworld.Update.PostUpdate
import Palworld.Update.DeployRecord
import Palworld.Update.Checks
import Palworld.Lib.Directory
import Palworld.Deploy.Staging
import Palworld.Deploy.Swap
import Palworld.Lib.Program
import Palworld.Lib.Locked
import Palworld.Atomic.Files
import Palworld.Atomic.Write
import Palworld.Atomic.Whole
import Palworld.Atomic.Genuine
import Palworld.Lib.Ranks
import Palworld.Atomic.Newest
import Palworld.Lib.Utf8
import Palworld.Tracker.A2s
import Palworld.Tracker.Ledger
import Palworld.Tracker.History
import Palworld.Changelog.Lossless
import Palworld.Changelog.Document
import Palworld.Lib.Stamped
import Palworld.Changelog.Cache
import Palworld.Metrics.Buckets
import Palworld.Metrics.Retention
import Palworld.Metrics.Recent
import Palworld.Logs.Masked
import Palworld.Engine.Countdown
import Palworld.Engine.Spoken
import Palworld.Engine.UpdateFlags
import Palworld.Network.Throughput
import Palworld.Logs.Session
import Palworld.Lib.WorkQueue
import Palworld.Logs.Mirror
import Palworld.Logs.Drain
import Palworld.Update.Branch
import Palworld.Lib.IpAddress
import Palworld.Network.Probe
import Palworld.Secrets.Scan
import Palworld.Lib.PercentEncoding
import Palworld.Feedback.IssueUrl
import Palworld.Lib.Keeper
import Palworld.Tracker.Restarts
import Palworld.Logs.SessionCache
import Palworld.Tracker.Sweep
import Palworld.Metrics.Shutdown
import Palworld.Lib.Fields
import Palworld.Network.Gateway
import Palworld.Engine.Orphan
