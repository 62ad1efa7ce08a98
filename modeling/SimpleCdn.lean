import SimpleCdn.Lib.Transition
import SimpleCdn.Lib.Table
import SimpleCdn.Lib.Checked
import SimpleCdn.Lib.Url
import SimpleCdn.Lib.Text
import SimpleCdn.Domain.Validate
import SimpleCdn.Domain.Types
import SimpleCdn.Nginx.Document
import SimpleCdn.Nginx.Render
import SimpleCdn.Store.Schema
import SimpleCdn.Store.Sites
import SimpleCdn.Store.Tasks
import SimpleCdn.Store.Publication
import SimpleCdn.Store.SiteDeletion
import SimpleCdn.Control.Publisher
import SimpleCdn.SiteCalls.System
import SimpleCdn.SiteCalls.Rows
import SimpleCdn.SiteCalls.Generations
import SimpleCdn.SiteCalls.DeletionMark
import SimpleCdn.SiteCalls.Snapshots
import SimpleCdn.Store.Nodes
import SimpleCdn.Store.NodeUninstall
import SimpleCdn.Rotation.System
import SimpleCdn.Rotation.Ownership
import SimpleCdn.Rotation.Safety
import SimpleCdn.Nginx.Serving
import SimpleCdn.Control.Rendering
import SimpleCdn.Control.EntryPoints
import SimpleCdn.Store.Confirmation
import SimpleCdn.Store.NodeEffects
import SimpleCdn.Control.SiteDeletion
import SimpleCdn.Control.Certificates
import SimpleCdn.Deployment.System
import SimpleCdn.Deployment.Effects
import SimpleCdn.Deployment.Consistency
import SimpleCdn.Deployment.Outcomes
import SimpleCdn.Deployment.Steps
import SimpleCdn.Deployment.Answers
import SimpleCdn.Deployment.Coverage
import SimpleCdn.Deployment.Withdrawal
import SimpleCdn.Store.Settling
import SimpleCdn.Deployment.Targets
import SimpleCdn.Deployment.Removal
import SimpleCdn.Deployment.Success
import SimpleCdn.Deployment.Renewal
import SimpleCdn.Deployment.Promotion
import SimpleCdn.Lib.Crash
import SimpleCdn.Lib.FileTree
import SimpleCdn.Restore.ClickHouse
import SimpleCdn.Restore.Paths
import SimpleCdn.Restore.TLS
import SimpleCdn.Restore.Apply
import SimpleCdn.Restore.Archive
import SimpleCdn.Edge.Security
import SimpleCdn.Edge.Firewall
import SimpleCdn.Edge.LocalBans
import SimpleCdn.SiteCalls.Domains
import SimpleCdn.Reconciling.System
import SimpleCdn.Reconciling.Outcome
import SimpleCdn.Deployment.Versions
import SimpleCdn.Store.Monitoring
import SimpleCdn.Store.Upgrades
import SimpleCdn.Lifecycle.Card
import SimpleCdn.Lifecycle.System
import SimpleCdn.Lifecycle.Refinement
import SimpleCdn.Lifecycle.Steps
import SimpleCdn.Lifecycle.Identity
import SimpleCdn.Lifecycle.Pausing
import SimpleCdn.Lifecycle.InFlight
import SimpleCdn.Control.Uninstall
import SimpleCdn.Retirement.System
import SimpleCdn.Retirement.Assignments
import SimpleCdn.Retirement.Workflows
import SimpleCdn.Retirement.Unassigned
import SimpleCdn.Upgrading.System
import SimpleCdn.Upgrading.Tasks
import SimpleCdn.Upgrading.Progress
import SimpleCdn.Control.Dns
import SimpleCdn.Draining.System
import SimpleCdn.Draining.Zones
import SimpleCdn.Draining.Records
import SimpleCdn.Draining.Drained
import SimpleCdn.Store.SecurityEvents
import SimpleCdn.Uploading.Encoding
import SimpleCdn.Uploading.System
import SimpleCdn.Uploading.Progress
import SimpleCdn.Health.Probes
import SimpleCdn.Integrations.Cloudflare
import SimpleCdn.Integrations.Records
import SimpleCdn.Integrations.Loops
import SimpleCdn.Integrations.Converging
import SimpleCdn.Integrations.Exactness
import SimpleCdn.Integrations.Refusing
import SimpleCdn.Domain.SiteLists
import SimpleCdn.Health.SiteDNS
import SimpleCdn.Health.Failover
import SimpleCdn.Upgrading.Earning
import SimpleCdn.Upgrading.Evidence
import SimpleCdn.Exclusion.System
import SimpleCdn.Exclusion.Bookkeeping
import SimpleCdn.Exclusion.Safety
import SimpleCdn.Domain.Settings
import SimpleCdn.Store.Settings
import SimpleCdn.Control.Settings
import SimpleCdn.Settings.Restart
import SimpleCdn.Store.Notifications
import SimpleCdn.Control.Notifying
import SimpleCdn.Alerting.Outages
import SimpleCdn.Alerting.Announced
import SimpleCdn.Alerting.Pauses
import SimpleCdn.Alerting.Justified
import SimpleCdn.Lib.Greatest
import SimpleCdn.Edge.BanMerging
import SimpleCdn.Probing.Counting
import SimpleCdn.Probing.System
import SimpleCdn.Lib.Positional
import SimpleCdn.Lib.Calendar
import SimpleCdn.Store.Stamps
import SimpleCdn.Nginx.Ports
import SimpleCdn.Lib.Lines
import SimpleCdn.Lib.Attempt
import SimpleCdn.Edge.AccessLog
import SimpleCdn.Edge.LogForwarder
import SimpleCdn.Edge.LogQueue
import SimpleCdn.Forwarding.Moves
import SimpleCdn.Forwarding.Refinement
import SimpleCdn.Forwarding.System
import SimpleCdn.Forwarding.Cursor
import SimpleCdn.Forwarding.Delivery
import SimpleCdn.Forwarding.Batches
import SimpleCdn.Forwarding.Collecting
import SimpleCdn.Forwarding.Truncation
import SimpleCdn.Edge.SecurityLog
import SimpleCdn.SecurityLog.Reading
import SimpleCdn.SecurityLog.Once
import SimpleCdn.SecurityLog.Progress
import SimpleCdn.Forwarding.Past
import SimpleCdn.Control.Login
import SimpleCdn.Lib.Net
import SimpleCdn.Store.TargetNames
import SimpleCdn.Edge.Monitoring
import SimpleCdn.Lib.Utf8
import SimpleCdn.Domain.Origins
import SimpleCdn.Domain.SiteValidation
import SimpleCdn.Nginx.Upstreams
import SimpleCdn.Nginx.Quoting
import SimpleCdn.Store.Messages
import SimpleCdn.Dismissal.System
import SimpleCdn.Dismissal.Lasting
import SimpleCdn.Lib.SharedDict
import SimpleCdn.Nginx.RateLimiter
import SimpleCdn.Limiting.System
import SimpleCdn.Limiting.Rates
import SimpleCdn.Limiting.Bans
import SimpleCdn.Lib.Regexp.Scan
import SimpleCdn.Lib.Regexp.Pieces
import SimpleCdn.Lib.Regexp.Syntax
import SimpleCdn.Lib.Regexp.Matching
import SimpleCdn.Lib.Regexp.Tree
import SimpleCdn.Domain.SecurityPatterns
import SimpleCdn.Domain.PatternMeaning
import SimpleCdn.Lib.Regexp.Ways
import SimpleCdn.Lib.Regexp.Weight
import SimpleCdn.Lib.Regexp.Solid
import SimpleCdn.Domain.PatternBacktracking
import SimpleCdn.Agent.Files
import SimpleCdn.Agent.CacheLayout
import SimpleCdn.Agent.Apply
import SimpleCdn.Agent.Undoing
