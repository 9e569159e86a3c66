import IndustryFlow.Concurrent.Obligation
import IndustryFlow.ColdExport.Legacy
import IndustryFlow.ColdExport.Reading
import IndustryFlow.Companies.Marker
import IndustryFlow.Companies.Irreversible
import IndustryFlow.Alerts.Sequential
import IndustryFlow.Consumption.AtLeastOnce
import IndustryFlow.Measurements.Totality
import IndustryFlow.Sessions.Reuse
import IndustryFlow.Sessions.Rotation
import IndustryFlow.Sessions.AccountChange
import IndustryFlow.Tracking.Artifacts
import IndustryFlow.Tracking.Sources
import IndustryFlow.Capabilities.Revocable
import IndustryFlow.Capabilities.Verifiers
import IndustryFlow.Measurements.Routing
import IndustryFlow.Aggregations.Spelling
import IndustryFlow.Audit.Lossless
import IndustryFlow.Tracking.Commit
import IndustryFlow.Tracking.Binding
import IndustryFlow.Audit.RoundTrip
import IndustryFlow.Alerts.Handling
import IndustryFlow.Features.Agreement
import IndustryFlow.Models.Gate
import IndustryFlow.Models.Bound
import IndustryFlow.Companies.Tombstone
import IndustryFlow.Tracking.Emptied
import IndustryFlow.Models.Loading
import IndustryFlow.Ingestion.Consumers
import IndustryFlow.Backup.ColdMirror
import IndustryFlow.Backup.Retention
import IndustryFlow.Migrations.Ledger
import IndustryFlow.SignIn.Apart
import IndustryFlow.Sessions.WaitOut
import IndustryFlow.Companies.Staleness
import IndustryFlow.SqlProxy.Handshake
import IndustryFlow.Audit.Conserved
import IndustryFlow.Accounts.Scope
import IndustryFlow.Models.Resolution
import IndustryFlow.Tracking.Admitted
import IndustryFlow.Alerts.Thresholds
import IndustryFlow.Alerts.RuleLoads
import IndustryFlow.SqlProxy.Scram
import IndustryFlow.SqlProxy.Cancels
import IndustryFlow.Tracking.Verdicts
import IndustryFlow.Tracking.UploadKeys
import IndustryFlow.Tracking.Responses
import IndustryFlow.Tracking.Routing
import IndustryFlow.Alerts.TenantSpellings
import IndustryFlow.Alerts.Snapshots
import IndustryFlow.Features.Gaps
import IndustryFlow.Features.Refusals
import IndustryFlow.Features.Vector
import IndustryFlow.Drift.Scores
import IndustryFlow.Drift.Predictions
import IndustryFlow.Models.Detectors
import IndustryFlow.Tracking.Addresses
import IndustryFlow.Training.Export
import IndustryFlow.Browser.Refresh
import IndustryFlow.Browser.Sockets
import IndustryFlow.Streaming.SensorNames
import IndustryFlow.OpsAgent.Correlation
import IndustryFlow.Features.KillSwitch
import IndustryFlow.SignIn.ReturnPath
import IndustryFlow.Platform.Switches
import IndustryFlow.Audit.Reading
