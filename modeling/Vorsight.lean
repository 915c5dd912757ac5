import Vorsight.Library.Run
import Vorsight.Library.Task
import Vorsight.Library.Time
import Vorsight.Library.Table
import Vorsight.Library.Js
import Vorsight.Library.Permits
import Vorsight.Library.Rmw
import Vorsight.Library.Calls
import Vorsight.Library.Calendar
import Vorsight.Interop.ProcessHelper
import Vorsight.Interop.ShutdownHelper
import Vorsight.Service.CommandExecutor
import Vorsight.Library.GroupBy
import Vorsight.Library.Counter
import Vorsight.Library.Codec
import Vorsight.Library.CommandLine
import Vorsight.Settings
import Vorsight.Server.Database
import Vorsight.Server.Store
import Vorsight.Server.SocketHandler
import Vorsight.Server.MachineRoutes
import Vorsight.Server.Reports
import Vorsight.Server.Screenshots
import Vorsight.Server.Channels
import Vorsight.Server.Registration
import Vorsight.Server.Reconnection
import Vorsight.Server.Presence
import Vorsight.Server.Confidentiality
import Vorsight.Server.Collection
import Vorsight.Server.OAuth
import Vorsight.Server.Sessions
import Vorsight.Server.Heartbeats
import Vorsight.Service.AuditManager
import Vorsight.Server.AuditDelivery
import Vorsight.Server.ActivityDelivery
import Vorsight.Server.SettingsRoute
import Vorsight.Server.PingMonitor
import Vorsight.Service.UploadQueueProcessor
import Vorsight.Service.ShutdownCoordinator
import Vorsight.Service.GoogleDriveService
import Vorsight.Service.AccessToken
import Vorsight.Ipc.PipeMessage
import Vorsight.Service.ScreenshotHandler
import Vorsight.Service.ScreenshotRequest
import Vorsight.Service.FileSafety
import Vorsight.Service.TempFileManager
import Vorsight.Server.MachineService
import Vorsight.Server.BackgroundWriters
import Vorsight.Server.Lifecycle
import Vorsight.Server.PartialFailure
import Vorsight.Dashboard.FeaturesPage
import Vorsight.Service.ActivityCoordinator
import Vorsight.Service.ActivitySpells
import Vorsight.Ipc.NamedPipeServer
import Vorsight.Ipc.Delivery
import Vorsight.Server.Configuration
import Vorsight.Server.SettingsViews
import Vorsight.Service.ScheduleManager
import Vorsight.Service.ScheduleEnforcement
import Vorsight.Service.Worker
import Vorsight.Service.AuditWatchers
import Vorsight.Server.ProgressCounters
import Vorsight.Service.SessionLock
import Vorsight.Server.Retention
import Vorsight.Ipc.Framing
import Vorsight.Server.SessionRuns
import Vorsight.Ipc.Truncation
import Vorsight.Service.ActivityTiling
import Vorsight.Library.Intervals
import Vorsight.Service.AccessControl
import Vorsight.Service.NextAccess
import Vorsight.Service.ExpiryWarning
import Vorsight.Dashboard.AccessControlConfig
import Vorsight.Library.Sweep
import Vorsight.Library.Hours
import Vorsight.Dashboard.Usage24HourChart
import Vorsight.Library.Binary64
import Vorsight.Library.StableSort
import Vorsight.Server.TopApps
import Vorsight.Service.TokenCache
import Vorsight.Service.DuplicateFilter
import Vorsight.Library.RecentKeys
import Vorsight.Library.Neighbours
import Vorsight.Dashboard.MergeActivities
import Vorsight.Dashboard.ActivityTimeline
import Vorsight.Service.EventDedupe
import Vorsight.Service.UptimeMonitor
import Vorsight.Dashboard.AuditPage
import Vorsight.Dashboard.MachineContext
import Vorsight.Dashboard.SocketService
import Vorsight.Library.RoseTree
import Vorsight.Service.FolderDiscovery
import Vorsight.Library.FindOrCreate
import Vorsight.Service.DriveFolders
import Vorsight.Server.BrowserAuth
import Vorsight.Dashboard.AuthContext
import Vorsight.Dashboard.ActivityMonitor
import Vorsight.Service.HealthMonitor
import Vorsight.Service.TempCleanup
import Vorsight.Library.OffsetPaging
import Vorsight.Dashboard.ActivityScroll
import Vorsight.Dashboard.TimePickerUtils
import Vorsight.Dashboard.TimePicker
