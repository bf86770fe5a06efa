import K2hFtFuse.EndToEnd
import K2hFtFuse.FdCache.Coherence
import K2hFtFuse.FdCache.Writes
import K2hFtFuse.Fuse.Hooks
import K2hFtFuse.Fuse.Attributes
import K2hFtFuse.Fuse.Ownership
import K2hFtFuse.Fuse.Sizes
import K2hFtFuse.Info.Creation
import K2hFtFuse.Info.Failed
import K2hFtFuse.Info.Filter
import K2hFtFuse.Info.IniFile
import K2hFtFuse.Info.MountPoint
import K2hFtFuse.Info.PluginOutput
import K2hFtFuse.Info.QuotedList
import K2hFtFuse.Info.Reachable
import K2hFtFuse.Info.RuleEvents
import K2hFtFuse.Info.Targets
import K2hFtFuse.Info.Template
import K2hFtFuse.Manage.Backlog
import K2hFtFuse.Manage.CloseAll
import K2hFtFuse.Manage.Initialize
import K2hFtFuse.Manage.Order
import K2hFtFuse.Plugin.ExecParam
import K2hFtFuse.Plugin.Handles
import K2hFtFuse.Plugin.Identity
import K2hFtFuse.Plugin.Pipe
import K2hFtFuse.Plugin.Processes
import K2hFtFuse.Plugin.Reaping
import K2hFtFuse.Structure.Codec
import K2hFtFuse.Structure.Key
import K2hFtFuse.Structure.Memory
import K2hFtFuse.Svr.Agreement
import K2hFtFuse.Svr.Bounds
import K2hFtFuse.Svr.Format
import K2hFtFuse.Svr.Plugins
import K2hFtFuse.Svr.Relays
import K2hFtFuse.Svr.TimeFormat
import K2hFtFuse.Svr.Verbatim
import K2hFtFuse.Util.Files
import K2hFtFuse.WriteBuff.BinaryBlocks
import K2hFtFuse.WriteBuff.Capacity
import K2hFtFuse.WriteBuff.Isolation
import K2hFtFuse.WriteBuff.Rewriting
