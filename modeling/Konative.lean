import Konative.Lib.Lts
import Konative.Lib.FileSystem
import Konative.Lib.Codec
import Konative.Lib.Exchange
import Konative.Lib.Double
import Konative.Lib.WholeDouble
import Konative.Lib.FlatJson
import Konative.Lib.Program
import Konative.Lib.Machine
import Konative.Lib.Glide
import Konative.Lib.Layout
import Konative.Lib.DirTree
import Konative.Lib.Checklist
import Konative.Lib.Assoc
import Konative.Ecs.SnapshotFile
import Konative.Ecs.SnapshotWrite
import Konative.Ecs.SnapshotFaults
import Konative.Ecs.SnapshotSweep
import Konative.Ecs.StateFile
import Konative.Entt.Entity
import Konative.Entt.EntityStorage
import Konative.Entt.Registry
import Konative.Entt.View
import Konative.Ecs.SnapshotArchive
import Konative.App.Components
import Konative.App.Systems
import Konative.Ecs.SnapshotRead
import Konative.Ecs.SnapshotUntrusted
import Konative.Ecs.SnapshotHarmless
import Konative.Ecs.SnapshotTruncated
import Konative.App.FollowerMotion
import Konative.App.KonativeAndroidApp
import Konative.App.SnapshotWriter
import Konative.App.SnapshotEvents
import Konative.App.OnStarted
import Konative.App.Session
import Konative.App.Durability
import Konative.App.FollowerInput
import Konative.Koreload.HotReload
import Konative.Koreload.Drive
import Konative.Koreload.ModuleState
import Konative.Koreload.WaypointIndex
import Konative.Scheduling.CrossThreadEventQueue
import Konative.Scheduling.SpscEventQueue
import Konative.Reflect.MetaJson
import Konative.Reflect.MetaRegistry
import Konative.Reflect.FieldRegistration
import Konative.Reflect.MetaToJson
import Konative.App.Config.JsonConfigFile
import Konative.App.Config.ConfigCalls
import Konative.App.Config.PollReload
import Konative.App.Config.ProvisionFaults
import Konative.App.Config.EditRaces
import Konative.Android.EntryPoint
import Konative.Android.ComposeOwner
import Konative.Android.FrameTicker
import Konative.Android.NativeStream
import Konative.Android.MultiResume
import Konative.Jni.Env
import Konative.Jni.Call
import Konative.Jni.DexLoader
import Konative.Jni.LoadSteps
import Konative.Jni.LoadResult
import Konative.Android.OnLoad
import Konative.App.TickCadence
import Konative.Lib.Rotation
import Konative.Spatial.Transform
import Konative.Lib.Custody
import Konative.Jni.RefWrapper
import Konative.Build.ClasspathExport
import Konative.Lib.FileTree
import Konative.Build.ResourceLink
import Konative.Android.ResourcesLoader
import Konative.Events.NextEventAwaiter
import Konative.Events.AwaiterSink
import Konative.Android.NativeBindings
import Konative.Android.NativeApp
import Konative.Android.Scene
import Konative.Lib.Footprint
import Konative.App.SystemSequence
import Konative.Lib.JumpFlow
import Konative.Android.FrameMotion
import Konative.Android.Relaunch
import Konative.Lib.Cadence
import Konative.App.RecoveryPoint
import Konative.App.LiveConfig
import Konative.Lib.Assembly
import Konative.Build.EmbedBlob
import Konative.Lib.ArgFile
import Konative.Build.CompileKotlinDex
