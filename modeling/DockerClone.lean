import DockerClone.CLib.CString
import DockerClone.CLib.Search
import DockerClone.CLib.Fields
import DockerClone.CLib.Strtok
import DockerClone.CLib.Printf
import DockerClone.CLib.Scanf
import DockerClone.CLib.Stream
import DockerClone.Metadata.Line
import DockerClone.Metadata.File
import DockerClone.Os.FileSystem
import DockerClone.Os.Listing
import DockerClone.Os.DirStream
import DockerClone.Os.Shell
import DockerClone.Os.ShellGrammar
import DockerClone.Os.Run
import DockerClone.Os.Process
import DockerClone.Os.Effect
import DockerClone.Os.Utilities
import DockerClone.Os.Threads
import DockerClone.Container.RecordTheorems
import DockerClone.Container.RemoveTheorems
import DockerClone.Container.ListTheorems
import DockerClone.Container.AloneTheorems
import DockerClone.Container.StartRaceTheorems
import DockerClone.Container.WaitRaceTheorems
import DockerClone.Container.PathRaceTheorems
import DockerClone.Container.ListRaceTheorems
import DockerClone.Container.PreserveTheorems
import DockerClone.Container.IdTheorems
import DockerClone.Image.ListTheorems
import DockerClone.Image.RemoveTheorems
import DockerClone.Image.SuccessTheorems
import DockerClone.Image.TagTheorems
import DockerClone.Build.ParseTheorems
import DockerClone.Build.ArrayTheorems
import DockerClone.Build.CommandTheorems
import DockerClone.Build.SummaryTheorems
import DockerClone.Build.HistoryTheorems
import DockerClone.Build.SuccessTheorems
import DockerClone.Build.CutTheorems
import DockerClone.Build.CopyTheorems
import DockerClone.Build.TrimTheorems
import DockerClone.Http.WireTheorems
import DockerClone.Http.HandlerTheorems
import DockerClone.Http.ResponseTheorems
import DockerClone.Http.StatusTheorems
import DockerClone.Http.FragmentTheorems
import DockerClone.Http.RouteTheorems
import DockerClone.Http.Recorder
import DockerClone.Http.QuoteTheorems
import DockerClone.Cli.OperandTheorems
import DockerClone.Cli.TrailingTheorems
import DockerClone.Client.ApiTheorems
import DockerClone.Client.PrintTheorems
import DockerClone.Client.BuildTheorems
import DockerClone.Client.LengthTheorems
import DockerClone.Client.ImagePrintTheorems
import DockerClone.Client.EnvTheorems
import DockerClone.Daemon.InitTheorems
import DockerClone.Daemon.AtomicTheorems
import DockerClone.Daemon.FreshTheorems
import DockerClone.Container.RegistryTheorems
import DockerClone.Container.ChildTheorems
import DockerClone.Http.SessionTheorems
import DockerClone.Cli.SessionTheorems
