import Denia.Artifacts.Concurrent
import Denia.Artifacts.Reuse
import Denia.Autoscale.Boot
import Denia.Autoscale.RolloutProgress
import Denia.Autoscale.SingleFlight
import Denia.Autoscale.Usage
import Denia.Deploy.DomainVerification
import Denia.Deploy.FailedRedeploy
import Denia.Deploy.LiveRoutes
import Denia.Deploy.Ownership
import Denia.Deploy.RouteRebuild
import Denia.Ingress.RateLimit
import Denia.Ingress.Redirect
import Denia.Ingress.RoundRobin
import Denia.Jobs.OneActive
import Denia.Jobs.Ticks
import Denia.Observability.DeploymentLog
import Denia.Observability.LogTailer
import Denia.Oci.Reserved
import Denia.Registry.CrashSweep
import Denia.Registry.GcConcurrent
import Denia.Registry.SizeCap
import Denia.Runtime.Start
import Denia.Syscall.Chown
import Denia.Syscall.Seccomp
import Denia.Tenancy.LastAdmin
import Denia.Tenancy.PutService
import Denia.Tenancy.References
import Denia.Uploads.Extract
import Denia.Uploads.OwnContext
