import SysProg.Acl.ParseACLLaws
import SysProg.Acl.UpdateACLLaws
import SysProg.Algorithms.KmpLaws
import SysProg.Algorithms.TopKLaws
import SysProg.Altio.EpollInputLaws
import SysProg.Altio.SelectMqLaws
import SysProg.Altio.SelfPipeLaws
import SysProg.Cgroups.AllocMemLaws
import SysProg.Cgroups.DisplayTreeLaws
import SysProg.Cgroups.WrapTextLaws
import SysProg.Compilers.PredictiveLaws
import SysProg.Filelock.CreatePidFileLaws
import SysProg.Files.ChiflagLaws
import SysProg.GoPatterns.FeedsLaws
import SysProg.GoPatterns.PoolLaws
import SysProg.GoPatterns.RunnerLaws
import SysProg.GoPatterns.SearchLaws
import SysProg.GoPatterns.SemaphoreReuse
import SysProg.GoPatterns.WorkLaws
import SysProg.Inotify.AccountingLaws
import SysProg.Inotify.CacheLaws
import SysProg.Inotify.CallLogLaws
import SysProg.Inotify.CallsLaws
import SysProg.Inotify.ChecksLaws
import SysProg.Inotify.EventLoopLaws
import SysProg.Inotify.FollowingLaws
import SysProg.Inotify.HandlesLaws
import SysProg.Inotify.MainLoopLaws
import SysProg.Inotify.RewritePathsLaws
import SysProg.Inotify.RootPathsLaws
import SysProg.Namespaces.ForestLaws
import SysProg.Namespaces.NsCapableLaws
import SysProg.Namespaces.SimpleInitLaws
import SysProg.Namespaces.UsernsChildExecLaws
import SysProg.Namespaces.UsernsOptionsLaws
import SysProg.Namespaces.ViewersLaws
import SysProg.Namespaces.WrapTextLaws
import SysProg.Networks.TcpSenderLaws
import SysProg.Pipes.ChangeCaseLaws
import SysProg.Pmsg.MqNotifyLaws
import SysProg.Proc.SetenvLaws
import SysProg.Procexec.ExeclpLaws
import SysProg.Procexec.MultiSigchldLaws
import SysProg.Procexec.SystemLaws
import SysProg.Seccomp.UnotifyMkdirBufferLaws
import SysProg.Seccomp.UnotifyOpenatLaws
import SysProg.Seqnum.ServersLaws
import SysProg.Sockets.EchoLaws
import SysProg.Sockets.RdwrnLaws
import SysProg.Sockets.ReadLineBufLaws
import SysProg.Sockets.SendfileLaws
import SysProg.Sockets.SetUpLaws
import SysProg.Sockets.UsXfrLaws
import SysProg.Svmsg.FileServerLaws
import SysProg.Svsem.GoodInitLaws
import SysProg.Svsem.ParseOpsLaws
import SysProg.Svshm.TransferLaws
import SysProg.Threads.BarrierDemo
import SysProg.Threads.BarrierDemoLaws
import SysProg.Threads.OneTimeInitLaws
import SysProg.Threads.ProdCondvarLaws
import SysProg.Threads.ThreadIncrLaws
import SysProg.Threads.ThreadMultijoinLaws
import SysProg.Timers.ItimerspecFromStrLaws
import SysProg.UsersGroups.UgidFunctionsLaws
