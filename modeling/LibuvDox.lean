import LibuvDox.Lib.ByteOrder
import LibuvDox.Lib.CString
import LibuvDox.Lib.EventLoop
import LibuvDox.Lib.Heap
import LibuvDox.Lib.Ownership
import LibuvDox.Lib.Pump
import LibuvDox.Lib.LexicalPath
import LibuvDox.CgiServer
import LibuvDox.PipeEchoServer
import LibuvDox.SendFile
import LibuvDox.StaticWebServer.ParserFragmentation
import LibuvDox.StaticWebServer.PathConfinement
import LibuvDox.StaticWebServer.Server
import LibuvDox.StaticWebServer.ServerSteps
import LibuvDox.StaticWebServer.RequestFrame
import LibuvDox.StaticWebServer.ConnectionLifecycle
import LibuvDox.StaticWebServer.RequestsInTurn
import LibuvDox.StaticWebServer.BackPointers
import LibuvDox.Lib.Raises
import LibuvDox.StaticWebServer.ServerStops
import LibuvDox.StaticWebServer.LateCallbacks
import LibuvDox.Lib.RwLock
import LibuvDox.Lib.Simulation
import LibuvDox.Lib.Turns
import LibuvDox.Locks
import LibuvDox.Uvcat
import LibuvDox.LockDiscipline
import LibuvDox.Lib.WriteQueue
import LibuvDox.TcpEchoServer
import LibuvDox.TcpEchoTotals
import LibuvDox.Uvtee
import LibuvDox.UvteeRuns
import LibuvDox.MultiEchoServer
import LibuvDox.MultiEchoTurns
import LibuvDox.Progress
import LibuvDox.SendFileAnswers
import LibuvDox.StaticWebServer.StaleMemory
import LibuvDox.StaticWebServer.CrossTalk
import LibuvDox.StaticWebServer.UrlResolution
import LibuvDox.StaticWebServer.StringOwnership
import LibuvDox.StaticWebServer.HeaderRecording
import LibuvDox.StaticWebServer.FixedBuffers
import LibuvDox.StaticWebServer.ServedResource
import LibuvDox.EchoBuffers
import LibuvDox.TransferBuffers
import LibuvDox.UdpDhcp
import LibuvDox.IdleCompute
import LibuvDox.Lib.WorkPool
import LibuvDox.QueueWork
import LibuvDox.ProgressReports
import LibuvDox.StaticWebServer.WholeResponses
import LibuvDox.MultiEchoSystem
import LibuvDox.LockProgress
import LibuvDox.DnsClient
import LibuvDox.Signals
import LibuvDox.Lib.Decimal
import LibuvDox.Lib.ControlSequence
import LibuvDox.TtyGravity
import LibuvDox.ExePath
import LibuvDox.UvcatTermination
import LibuvDox.TransferEnds
import LibuvDox.UvteeMemory
import LibuvDox.StaticWebServer.TransferViews
import LibuvDox.StaticWebServer.ResponsesComplete
import LibuvDox.StaticWebServer.LiveTransfers
import LibuvDox.StaticWebServer.NewClients
import LibuvDox.StaticWebServer.ComesToRest
