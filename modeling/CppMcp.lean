import CppMcp.Client.Answers
import CppMcp.Client.Handshake
import CppMcp.Client.Ordered
import CppMcp.Client.Reattach
import CppMcp.Client.Reentrancy
import CppMcp.Http.BatchAnswers
import CppMcp.Http.Guards
import CppMcp.Http.IdSpaces
import CppMcp.Http.Leftovers
import CppMcp.Http.Limits
import CppMcp.Http.MultiLine
import CppMcp.Http.Segmentation
import CppMcp.Http.SessionCap
import CppMcp.Http.SessionHeader
import CppMcp.Http.Splitting
import CppMcp.Peers.Progress
import CppMcp.Process.CommandLine
import CppMcp.Process.Descriptors
import CppMcp.Queue.Accounting
import CppMcp.Queue.Reporting
import CppMcp.Server.Advertised
import CppMcp.Server.Arguments
import CppMcp.Server.Capabilities
import CppMcp.Server.Freeze
import CppMcp.Server.Outbound
import CppMcp.Server.ProgressTokens
import CppMcp.Server.Specificity
import CppMcp.Server.TemplateNames
import CppMcp.Transport.Framing
import CppMcp.Transport.PipeServer
import CppMcp.Transport.Reconnect
import CppMcp.Transport.StdioDrain
import CppMcp.Logging.AsyncLogger
import CppMcp.Server.Registration
import CppMcp.Client.Discipline
import CppMcp.Http.Routing
import CppMcp.Transport.Downstream
import CppMcp.Client.Conversation
import CppMcp.Process.Children
import CppMcp.Http.IdleSweep
import CppMcp.Client.Results
import CppMcp.Peers.Service
import CppMcp.Server.Queues
import CppMcp.Types.Reread
import CppMcp.Peers.Awaiting
