import SwiftNetCore.Lib.Loop
import SwiftNetCore.Lib.Path
import SwiftNetCore.Lib.Delimited
import SwiftNetCore.Lib.Cells
import SwiftNetCore.Lib.OrdSet
import SwiftNetCore.Lib.Rounding
import SwiftNetCore.Lib.Fair
import SwiftNetCore.Lib.RoundRobin
import SwiftNetCore.Base
import SwiftNetCore.Buffer
import SwiftNetCore.BufferOps
import SwiftNetCore.BufferFifo
import SwiftNetCore.BufferMemory
import SwiftNetCore.Http.Message
import SwiftNetCore.Http.Context
import SwiftNetCore.Http.Parser
import SwiftNetCore.Http.Grammar
import SwiftNetCore.Http.RequestLine
import SwiftNetCore.Http.Head
import SwiftNetCore.Http.HeaderText
import SwiftNetCore.Http.Framing
import SwiftNetCore.Http.Termination
import SwiftNetCore.Http.Chunks
import SwiftNetCore.Http.Calls
import SwiftNetCore.Endpoint
import SwiftNetCore.TcpConnection
import SwiftNetCore.TcpOutput
import SwiftNetCore.TcpShutdown
import SwiftNetCore.TcpSend
import SwiftNetCore.TcpHighWater
import SwiftNetCore.TcpLifecycle
import SwiftNetCore.TcpLink
import SwiftNetCore.TcpDelivery
import SwiftNetCore.TimerQueue
import SwiftNetCore.TimerSets
import SwiftNetCore.TimerRuns
import SwiftNetCore.TimerWakeup
import SwiftNetCore.TimerCancel
import SwiftNetCore.TimerFiring
import SwiftNetCore.TimerIds
import SwiftNetCore.TimerUnits
import SwiftNetCore.TimerHistory
import SwiftNetCore.TimerLifetimes
import SwiftNetCore.TimerProgress
import SwiftNetCore.Http.Server
import SwiftNetCore.Http.Isolation
import SwiftNetCore.Http.Answers
import SwiftNetCore.Http.ResponseParser
import SwiftNetCore.Http.ResponseText
import SwiftNetCore.Http.ResponseRoundTrip
import SwiftNetCore.Http.Client
import SwiftNetCore.Http.RequestRoundTrip
import SwiftNetCore.Http.ClientQueue
import SwiftNetCore.Http.Delivery
import SwiftNetCore.Http.Session
import SwiftNetCore.Connector
import SwiftNetCore.ConnectorSockets
import SwiftNetCore.ConnectorDisposal
import SwiftNetCore.ConnectorRetry
import SwiftNetCore.Http.Connecting
import SwiftNetCore.ThreadPool
import SwiftNetCore.ThreadPoolBooks
import SwiftNetCore.ThreadPoolTasks
import SwiftNetCore.ThreadPoolWork
import SwiftNetCore.ThreadPoolProgress
import SwiftNetCore.ThreadPoolResize
import SwiftNetCore.AsyncLogger
import SwiftNetCore.AsyncLoggerProgress
import SwiftNetCore.EventLoop
import SwiftNetCore.EventLoopFunctors
import SwiftNetCore.EventLoopProgress
import SwiftNetCore.EventLoopThread
import SwiftNetCore.ConnectionOwner
import SwiftNetCore.EpollPoller
import SwiftNetCore.ServerRegistry
import SwiftNetCore.DispatchSafety
import SwiftNetCore.ServerStart
