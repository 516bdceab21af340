import SparkNet.Runs
import SparkNet.Buffer
import SparkNet.BufferRefinement
import SparkNet.Epoller
import SparkNet.Registration
import SparkNet.InetAdress
import SparkNet.TcpConnection
import SparkNet.Session
import SparkNet.Stream
import SparkNet.Shutdown
import SparkNet.Loop
import SparkNet.Ownership
import SparkNet.ClientState
import SparkNet.Lifetime
import SparkNet.Deregistration
import SparkNet.Closing
import SparkNet.DescriptorTable
import SparkNet.Acceptor
import SparkNet.Holdings
import SparkNet.Ledger
import SparkNet.Calls
import SparkNet.NullSafety
import SparkNet.Callbacks
import SparkNet.PeerReset
import SparkNet.Seats
import SparkNet.Dispatch
import SparkNet.Moves
import SparkNet.LateClose
import SparkNet.ConnectionMap
import SparkNet.AddressForms
import SparkNet.BufferStorage
import SparkNet.Dialling
import SparkNet.Format
import SparkNet.LogLine
import SparkNet.FileDir
import SparkNet.LogConfig
import SparkNet.Sessions
import SparkNet.Link
import SparkNet.Echo
import SparkNet.Ring
import SparkNet.Tally
import SparkNet.CircularQ
import SparkNet.MpmcQueue
import SparkNet.ThreadPool
import SparkNet.Wakeups
import SparkNet.Generations
import SparkNet.RotatingSink
import SparkNet.LogPipeline
import SparkNet.Calendar
import SparkNet.LogReader
