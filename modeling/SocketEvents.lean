import SocketEvents.RoundTrip
import SocketEvents.PathAgreement
import SocketEvents.PathLookup
import SocketEvents.StoredNumbers
import SocketEvents.ObjectArrays
import SocketEvents.StoreLaw
import SocketEvents.FrameFormat
import SocketEvents.SignatureGate
import SocketEvents.SharedConfig
import SocketEvents.Admission
import SocketEvents.AcceptLoop
import SocketEvents.WebsocketReplies
import SocketEvents.WebsocketLifecycle
import SocketEvents.ExtensionLoad
import SocketEvents.Delivery
import SocketEvents.Ownership
import SocketEvents.SharedHandle
import SocketEvents.ListenerRegistry
import SocketEvents.PathSplitting
import SocketEvents.Representation
import SocketEvents.GetterSafety
import SocketEvents.FetchAgreement
import SocketEvents.ArrayMetadata
import SocketEvents.ElementPaths
import SocketEvents.ResponseEncoding
import SocketEvents.PayloadIntegrity
import SocketEvents.HostSafety
import SocketEvents.FrameLatency
import SocketEvents.WebsocketHost
import SocketEvents.TCPHost
import SocketEvents.LoadedConfig
import SocketEvents.JsonAnswers
import SocketEvents.StoreRuns
import SocketEvents.SDKLifecycle
import SocketEvents.TCPLifecycle
import SocketEvents.DispatchJournal
import SocketEvents.WebsocketDelivery
