import FlexProxy.TransitionSystem
import FlexProxy.SerialNumber
import FlexProxy.Kcp
import FlexProxy.KcpQueue
import FlexProxy.KcpInput
import FlexProxy.KcpFlush
import FlexProxy.KcpWire
import FlexProxy.Datagram
import FlexProxy.KcpStream
import FlexProxy.Forwarder
import FlexProxy.Link
import FlexProxy.Lifecycle
import FlexProxy.Tunnel
import FlexProxy.EndOfFile
import FlexProxy.Shutdown
import FlexProxy.Construction
import FlexProxy.FlexServer
import FlexProxy.Provenance
import FlexProxy.Proxy
import FlexProxy.Pairing
import FlexProxy.Sockets
import FlexProxy.UpstreamConnect
import FlexProxy.AddressParser
import FlexProxy.DatagramSize
import FlexProxy.FrameCodec
import FlexProxy.InPlace
import FlexProxy.Retry
import FlexProxy.ClockOrigin
import FlexProxy.KcpWindow
import FlexProxy.SendWindow
import FlexProxy.WellFormed
import FlexProxy.Pump
import FlexProxy.KcpProgress
import FlexProxy.QuietRun
import FlexProxy.Recovery
import FlexProxy.LinkedRing
import FlexProxy.IQueue
import FlexProxy.KcpMemory
import FlexProxy.KcpRefinement
import FlexProxy.KcpInputRefinement
import FlexProxy.KcpMemorySafety
import FlexProxy.KcpParser
import FlexProxy.KcpSchedule
import FlexProxy.FlushPace
import FlexProxy.Isolation
import FlexProxy.AckEcho
