import SfoConnectivity.Bridge.RateLimit
import SfoConnectivity.Bridge.Forward
import SfoConnectivity.Bridge.Machine
import SfoConnectivity.CodeIndex
import SfoConnectivity.Rendezvous.Store
import SfoConnectivity.Rendezvous.Lifecycle
import SfoConnectivity.Rendezvous.JoinCode
import SfoConnectivity.Rendezvous.Capability
import SfoConnectivity.Net.HostPort
import SfoConnectivity.Client.Config
import SfoConnectivity.Rendezvous.Server
import SfoConnectivity.Rendezvous.Limits
import SfoConnectivity.Signal.Server
import SfoConnectivity.Signal.Mailbox
import SfoConnectivity.Signal.Exchange
import SfoConnectivity.P2p.PeerConnection
import SfoConnectivity.P2p.ReadBuffer
import SfoConnectivity.Relay.Model
import SfoConnectivity.Relay.Pairing
import SfoConnectivity.Relay.Splice
import SfoConnectivity.Relay.Meet
import SfoConnectivity.Relay.Validator
import SfoConnectivity.Auth.Base64
import SfoConnectivity.Auth.Utf8
import SfoConnectivity.Auth.JsonScan
import SfoConnectivity.Auth.JsonEncode
import SfoConnectivity.Auth.JsonDecode
import SfoConnectivity.Auth.Claims
import SfoConnectivity.Auth.Signer
import SfoConnectivity.Wire.Readers
import SfoConnectivity.Wire.Handshake
import SfoConnectivity.Game.IpProxy
