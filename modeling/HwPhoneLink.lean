import HwPhoneLink.Lib.BigEndian
import HwPhoneLink.Lib.AnnexB
import HwPhoneLink.Lib.Sha256
import HwPhoneLink.Testfile.Names
import HwPhoneLink.Testfile.Scan
import HwPhoneLink.Testfile.Generate
import HwPhoneLink.Lib.SerialNumber
import HwPhoneLink.Lib.Transitions
import HwPhoneLink.Fillp.Frame
import HwPhoneLink.Fillp.Codec
import HwPhoneLink.Fillp.Peer
import HwPhoneLink.Fillp.Sender
import HwPhoneLink.Fillp.Receiver
import HwPhoneLink.Fillp.Link
import HwPhoneLink.Fillp.Recovery
import HwPhoneLink.Fillp.Engine
import HwPhoneLink.Fillp.Admission
import HwPhoneLink.Fillp.Complete
import HwPhoneLink.Fillp.Entry
import HwPhoneLink.Fillp.Retry
import HwPhoneLink.Fillp.Close
import HwPhoneLink.Fillp.PeerRun
import HwPhoneLink.Fillp.Window
import HwPhoneLink.Fillp.Reply
import HwPhoneLink.Fillp.Store
import HwPhoneLink.Fillp.Lifetime
import HwPhoneLink.Fillp.Registry
import HwPhoneLink.Lib.Table
import HwPhoneLink.Lib.Mutex
import HwPhoneLink.Fillp.CloseCalls
import HwPhoneLink.Fillp.OutOfOrder
import HwPhoneLink.Fillp.Nack
import HwPhoneLink.Fillp.Packets
import HwPhoneLink.Fillp.Cookie
import HwPhoneLink.Lib.Framing
import HwPhoneLink.Lib.Greedy
import HwPhoneLink.Lib.Reader
import HwPhoneLink.Lib.Descriptors
import HwPhoneLink.Testfile.Verify
import HwPhoneLink.Vtp.Frame
import HwPhoneLink.Vtp.Codec
import HwPhoneLink.DFile.Frame
import HwPhoneLink.DFile.Codec
import HwPhoneLink.DFile.HeaderGrammar
import HwPhoneLink.DFile.Decoders
import HwPhoneLink.DFile.Outputs
import HwPhoneLink.DFile.Conn
import HwPhoneLink.DFile.Transmit
import HwPhoneLink.DFile.Receive
import HwPhoneLink.DFile.Engine
import HwPhoneLink.DFile.Moves
import HwPhoneLink.DFile.Output
import HwPhoneLink.DFile.Header
import HwPhoneLink.DFile.Ended
import HwPhoneLink.DFile.Reset
import HwPhoneLink.DFile.Drain
import HwPhoneLink.DFile.CloseCalls
import HwPhoneLink.DFile.Send
import HwPhoneLink.DFile.Blocks
import HwPhoneLink.DFile.Sending
import HwPhoneLink.DFile.Delivery
import HwPhoneLink.DFile.Slots
import HwPhoneLink.DFile.Descriptors
import HwPhoneLink.DFile.ClosedOnce
import HwPhoneLink.DFile.Received
import HwPhoneLink.DFile.Destinations
import HwPhoneLink.DFile.Gate
import HwPhoneLink.DFile.Announce
import HwPhoneLink.Dmsdp.Text
import HwPhoneLink.Dmsdp.Build
import HwPhoneLink.Dmsdp.Client
import HwPhoneLink.Remote.Input
import HwPhoneLink.Remote.Memory
import HwPhoneLink.Lib.Path
import HwPhoneLink.Stream.File
import HwPhoneLink.Stream.Reassembly
import HwPhoneLink.Stream.Sender
import HwPhoneLink.Stream.Transfer
import HwPhoneLink.Softbus.Crypto
import HwPhoneLink.Softbus.Auth
import HwPhoneLink.Softbus.Agreement
import HwPhoneLink.Softbus.Passive
import HwPhoneLink.Softbus.Exchange
import HwPhoneLink.Softbus.Signature
import HwPhoneLink.Softbus.Calls
import HwPhoneLink.Softbus.Retry
import HwPhoneLink.Softbus.Keys
import HwPhoneLink.Softbus.Salt
import HwPhoneLink.Softbus.Frame
import HwPhoneLink.Softbus.Session
import HwPhoneLink.Softbus.Sending
import HwPhoneLink.Transport.Infra
import HwPhoneLink.Dmsdp.Daemon
import HwPhoneLink.Remote.Decode
import HwPhoneLink.Dmsdp.Isolation
import HwPhoneLink.Dmsdp.Ready
import HwPhoneLink.Dmsdp.Values
import HwPhoneLink.Dmsdp.RoundTrip
import HwPhoneLink.Dmsdp.Memory
import HwPhoneLink.Dmsdp.Results
import HwPhoneLink.Dmsdp.Bounds
import HwPhoneLink.Testfile.Digest
import HwPhoneLink.Transport.Backends
import HwPhoneLink.DFile.BlockSteps
import HwPhoneLink.DFile.Retransmit
import HwPhoneLink.Lib.Link
import HwPhoneLink.DFile.Written
import HwPhoneLink.DFile.Source
import HwPhoneLink.DFile.Report
import HwPhoneLink.DFile.Pair
import HwPhoneLink.Fillp.Delivery
import HwPhoneLink.Softbus.Pair
import HwPhoneLink.Stream.Receiving
import HwPhoneLink.Stream.Exchange
import HwPhoneLink.Stream.Finished
import HwPhoneLink.DFile.Origin
import HwPhoneLink.Testfile.Replay
import HwPhoneLink.Stream.Phase
