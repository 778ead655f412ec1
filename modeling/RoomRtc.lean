import RoomRtc.Foundations.BigEndian
import RoomRtc.Foundations.Machine
import RoomRtc.Foundations.Ring
import RoomRtc.Foundations.RingQueue
import RoomRtc.Foundations.Sessions
import RoomRtc.Foundations.Text
import RoomRtc.Foundations.Tokens
import RoomRtc.Transport.RtpPacket
import RoomRtc.Srtp.Context
import RoomRtc.Srtp.Keystream
import RoomRtc.Media.Sender
import RoomRtc.Jitter.Buffer
import RoomRtc.Jitter.Steps
import RoomRtc.Jitter.Frames
import RoomRtc.Jitter.Window
import RoomRtc.Jitter.Playout
import RoomRtc.Jitter.Recovery
import RoomRtc.Jitter.Liveness
import RoomRtc.Jitter.Markers
import RoomRtc.Jitter.PerfectNetwork
import RoomRtc.Protocol.ServerResponse
import RoomRtc.Server.OperatingServer
import RoomRtc.Server.UsersFile
import RoomRtc.Server.Announcement
import RoomRtc.Server.UserHandler
import RoomRtc.Server.Sessions
import RoomRtc.Server.GhostSessions
import RoomRtc.Server.Statuses
import RoomRtc.Server.CallRace
import RoomRtc.Server.Calls
import RoomRtc.Server.Accounts
import RoomRtc.Controller.Contacts
import RoomRtc.File.FtpMessage
import RoomRtc.File.Transferer
import RoomRtc.Transport.MediaTransport
import RoomRtc.Session.Ice
import RoomRtc.Session.Sdp
import RoomRtc.Session.CallSession
import RoomRtc.Session.Roles
import RoomRtc.Session.Answer
import RoomRtc.Session.Candidates
import RoomRtc.Foundations.Framing
import RoomRtc.Session.SdpText
import RoomRtc.Session.RoundTrip
import RoomRtc.Session.AnswerText
import RoomRtc.Protocol.Codecs
import RoomRtc.Srtp.Inverse
import RoomRtc.Foundations.CheckThenSet
import RoomRtc.Transport.RtcpPacket
import RoomRtc.Transport.CallEnd
import RoomRtc.Transport.Handshake
import RoomRtc.Protocol.Framing
import RoomRtc.Server.Admission
import RoomRtc.Foundations.Trace
import RoomRtc.Server.Ringing
import RoomRtc.Server.Acceptance
import RoomRtc.Server.Failures
import RoomRtc.Session.Intersection
import RoomRtc.Session.Pairs
import RoomRtc.Jitter.Statistics
import RoomRtc.Session.Checks
import RoomRtc.Jitter.Schedule
import RoomRtc.Jitter.Resets
import RoomRtc.Jitter.ReadSlot
import RoomRtc.Jitter.FirstFrame
import RoomRtc.Foundations.ByteAccess
import RoomRtc.Media.AudioRingBuffer
import RoomRtc.Session.Stun
import RoomRtc.Transport.Dcep
import RoomRtc.File.Codecs
import RoomRtc.File.Delivery
import RoomRtc.File.Offers
import RoomRtc.Transport.SctpTransport
import RoomRtc.Jitter.Termination
import RoomRtc.Session.Selection
import RoomRtc.Session.MutualChecks
import RoomRtc.Session.NewSession
import RoomRtc.Session.CallSetup
import RoomRtc.File.Exchange
import RoomRtc.File.ExchangeSafety
import RoomRtc.File.ExchangeRuns
import RoomRtc.File.ExchangeMoves
import RoomRtc.File.ExchangeTransfers
import RoomRtc.File.ExchangeOpenings
import RoomRtc.Foundations.Channels
import RoomRtc.Media.MediaPath
import RoomRtc.Media.MediaDelivery
import RoomRtc.Media.Nonces
import RoomRtc.Media.MediaFrames
import RoomRtc.Foundations.Attempts
import RoomRtc.Media.Microphone
import RoomRtc.Controller.Control
import RoomRtc.Ui.Interface
import RoomRtc.Ui.Screens
import RoomRtc.Ui.CallScreen
import RoomRtc.Ui.IncomingCall
import RoomRtc.Ui.StatsPanel
import RoomRtc.Ui.CallsEnd
