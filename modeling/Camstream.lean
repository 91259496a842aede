import Camstream.Proofs.RtpRoundTrip
import Camstream.Proofs.Resync
import Camstream.Proofs.StunAuth
import Camstream.Proofs.SessionLife
import Camstream.Proofs.Watchdog
import Camstream.Proofs.Fingerprint
import Camstream.Proofs.SessionCore
import Camstream.Proofs.Liveness
import Camstream.Proofs.PeerAddress
import Camstream.Proofs.RetxCache
import Camstream.Proofs.RtpStream
import Camstream.Proofs.AuAccounting
import Camstream.Proofs.AuWakeup
import Camstream.Proofs.FrameOwnership
import Camstream.Proofs.KeyframeRequests
import Camstream.Proofs.SelfContained
import Camstream.Proofs.MdnsUnique
import Camstream.Proofs.MdnsOwner
import Camstream.Proofs.MdnsConflict
import Camstream.Proofs.MdnsPublish
import Camstream.Lib.Lines
import Camstream.App.AppConfig
import Camstream.App.AppServer
import Camstream.Proofs.MdnsSilence
import Camstream.Proofs.MdnsLabels
import Camstream.Proofs.MdnsRoundTrip
import Camstream.Proofs.SdpAnswer
import Camstream.Proofs.SdpMirror
import Camstream.Proofs.LpSdpSound
import Camstream.Proofs.LpSdpStable
import Camstream.Proofs.LpFrames
import Camstream.Proofs.SessionOffers
import Camstream.Proofs.SupervisorBackoff
import Camstream.Proofs.ConfigReload
import Camstream.Proofs.NalScanners
import Camstream.Proofs.MarkerBit
import Camstream.Proofs.SessionBounds
import Camstream.Proofs.StunIntegrity
import Camstream.Proofs.BindingResponse
import Camstream.Proofs.ErrorResponse
import Camstream.Proofs.RtcpReports
import Camstream.Proofs.RtcpCompound
import Camstream.Proofs.RoundTripTime
import Camstream.Proofs.SdpSections
import Camstream.Proofs.AnswerBuffer
import Camstream.Proofs.FormatChoice
import Camstream.Proofs.MdnsMembership
import Camstream.Proofs.MdnsRenames
import Camstream.Proofs.MdnsAliases
import Camstream.Proofs.MdnsKnownAnswers
import Camstream.Proofs.MdnsBounds
import Camstream.Proofs.EncoderPicture
import Camstream.Proofs.InputLayout
import Camstream.Proofs.EncoderAccounting
import Camstream.Proofs.HandshakeStats
import Camstream.Proofs.JsonRoundTrip
import Camstream.Proofs.DnsRoundTrip
import Camstream.Proofs.FingerprintText
import Camstream.Proofs.CrcTable
import Camstream.Proofs.LogNewest
import Camstream.Proofs.LogRequests
import Camstream.Proofs.ConfigLines
import Camstream.Proofs.KeepNewest
import Camstream.Proofs.CaptureChild
import Camstream.Proofs.SourceFailures
import Camstream.Proofs.M2mOutput
import Camstream.Proofs.M2mStall
import Camstream.Proofs.V4l2Buffers
import Camstream.Proofs.MediaDelivery
import Camstream.Proofs.TlsFilter
import Camstream.Proofs.LpAnswers
import Camstream.App.PipelineParts
import Camstream.App.RtcParts
import Camstream.Lpstream.LpPipeline
import Camstream.Proofs.DtlsQueue
import Camstream.Proofs.LpEncoderFallback
import Camstream.Proofs.RtcLifetime
