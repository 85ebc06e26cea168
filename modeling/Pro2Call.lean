import Pro2Call.Gtpu.TableCoverage
import Pro2Call.Gtpu.TableAtomicity
import Pro2Call.Gtpu.TableGuard
import Pro2Call.Gtpu.EncapChecksum
import Pro2Call.Gtpu.EncapFragments
import Pro2Call.Gtpu.Tunnel
import Pro2Call.Gtpu.DecapGuard
import Pro2Call.Gtpu.ExtHeaders
import Pro2Call.Gtpu.Classify
import Pro2Call.Task.TlvOverflow
import Pro2Call.Task.TlvWalk
import Pro2Call.Task.FsmNested
import Pro2Call.Task.IppoolRange
import Pro2Call.Task.IppoolSweep
import Pro2Call.Json.Pool
import Pro2Call.Json.Pointer
import Pro2Call.Net.Poll
import Pro2Call.Net.DnsLife
import Pro2Call.Net.DnsAnswers
import Pro2Call.Nlmsg.Answers
import Pro2Call.Nlmsg.Carries
import Pro2Call.Nlmsg.Esp
import Pro2Call.Diam.Parse
import Pro2Call.Diam.Dict
import Pro2Call.Gtp2.Responses
import Pro2Call.Gtp2.Lifecycle
import Pro2Call.Gtp2.Retransmit
import Pro2Call.Gtp2.Numbering
import Pro2Call.Gtp2.MsgGen
import Pro2Call.Gtp1.Ies
import Pro2Call.Sms.ConcatSplit
import Pro2Call.Sms.AddressText
import Pro2Call.Sms.Rp
import Pro2Call.Sms.Forward
import Pro2Call.Aka.Milenage
import Pro2Call.Rtp.Report
import Pro2Call.Rtp.Sdes
import Pro2Call.Sip.Base64
import Pro2Call.Sip.Address
import Pro2Call.Sip.Auth
import Pro2Call.Sip.RoundTrip
import Pro2Call.Sip.Transactions
import Pro2Call.Sdp.Sections
