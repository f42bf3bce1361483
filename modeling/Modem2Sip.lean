import Modem2Sip.Lib.Run
import Modem2Sip.Sip.Replay
import Modem2Sip.Gateway.Loop
import Modem2Sip.Gateway.NewCall
import Modem2Sip.Gateway.FinalResponse
import Modem2Sip.Gateway.Silence
import Modem2Sip.Gateway.Hold
import Modem2Sip.Gateway.Acknowledge
import Modem2Sip.Gateway.MobileLeg
import Modem2Sip.Gateway.Confirmed
import Modem2Sip.Gateway.Latch
import Modem2Sip.Gateway.OutsideDialog
import Modem2Sip.Gateway.Reinvite
import Modem2Sip.Lib.Lines
import Modem2Sip.Sip.Wire
import Modem2Sip.Sip.Server
import Modem2Sip.Sip.AtMostOnce
import Modem2Sip.Sip.Interference
import Modem2Sip.Lib.Cursor
import Modem2Sip.Mms.Wsp
import Modem2Sip.Mms.Pdu
import Modem2Sip.Mms.Total
import Modem2Sip.Mms.ReadBack
import Modem2Sip.Mms.SendReq
import Modem2Sip.Lib.Lease
import Modem2Sip.Sip.NonceCount
import Modem2Sip.Sip.PendingAck
import Modem2Sip.Sip.Registrations
import Modem2Sip.Gateway.Dtmf
import Modem2Sip.Lib.Prog
import Modem2Sip.Messages.Sms
import Modem2Sip.Sip.Digest
import Modem2Sip.Sip.Vias
import Modem2Sip.Gateway.Description
import Modem2Sip.Gateway.Reannounce
import Modem2Sip.Lib.Change
import Modem2Sip.Media.Detector
import Modem2Sip.Media.Rtp
import Modem2Sip.Media.TelephoneEvent
import Modem2Sip.Media.Tones
import Modem2Sip.Messages.Manager
import Modem2Sip.Messages.Notifications
import Modem2Sip.Messages.Submit
import Modem2Sip.Mms.Skipped
import Modem2Sip.Mms.Strings
import Modem2Sip.Sip.Offer
import Modem2Sip.Gateway.ClientTxns
import Modem2Sip.Lib.Outcome
import Modem2Sip.Mms.Answers
import Modem2Sip.Mms.Chunked
import Modem2Sip.Mms.Parameters
import Modem2Sip.Mms.Response
import Modem2Sip.Sip.Contacts
import Modem2Sip.Sip.LineEndings
import Modem2Sip.Sip.Nonces
import Modem2Sip.Lib.Threads
import Modem2Sip.Messages.Deletion
import Modem2Sip.Messages.Duplicates
import Modem2Sip.Gateway.Numbers
import Modem2Sip.Lib.Cycle
import Modem2Sip.Lib.Fifo
import Modem2Sip.Lib.NetText
import Modem2Sip.Lib.Paths
import Modem2Sip.Lib.Prefix
import Modem2Sip.Lib.Transducer
import Modem2Sip.Media.Backlog
import Modem2Sip.Media.Ports
import Modem2Sip.Media.Resampler
import Modem2Sip.Messages.Complete
import Modem2Sip.Mm.Watcher
import Modem2Sip.Mms.Limit
import Modem2Sip.Mms.Numbers
import Modem2Sip.Sip.Allow
import Modem2Sip.Store.FileNames
import Modem2Sip.Api.Answer
import Modem2Sip.Api.History
import Modem2Sip.Api.Page
import Modem2Sip.Lib.Cells
import Modem2Sip.Media.G711
import Modem2Sip.Gateway.Register
import Modem2Sip.Media.Path
import Modem2Sip.Mm.Handle
import Modem2Sip.Mm.Supervise
import Modem2Sip.Mms.Resolver
