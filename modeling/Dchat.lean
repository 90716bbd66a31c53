import Dchat.Foundations.Runs
import Dchat.Foundations.Links
import Dchat.Foundations.Bytes
import Dchat.RMP.MessageBuffers
import Dchat.RMP.Process
import Dchat.RMP.Moves
import Dchat.RMP.Network
import Dchat.RMP.Listen
import Dchat.RMP.Udp
import Dchat.Foundations.Sublists
import Dchat.RMP.Fifo
import Dchat.RMP.Lossless
import Dchat.Foundations.CString
import Dchat.Foundations.Stdio
import Dchat.Chat.Model
import Dchat.Chat.ParticipantUpdate
import Dchat.Chat.Leader
import Dchat.Chat.Election
import Dchat.Chat.Receive
import Dchat.Chat.Nickname
import Dchat.Foundations.Outranking
import Dchat.Chat.Contested
import Dchat.Chat.Bully
import Dchat.Chat.Elected
import Dchat.Structures.FiniteMap
import Dchat.Chat.Join
import Dchat.Chat.Reaction
import Dchat.RMP.Peers
import Dchat.Chat.Trap
import Dchat.Chat.Bookkeeping
import Dchat.Chat.Cascade
import Dchat.Chat.Fidelity
import Dchat.Foundations.JavaString
import Dchat.Gui.ChatSource
import Dchat.Chat.Dispatch
import Dchat.Chat.Session
import Dchat.Chat.Membership
import Dchat.Chat.Numbering
import Dchat.Foundations.Queue
import Dchat.Structures.LinkedMap
import Dchat.Structures.Iterator
import Dchat.RMP.Iterate
import Dchat.Foundations.LittleEndian
import Dchat.RMP.Wire
import Dchat.RMP.ListenBound
import Dchat.RMP.Retries
import Dchat.RMP.RetryPeers
import Dchat.RMP.SendResult
import Dchat.Chat.Malformed
import Dchat.Chat.Assembly
import Dchat.Chat.Speech
import Dchat.Chat.Honest
import Dchat.Chat.ScanBuffers
import Dchat.RMP.Timer
import Dchat.Gui.ListModel
import Dchat.Chat.ScanLoop
import Dchat.Chat.Terminator
import Dchat.Chat.Stops
import Dchat.Chat.Leftover
import Dchat.Foundations.Bulletin
import Dchat.Chat.Arrivals
import Dchat.Chat.Outgoing
import Dchat.Chat.Chronicle
import Dchat.Chat.Agreement
import Dchat.Chat.Referral
import Dchat.Foundations.History
import Dchat.Chat.EventLoop
import Dchat.Chat.Timing
import Dchat.Foundations.Refinement
import Dchat.Foundations.TailQueue
import Dchat.Chat.ParticipantHeap
import Dchat.Chat.HeapRefinement
import Dchat.Chat.Memory
import Dchat.RMP.Whole
import Dchat.Chat.Texts
import Dchat.Chat.Deployment
import Dchat.Chat.Attribution
import Dchat.Chat.Lookup
