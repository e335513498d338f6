import TrivalTcp.Foundations.AdditiveIncrease
import TrivalTcp.Foundations.Bytes
import TrivalTcp.Foundations.Run
import TrivalTcp.Foundations.Arena
import TrivalTcp.Foundations.BoundedFifo
import TrivalTcp.Foundations.Tally
import TrivalTcp.Foundations.CondVar
import TrivalTcp.Foundations.CumulativeAck
import TrivalTcp.Foundations.InOrder
import TrivalTcp.Foundations.LastEntry
import TrivalTcp.Foundations.Lockstep
import TrivalTcp.Foundations.Ring
import TrivalTcp.Foundations.SignedRemainder
import TrivalTcp.Foundations.Truncate
import TrivalTcp.Packet.Consts
import TrivalTcp.Packet.Codec
import TrivalTcp.Packet.RoundTrip
import TrivalTcp.Packet.BitErrors
import TrivalTcp.Packet.Reencode
import TrivalTcp.Socket.SockQueue
import TrivalTcp.Socket.QueueRuns
import TrivalTcp.Socket.Rtt
import TrivalTcp.Socket.Socket
import TrivalTcp.Socket.Timer
import TrivalTcp.Handshake.Handshake
import TrivalTcp.Handshake.Agreement
import TrivalTcp.Handshake.Interleave
import TrivalTcp.Handshake.Recovery
import TrivalTcp.Handshake.OldPackets
import TrivalTcp.Handshake.Queues
import TrivalTcp.Transfer.Transfer
import TrivalTcp.Transfer.Link
import TrivalTcp.Transfer.Delivery
import TrivalTcp.Transfer.Forged
import TrivalTcp.Transfer.Accounting
import TrivalTcp.Transfer.Window
import TrivalTcp.Transfer.Chunk
import TrivalTcp.Transfer.Advertised
import TrivalTcp.Transfer.Congestion
import TrivalTcp.Transfer.GiveUp
import TrivalTcp.Transfer.StaleAck
import TrivalTcp.Transfer.InFlight
import TrivalTcp.Transfer.Sender
import TrivalTcp.Transfer.Wire
import TrivalTcp.Transfer.Pipe
import TrivalTcp.Transfer.Repair
import TrivalTcp.Transfer.Replies
import TrivalTcp.Transfer.SendLock
import TrivalTcp.Transfer.Unseen
import TrivalTcp.Kernel.Heap
import TrivalTcp.Kernel.Kernel
import TrivalTcp.Kernel.Host
import TrivalTcp.Kernel.Effects
import TrivalTcp.Kernel.Demux
import TrivalTcp.Kernel.Framing
import TrivalTcp.Kernel.Safety
import TrivalTcp.Kernel.Release
import TrivalTcp.Kernel.Separation
import TrivalTcp.Kernel.Hosts
import TrivalTcp.Kernel.Isolation
import TrivalTcp.Kernel.Sockets
import TrivalTcp.Kernel.Tables
import TrivalTcp.Close.Close
import TrivalTcp.Close.Justified
import TrivalTcp.Close.Remainder
import TrivalTcp.Close.Lifetime
import TrivalTcp.Close.Completion
import TrivalTcp.Pool.Thpool
import TrivalTcp.Pool.Accounts
import TrivalTcp.Pool.Progress
import TrivalTcp.Pool.Destroy
import TrivalTcp.Chan.Queue
import TrivalTcp.Chan.Channel
import TrivalTcp.Chan.Buffered
import TrivalTcp.Chan.Wakes
import TrivalTcp.Chan.Closing
import TrivalTcp.Chan.Unbuffered
import TrivalTcp.Chan.Rendezvous
import TrivalTcp.Chan.Meeting
