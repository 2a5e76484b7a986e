import NetSim.Lib.Machine
import NetSim.Lib.Word
import NetSim.Lib.Budget
import NetSim.Lib.Frame
import NetSim.Lib.Recent
import NetSim.Proof.PingPong
import NetSim.Proof.TriggerMatrix
import NetSim.Proof.HandoverTransfer
import NetSim.Proof.PdcpOrder
import NetSim.Proof.AmOnce
import NetSim.Proof.AmAcknowledge
import NetSim.Proof.AmWindow
import NetSim.Proof.AmPoll
import NetSim.Proof.StatusProhibit
import NetSim.Proof.BufferStatus
import NetSim.Proof.BufferRemoval
import NetSim.Proof.UmNumber
import NetSim.Proof.UmReceiver
import NetSim.Proof.OllaClamp
import NetSim.Proof.HarqLifecycle
import NetSim.Proof.BwpPartition
import NetSim.Proof.PrbBudget
import NetSim.Proof.TcpQueue
import NetSim.Proof.SeqShift
import NetSim.Proof.SackQueue
import NetSim.Proof.TcpInOrder
import NetSim.Proof.FastRetransmit
import NetSim.Proof.LossRecovery
import NetSim.Proof.SendReceive
import NetSim.Proof.Smf
import NetSim.Proof.EventStream
import NetSim.Proof.SpfFirstHops
import NetSim.Proof.StubRoutes
import NetSim.Proof.DrElection
import NetSim.Proof.LsdbLatest
import NetSim.Proof.LsaAgeing
import NetSim.Lib.Stride
import NetSim.Proof.OwnRefresh
import NetSim.Proof.LsaSequence
import NetSim.Proof.Retransmission
import NetSim.Proof.LsRequests
import NetSim.Proof.NeighborStates
import NetSim.Proof.DdParty
import NetSim.Proof.DdExchange
import NetSim.Lib.Ranked
import NetSim.Spec.IpRouting
import NetSim.Proof.LongestPrefix
import NetSim.Spec.Cubic
import NetSim.Proof.CubicWindow
import NetSim.Spec.TcpRto
import NetSim.Proof.RtoTimer
import NetSim.Spec.TcpIncoming
import NetSim.Proof.SendWindow
import NetSim.Spec.IfBuffer
import NetSim.Proof.BufferOccupancy
import NetSim.Lib.Cover
import NetSim.Spec.Olsr
import NetSim.Proof.MprCoverage
import NetSim.Proof.OlsrFlooding
import NetSim.Lib.ParentTree
import NetSim.Spec.Aodv
import NetSim.Proof.AodvRoutes
import NetSim.Proof.AodvLoopFree
import NetSim.Proof.AodvRerr
import NetSim.Spec.Ethernet
import NetSim.Proof.SwitchLearning
import NetSim.Proof.VlanIsolation
import NetSim.Spec.Firewall
import NetSim.Proof.FirewallMatch
import NetSim.Spec.Csmaca
import NetSim.Proof.CsmaPhase
import NetSim.Proof.RetryLimit
import NetSim.Spec.BlockAck
import NetSim.Proof.AmpduStation
import NetSim.Proof.BlockAckExact
import NetSim.Spec.Medium
import NetSim.Proof.MediumPower
import NetSim.Proof.MediumInterference
import NetSim.Lib.Champion
import NetSim.Spec.Rpl
import NetSim.Proof.RplRank
import NetSim.Spec.Dsr
import NetSim.Proof.DsrDuplicates
import NetSim.Proof.DsrCacheReply
import NetSim.Proof.DsrErrorPath
import NetSim.Spec.Igmp
import NetSim.Proof.IgmpElection
import NetSim.Spec.Satellite
import NetSim.Proof.SatelliteSlots
import NetSim.Proof.TrickleInterval
import NetSim.Proof.AmGrant
import NetSim.Lib.Runs
import NetSim.Proof.AmNacks
import NetSim.Proof.RetxReserve
import NetSim.Proof.CbgPartition
import NetSim.Proof.LiftingSize
import NetSim.Spec.Listener
import NetSim.Proof.BurstAlert
import NetSim.Spec.Carrier
import NetSim.Proof.SlotSplit
import NetSim.Lib.Chain
import NetSim.Spec.Prb
import NetSim.Proof.RankSort
import NetSim.Proof.MatrixMap
import NetSim.Proof.UmSender
import NetSim.Proof.AmCutting
import NetSim.Proof.AmReassembly
import NetSim.Spec.SpanningTree
import NetSim.Proof.SpanningTree
import NetSim.Proof.SackBlocks
import NetSim.Proof.SackLost
import NetSim.Proof.CongestionWords
import NetSim.Proof.PartialAck
import NetSim.Spec.Congestion
import NetSim.Proof.BicGrowth
import NetSim.Spec.OspfUpdate
import NetSim.Proof.UpdatePacking
import NetSim.Lib.Keyed
import NetSim.Proof.UpdateQueue
import NetSim.Lib.FirstMatch
import NetSim.Proof.LsaCompare
import NetSim.Proof.PriorityScheduler
import NetSim.Spec.OspfOrigin
import NetSim.Proof.OriginRows
import NetSim.Proof.ClassSchedulers
import NetSim.Proof.EdfRetrieval
import NetSim.Proof.MprHeuristic
import NetSim.Spec.FastEmulation
import NetSim.Proof.FastRoutes
import NetSim.Proof.AodvLookups
import NetSim.Proof.AclRoundTrip
import NetSim.Proof.EdcaQueue
import NetSim.Proof.EdcaRuns
import NetSim.Proof.RateChoice
import NetSim.Proof.DsrRouteCache
import NetSim.Proof.DsrSendBuffer
import NetSim.Proof.OlsrTables
import NetSim.Proof.HelloLinks
