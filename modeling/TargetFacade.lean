import TargetFacade.Endpoint.Relation
import TargetFacade.Trust.Agreement
import TargetFacade.Trust.Enforcement
import TargetFacade.Trust.Stems
import TargetFacade.Hub.FailedArm
import TargetFacade.Hub.ArmRace
import TargetFacade.Hub.Drain
import TargetFacade.Hub.PeerUp
import TargetFacade.Hub.UpDown
import TargetFacade.Hub.TimerClock
import TargetFacade.Hub.Isolation
import TargetFacade.Hub.PingAgreement
import TargetFacade.Hub.PacketSize
import TargetFacade.Hub.BroadcastGuard
import TargetFacade.Hub.MessageMap
import TargetFacade.Hub.CurMsg
import TargetFacade.Hub.ReadSide
import TargetFacade.Hub.ConRows
import TargetFacade.Hub.Affinity
import TargetFacade.Hub.DialBudget
import TargetFacade.Hub.TypedFields
import TargetFacade.Hub.RealReads
import TargetFacade.Hub.Reply
import TargetFacade.Com.Teardown
import TargetFacade.Com.EventQueue
import TargetFacade.Com.Payload
import TargetFacade.Com.RelationTo
import TargetFacade.Com.Handlers
import TargetFacade.Com.Owner
import TargetFacade.Network.DiagSink
import TargetFacade.Network.Deliveries
import TargetFacade.Network.Freed
import TargetFacade.Network.SecureEdge
import TargetFacade.Network.ArmingGate
import TargetFacade.Network.OmittedSerial
import TargetFacade.Network.ServiceNames
import TargetFacade.Registry.Unique
import TargetFacade.Registry.Teardown
import TargetFacade.Topology.MapText
import TargetFacade.Topology.Comments
import TargetFacade.Topology.Hubs
import TargetFacade.Topology.Armed
