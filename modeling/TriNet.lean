import TriNet.Mesh.LaneWindow
import TriNet.Mesh.NonceUniqueness
import TriNet.Mesh.Exchange
import TriNet.Routing.LoopFreedom
import TriNet.Routing.ChainDelivery
import TriNet.Compute.LeafChanges
import TriNet.Compute.RelaySettlement
import TriNet.Compute.Finality
import TriNet.Relay.Interleaver
import TriNet.Radio.Modem
import TriNet.Compute.Sha256
import TriNet.Compute.Account
import TriNet.Compute.FundedPool
import TriNet.Compute.Quorum
import TriNet.Compute.TernaryWeights
import TriNet.Compute.SealDispute
import TriNet.Gft.Subtract
import TriNet.Gft.Expressions
import TriNet.Video.MeshPort
import TriNet.Video.Bursts
import TriNet.Video.RateBudget
import TriNet.Phone.AudioRED
import TriNet.Phone.Buffers
import TriNet.Phone.Candidates
import TriNet.Phone.MeshText
import TriNet.Phone.NicknamePolicy
import TriNet.Phone.Rendezvous
import TriNet.Phone.Repair
import TriNet.Phone.SignedPayloads
import TriNet.Phone.Stun
import TriNet.Phone.Traps
import TriNet.Phone.GroupCall
import TriNet.Phone.Handshake
import TriNet.CallApi.Leases
import TriNet.CallApi.References
import TriNet.CallApi.NonceSafety
import TriNet.CallApi.Authority
import TriNet.CallApi.AccountEntry
import TriNet.CallApi.DeviceKeys
import TriNet.CallApi.Admission
import TriNet.CallApi.Ringing
import TriNet.CallApi.Routes
import TriNet.CallApi.Reading
import TriNet.Phone.SignalReplay
import TriNet.Radio.BitReverse
import TriNet.Routing.Meshd
