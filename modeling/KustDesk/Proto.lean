import KustDesk.Prelude

/-!
# KustDesk — Proto

The rendezvous messages, with the fields the servers read or fill in. A
field left out of a structure literal has its protobuf default, as with
`..Default::default()` in the source.
-/

namespace KustDesk

inductive NatType where
  | unknownNat
  | asymmetric
  | symmetric
  deriving DecidableEq

/-- `protobuf::EnumOrUnknown`: what arrived may name no variant. -/
inductive EnumOrUnknown (α : Type) where
  | known (a : α)
  | unknown (value : Int)
  deriving DecidableEq

/-- `EnumOrUnknown::enum_value`. -/
def EnumOrUnknown.enumValue {α : Type} : EnumOrUnknown α → Option α
  | .known a => some a
  | .unknown _ => none

structure RegisterPeer where
  id : String := ""
  serial : Int := 0
  deriving DecidableEq

structure RegisterPeerResponse where
  requestPk : Bool := false
  deriving DecidableEq

structure PunchHoleRequest where
  id : String := ""
  natType : EnumOrUnknown NatType := .known .unknownNat
  licenceKey : String := ""
  token : String := ""
  deriving DecidableEq

structure PunchHole where
  socketAddr : Bytes := []
  relayServer : String := ""
  natType : EnumOrUnknown NatType := .known .unknownNat
  deriving DecidableEq

structure PunchHoleSent where
  socketAddr : Bytes := []
  id : String := ""
  relayServer : String := ""
  natType : EnumOrUnknown NatType := .known .unknownNat
  version : String := ""
  deriving DecidableEq

/-- `punch_hole_response::Failure`, the variants the server answers. -/
inductive Failure where
  | idNotExist
  | offline
  | licenseMismatch
  deriving DecidableEq

/-- The `oneof` of `PunchHoleResponse`. -/
inductive PunchHoleResponseUnion where
  | natType (t : NatType)
  | isLocal (b : Bool)
  deriving DecidableEq

/-- `failure` is `none` where the source leaves it at its default. -/
structure PunchHoleResponse where
  socketAddr : Bytes := []
  pk : Bytes := []
  failure : Option Failure := none
  relayServer : String := ""
  otherFailure : String := ""
  union : Option PunchHoleResponseUnion := none
  deriving DecidableEq

structure FetchLocalAddr where
  socketAddr : Bytes := []
  relayServer : String := ""
  deriving DecidableEq

structure LocalAddr where
  socketAddr : Bytes := []
  localAddr : Bytes := []
  relayServer : String := ""
  id : String := ""
  version : String := ""
  deriving DecidableEq

structure ConfigUpdate where
  serial : Int := 0
  rendezvousServers : List String := []
  deriving DecidableEq

structure RegisterPk where
  id : String := ""
  uuid : Bytes := []
  pk : Bytes := []
  deriving DecidableEq

/-- `register_pk_response::Result`, the variants the server answers. -/
inductive RegisterPkResult where
  | ok
  | uuidMismatch
  | tooFrequent
  | invalidIdFormat
  | serverError
  deriving DecidableEq

structure RegisterPkResponse where
  result : RegisterPkResult := .ok
  deriving DecidableEq

structure SoftwareUpdate where
  url : String := ""
  deriving DecidableEq

structure RequestRelay where
  id : String := ""
  uuid : String := ""
  socketAddr : Bytes := []
  relayServer : String := ""
  licenceKey : String := ""
  token : String := ""
  deriving DecidableEq

/-- The `oneof` of `RelayResponse`. -/
inductive RelayResponseUnion where
  | id (s : String)
  | pk (b : Bytes)
  deriving DecidableEq

structure RelayResponse where
  socketAddr : Bytes := []
  uuid : String := ""
  relayServer : String := ""
  union : Option RelayResponseUnion := none
  version : String := ""
  deriving DecidableEq

/-- The accessor of the `oneof`: empty unless it holds an id. -/
def RelayResponse.id (rr : RelayResponse) : String :=
  match rr.union with
  | some (.id s) => s
  | _ => ""

structure TestNatRequest where
  serial : Int := 0
  deriving DecidableEq

structure TestNatResponse where
  port : Nat := 0
  cu : Option ConfigUpdate := none
  deriving DecidableEq

structure OnlineRequest where
  peers : List String := []
  deriving DecidableEq

structure OnlineResponse where
  states : Bytes := []
  deriving DecidableEq

structure KeyExchange where
  keys : List Bytes := []
  deriving DecidableEq

/-- `rendezvous_message::Union`. `other` stands for the variants the
server neither reads nor sends. -/
inductive Union where
  | registerPeer (m : RegisterPeer)
  | registerPeerResponse (m : RegisterPeerResponse)
  | punchHoleRequest (m : PunchHoleRequest)
  | punchHole (m : PunchHole)
  | punchHoleSent (m : PunchHoleSent)
  | punchHoleResponse (m : PunchHoleResponse)
  | fetchLocalAddr (m : FetchLocalAddr)
  | localAddr (m : LocalAddr)
  | configureUpdate (m : ConfigUpdate)
  | registerPk (m : RegisterPk)
  | registerPkResponse (m : RegisterPkResponse)
  | softwareUpdate (m : SoftwareUpdate)
  | requestRelay (m : RequestRelay)
  | relayResponse (m : RelayResponse)
  | testNatRequest (m : TestNatRequest)
  | testNatResponse (m : TestNatResponse)
  | onlineRequest (m : OnlineRequest)
  | onlineResponse (m : OnlineResponse)
  | keyExchange (m : KeyExchange)
  | other
  deriving DecidableEq

structure RendezvousMessage where
  union : Option Union := none
  deriving DecidableEq

/-- The messages that start a session when a peer receives them. -/
def Union.startsSession : Union → Bool
  | .punchHole _ | .fetchLocalAddr _ | .requestRelay _ => true
  | _ => false

end KustDesk
