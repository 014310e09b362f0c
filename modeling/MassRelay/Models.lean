/-!
# MassRelay.Models

The wire messages of `protos/massrelay/v1/models/collab.proto`, as the relay and
the browser client both see them.

A `CollabAction` goes from a client to the relay and a `CollabEvent` the other
way; each carries at most one message of its `oneof`. A protobuf map is a list
of its entries, and a metadata map keeps Go's distinction between a nil map and
a present one (`Metadata`). The float coordinates of a cursor are their 32 bits,
since nothing here computes with them. The timestamps (`timestamp`,
`server_timestamp`, `created_at`) are left out: no modelled function reads them.
-/

namespace MassRelay

/-- `map<string, string>` of application-defined pairs; `none` is Go's nil map. -/
abbrev Metadata := Option (List (String × String))

/-- Who a peer is according to the token of its connection. -/
structure PeerIdentity where
  subject : String
  clientId : String
  deriving DecidableEq

/-- What the other peers of a room are told about a client. -/
structure PeerInfo where
  clientId : String
  username : String
  avatarUrl : String
  clientType : String
  isActive : Bool
  isOwner : Bool
  metadata : Metadata
  identity : Option PeerIdentity
  deriving DecidableEq

/-! ### Client to relay -/

structure JoinRoom where
  sessionId : String := ""
  username : String := ""
  metadata : Metadata := none
  clientType : String := ""
  avatarUrl : String := ""
  isOwner : Bool := false
  browserId : String := ""
  clientHint : String := ""
  protocolVersion : Int := 0
  encrypted : Bool := false
  title : String := ""
  mustExist : Bool := false
  deriving DecidableEq

structure LeaveRoom where
  reason : String
  deriving DecidableEq

structure PresenceUpdate where
  isActive : Bool
  username : String
  deriving DecidableEq

structure ElementUpdate where
  id : String
  version : Int
  versionNonce : Int
  data : String
  deleted : Bool
  deriving DecidableEq

structure SceneUpdate where
  elements : List ElementUpdate
  deriving DecidableEq

structure CursorUpdate where
  x : UInt32
  y : UInt32
  tool : String
  button : String
  selectedElementIds : List (String × Bool)
  deriving DecidableEq

structure TextUpdate where
  text : String
  version : Int
  cursorPosition : Int
  deriving DecidableEq

structure SceneInitResponse where
  payload : String
  deriving DecidableEq

structure CredentialsChanged where
  reason : String
  deriving DecidableEq

structure TitleChanged where
  title : String
  deriving DecidableEq

/-- A generic application message; `toClientIds` empty means the whole room. -/
structure AppMessage where
  kind : String
  payload : List UInt8
  toClientIds : List String
  deriving DecidableEq

/-- The `oneof action` of a `CollabAction`. -/
inductive Action
  | join (join : JoinRoom)
  | leave (leave : LeaveRoom)
  | presence (presence : PresenceUpdate)
  | sceneUpdate (sceneUpdate : SceneUpdate)
  | cursorUpdate (cursorUpdate : CursorUpdate)
  | textUpdate (textUpdate : TextUpdate)
  | sceneInitRequest
  | sceneInitResponse (sceneInitResponse : SceneInitResponse)
  | credentialsChanged (credentialsChanged : CredentialsChanged)
  | titleChanged (titleChanged : TitleChanged)
  | appMessage (appMessage : AppMessage)
  deriving DecidableEq

/-- `action` is `none` when no field of the `oneof` is set. -/
structure CollabAction where
  actionId : String := ""
  clientId : String := ""
  action : Option Action
  deriving DecidableEq

/-! ### Relay to client -/

/-- The state of a room as a joining client is told it. -/
structure Room where
  sessionId : String
  peers : List (String × PeerInfo)
  ownerClientId : String
  metadata : Metadata
  encrypted : Bool
  title : String
  deriving DecidableEq

structure RoomJoined where
  clientId : String
  room : Room
  maxPeers : Int
  protocolVersion : Int
  deriving DecidableEq

structure PeerLeft where
  clientId : String
  reason : String
  peerCount : Nat
  deriving DecidableEq

structure ErrorEvent where
  code : String
  message : String
  deriving DecidableEq

/-- The `oneof event` of a `CollabEvent`. -/
inductive Event
  | roomJoined (roomJoined : RoomJoined)
  | peerJoined (peer : PeerInfo)
  | peerLeft (peerLeft : PeerLeft)
  | presence (presence : PresenceUpdate)
  | sceneUpdate (sceneUpdate : SceneUpdate)
  | cursorUpdate (cursorUpdate : CursorUpdate)
  | textUpdate (textUpdate : TextUpdate)
  | sceneInitResponse (sceneInitResponse : SceneInitResponse)
  | error (error : ErrorEvent)
  | sceneInitRequest
  | sessionEnded (reason : String)
  | ownerChanged (newOwnerClientId : String)
  | credentialsChanged (credentialsChanged : CredentialsChanged)
  | titleChanged (titleChanged : TitleChanged)
  | appMessage (appMessage : AppMessage)
  deriving DecidableEq

structure CollabEvent where
  eventId : String
  fromClientId : String := ""
  event : Event
  deriving DecidableEq

/-- Whether the event tells of a peer joining. -/
def CollabEvent.isPeerJoined (e : CollabEvent) : Bool :=
  match e.event with
  | .peerJoined _ => true
  | _ => false

end MassRelay
