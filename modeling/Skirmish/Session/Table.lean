import Skirmish.Control.Message
import Skirmish.Data.SortedMap
import Skirmish.Endpoint
import Skirmish.Random.Generator
/-!
# Sessions

A session lasts from the time a player is admitted until the player leaves. It is known by a token
that only the player is told; the endpoint of the player's datagrams is unknown until the first one
bears the token.

A player is admitted under a valid name that nobody has, if there is a place left, with the lowest
free number (`SessionTable.admission`). The token is the first random word that is neither zero nor
the token of another session.
-/

namespace Skirmish

structure Session where
  playerId : UInt8
  token : UInt32
  username : String
  endpoint : Option Endpoint
deriving DecidableEq, Repr

/-- What a datagram tells about the endpoint of its session. -/
inductive EndpointUpdate where
  /-- It is the first one. -/
  | established
  /-- The one before came from elsewhere. -/
  | moved
  | unchanged
deriving DecidableEq, Repr

def EndpointUpdate.name : EndpointUpdate → String
  | established => "established"
  | moved => "moved"
  | unchanged => "unchanged"

/-- Why a player gets no session. -/
inductive JoinFault where
  | refused (reason : Control.Refusal)
  /-- No word among those that were looked at can be a token. -/
  | noToken
deriving DecidableEq, Repr

structure SessionTable where
  maxPlayers : UInt8
  byToken : SortedMap UInt32 Session
deriving DecidableEq

namespace SessionTable

def empty (maxPlayers : UInt8) : SessionTable := ⟨maxPlayers, ∅⟩

def size (t : SessionTable) : Nat := t.byToken.size

def isEmpty (t : SessionTable) : Bool := t.byToken.isEmpty

def get? (t : SessionTable) (token : UInt32) : Option Session := t.byToken.get? token

/-- The sessions, ascending by player. -/
def sessions (t : SessionTable) : List Session :=
  t.byToken.values.mergeSort fun a b => a.playerId ≤ b.playerId

/-- Someone has a name. -/
def isTaken (t : SessionTable) (username : String) : Bool :=
  t.byToken.values.any fun s => s.username == username

/-- Nobody has a number. -/
def isFree (t : SessionTable) (id : UInt8) : Bool :=
  t.byToken.values.all fun s => s.playerId != id

/-- The numbers that players can have, ascending. -/
def places (t : SessionTable) : List UInt8 :=
  (List.range t.maxPlayers.toNat).map fun n => UInt8.ofNat (n + 1)

/-- The number that a newcomer gets. -/
def admission (t : SessionTable) (username : String) : Except Control.Refusal UInt8 :=
  if !Control.isValidUsername username then .error .invalidUsername
  else if t.isTaken username then .error .alreadyConnected
  else match t.places.find? t.isFree with
    | some id => .ok id
    | none => .error .serverFull

/-- A word can be the token of a new session. -/
def isFresh (t : SessionTable) (token : UInt32) : Bool := token != 0 && !t.byToken.contains token

/-- A new session, if the player is admitted. The token is looked for among `patience` words. -/
def join (t : SessionTable) (patience : Nat) (username : String) (g : Generator) :
    Except JoinFault (Session × SessionTable × Generator) :=
  match t.admission username with
  | .error reason => .error (.refused reason)
  | .ok playerId =>
    match g.find? t.isFresh patience with
    | none => .error .noToken
    | some (token, g) =>
      let session : Session := ⟨playerId, token, username, none⟩
      .ok (session, { t with byToken := t.byToken.insert token session }, g)

/-- Ends a session. -/
def close (t : SessionTable) (token : UInt32) : SessionTable :=
  { t with byToken := t.byToken.erase token }

/-- What a datagram from an endpoint tells about a session. -/
def updateOf (s : Session) (source : Endpoint) : EndpointUpdate :=
  match s.endpoint with
  | none => .established
  | some previous => if previous = source then .unchanged else .moved

/-- A datagram from an endpoint bears a token: whose it is, and what it tells. -/
def touch (t : SessionTable) (token : UInt32) (source : Endpoint) :
    Option ((UInt8 × EndpointUpdate) × SessionTable) :=
  (t.get? token).map fun s =>
    ((s.playerId, updateOf s source),
      { t with byToken := t.byToken.modify token fun s => { s with endpoint := some source } })

end SessionTable

end Skirmish
