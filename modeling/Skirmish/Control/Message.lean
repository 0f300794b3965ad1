import Skirmish.Text.Numeral
import Skirmish.Text.Word
/-!
# Control messages

The control channel sets sessions up and takes them down. A message is one line of text: a keyword
and fields of the form `key=value`, separated by blanks. `Message.toLine` writes the normal form;
`Message.ofLine` reads any line: the order of the fields and the blanks between them do not matter,
fields that a message does not use are passed over, and of a repeated field the last one counts.
-/

namespace Skirmish.Control

/-- Why a player is turned away. -/
inductive Refusal where
  | serverFull
  | invalidUsername
  | alreadyConnected
deriving DecidableEq, Repr, Inhabited

inductive Message where
  | connect (username version : String)
  | disconnect
  | connectOk (playerId : UInt8) (token : UInt32) (udpPort : UInt16)
  | connectError (reason : Refusal)
  | disconnectOk
  | playerJoin (playerId : UInt8) (username : String)
  | playerLeave (playerId : UInt8)
deriving DecidableEq, Repr, Inhabited

/-- Why a line is no message. -/
inductive Error where
  | empty
  | unknownType (keyword : String)
  | missingField (field : String)
  | invalidField (field value : String)
deriving DecidableEq, Repr

def Error.message : Error → String
  | empty => "empty control line"
  | unknownType keyword => "unknown control message `" ++ keyword ++ "`"
  | missingField field => "missing field `" ++ field ++ "`"
  | invalidField field value => "invalid value `" ++ value ++ "` for field `" ++ field ++ "`"

/-! ## Refusals -/

namespace Refusal

def text : Refusal → String
  | serverFull => "server_full"
  | invalidUsername => "invalid_username"
  | alreadyConnected => "already_connected"

def ofText (text : String) : Except Error Refusal :=
  if text = "server_full" then .ok serverFull
  else if text = "invalid_username" then .ok invalidUsername
  else if text = "already_connected" then .ok alreadyConnected
  else .error (.invalidField "reason" text)

@[simp]
theorem ofText_text (r : Refusal) : ofText r.text = .ok r := by
  cases r <;> rfl

end Refusal

/-! ## Fields of a line -/

/-- A line taken apart: its first word, and its fields in the order they stand. -/
structure Line where
  keyword : String
  fields : List (String × String)
deriving DecidableEq, Repr

namespace Line

/-- The field that a word holds, cut at the first `=`; a word without one holds none. -/
def fieldOfWord (word : List Char) : Option (String × String) :=
  (Text.splitFirst '=' word).map fun (key, value) => (String.ofList key, String.ofList value)

/-- There is nothing to take apart in a line of blanks. -/
def ofText? (text : String) : Option Line :=
  match Text.words text.toList with
  | [] => none
  | keyword :: rest => some ⟨String.ofList keyword, rest.filterMap fieldOfWord⟩

/-- The value of a field, the last one if it is repeated. -/
def value? (line : Line) (key : String) : Option String :=
  (line.fields.reverse.find? (·.1 = key)).map Prod.snd

def value (line : Line) (key : String) : Except Error String :=
  match line.value? key with
  | some v => .ok v
  | none => .error (.missingField key)

/-- A field that is a 32-bit number written in a base. -/
def number (line : Line) (key : String) (base : Nat) : Except Error Nat := do
  let raw ← line.value key
  match Text.readBelow UInt32.size base raw.toList with
  | some n => return n
  | none => throw (.invalidField key raw)

/-- The field `id`; a number that is too large for it is reported in its decimal form. -/
def playerId (line : Line) : Except Error UInt8 := do
  let n ← line.number "id" 10
  if n < UInt8.size then return UInt8.ofNat n
  else throw (.invalidField "id" (toString n))

def token (line : Line) : Except Error UInt32 := do
  return UInt32.ofNat (← line.number "token" 16)

/-- The field `udp_port`; a number that is too large for it is reported as it stands. -/
def udpPort (line : Line) : Except Error UInt16 := do
  let n ← line.number "udp_port" 10
  if n < UInt16.size then return UInt16.ofNat n
  else throw (.invalidField "udp_port" ((line.value? "udp_port").getD ""))

end Line

/-! ## Messages -/

namespace Message

/-- The version of a peer that does not give one. -/
def defaultVersion : String := "1"

/-- What a line says, its fields read in the order of the constructor. -/
def ofFields (line : Line) : Except Error Message :=
  match line.keyword with
  | "CONNECT" => do
    let username ← line.value "username"
    return connect username ((line.value? "version").getD defaultVersion)
  | "DISCONNECT" => .ok disconnect
  | "CONNECT_OK" => do
    let playerId ← line.playerId
    let token ← line.token
    let udpPort ← line.udpPort
    return connectOk playerId token udpPort
  | "CONNECT_ERROR" => do
    let reason ← line.value "reason"
    return connectError (← Refusal.ofText reason)
  | "DISCONNECT_OK" => .ok disconnectOk
  | "PLAYER_JOIN" => do
    let playerId ← line.playerId
    let username ← line.value "username"
    return playerJoin playerId username
  | "PLAYER_LEAVE" => do
    return playerLeave (← line.playerId)
  | other => .error (.unknownType other)

def ofLine (text : String) : Except Error Message :=
  match Line.ofText? text with
  | some line => ofFields line
  | none => .error .empty

def toLine : Message → String
  | connect username version => "CONNECT username=" ++ username ++ " version=" ++ version
  | disconnect => "DISCONNECT"
  | connectOk playerId token udpPort =>
    "CONNECT_OK id=" ++ toString playerId.toNat ++
      " token=" ++ String.ofList (Text.writeNumeral 16 token.toNat) ++
      " udp_port=" ++ toString udpPort.toNat
  | connectError reason => "CONNECT_ERROR reason=" ++ reason.text
  | disconnectOk => "DISCONNECT_OK"
  | playerJoin playerId username =>
    "PLAYER_JOIN id=" ++ toString playerId.toNat ++ " username=" ++ username
  | playerLeave playerId => "PLAYER_LEAVE id=" ++ toString playerId.toNat

end Message

/-! ## User names -/

/-- A name has one to sixteen characters, none of them blank, a control character or `=`, so it is
one word of a line and the value of one field. -/
def isValidUsername (name : String) : Bool :=
  let text := name.toList
  1 ≤ text.length && text.length ≤ 16 &&
    !text.any fun c => Text.isBlank c || c == '=' || Text.isControl c

end Skirmish.Control
