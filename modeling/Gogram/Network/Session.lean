/-
# Network.Session — one MTProto session, call by call

`network.go` keeps a session's counters and tables in `MTProto` and mutates them from
`sendPacket` and `writeRPCResponse`. This module is the sequential reading of those two
functions: each is a function of the session record and of what the environment decides
for it (the result of `tl.Marshal`, the value `GenerateMessageId` returns, the outcome of
`WriteMsg`).

`sendPacket` is written as the composition of its statements (`addExpectedTypes`,
`getRespChannel`, `registerResponse`, `frame`, `updateSeqNo`, `writeFrame`), and
`writeRPCResponse` as the composition of its own (`putResponse`, `dropResponseChannel`,
`dropExpectedTypes`), so that `Network.Interleaving` can run the same statements one at a
time between other threads.
The record also holds the part of the world the session writes to: the channels `make`
has handed out and what has been put on them, the goroutines of the nullable path, and
the frames the transport accepted.
-/
import Mathlib.Data.BitVec
import Mathlib.Logic.Function.Basic

namespace Gogram.Network

set_option autoImplicit false

/-- Raw bytes, as `tl.Marshal` produces them. -/
abbrev Bytes := List UInt8

/-- A `reflect.Type` handed to `sendPacket` as a decoding hint, by identity. -/
abbrev TypeHint := Nat

/-- A channel of `tl.Object`, by the order in which `make` created it. -/
abbrev Chan := Nat

/-- The request types `sendPacket` tells apart: `isNullableResponse` names
`*objects.Pong` and `*objects.MsgsAck`. -/
inductive Kind where
  | pong
  | msgsAck
  | other
  deriving DecidableEq, Repr

/-- A request as `sendPacket` reads it: its type, whether `MessageRequireToAck` holds of
it, and what `tl.Marshal` returns for it (`none` for an error). -/
structure Request where
  kind : Kind
  requireToAck : Bool
  encoded : Option Bytes
  deriving DecidableEq, Repr

/-- A `tl.Object` travelling on a reply channel; `null` is `&objects.Null{}`. -/
inductive Obj where
  | null
  | object (tag : Nat)
  deriving DecidableEq, Repr

/-- `messages.Encrypted` or `messages.Unencrypted`. -/
inductive Frame where
  | encrypted (msg : Bytes) (msgID : Int) (authKeyHash : Bytes)
  | unencrypted (msg : Bytes) (msgID : Int)
  deriving DecidableEq, Repr

/-- The message ID a frame carries. -/
def Frame.msgID : Frame → Int
  | .encrypted _ msgID _ => msgID
  | .unencrypted _ msgID => msgID

/-- The arguments of one accepted `transport.WriteMsg(data, requireToAck, seqNo)`. -/
structure Written where
  data : Frame
  requireToAck : Bool
  seqNo : BitVec 32
  deriving DecidableEq, Repr

/-- The errors `sendPacket` returns, by the text each one starts with. -/
inductive SendError where
  | marshaling
  | transportNil
  | writing
  deriving DecidableEq, Repr

/-- Results compared by `decide` in the concrete runs. -/
instance decEqExcept {ε α : Type} [DecidableEq ε] [DecidableEq α] : DecidableEq (Except ε α)
  | .error a, .error b => if h : a = b then isTrue (h ▸ rfl) else isFalse fun e => by cases e; exact h rfl
  | .ok a, .ok b => if h : a = b then isTrue (h ▸ rfl) else isFalse fun e => by cases e; exact h rfl
  | .error _, .ok _ => isFalse fun e => by cases e
  | .ok _, .error _ => isFalse fun e => by cases e

def SendError.text : SendError → String
  | .marshaling => "marshaling request"
  | .transportNil => "transport is nil, please use SetTransport"
  | .writing => "writing message"

/-- `writeRPCResponse`'s error for an ID with no response channel. -/
def noResponseChannel (msgID : Int) : String :=
  "no response channel found for messageId " ++ toString msgID

/-- The fields of `MTProto` that `sendPacket` and `writeRPCResponse` read or write, and
the world they write to. Message IDs are `int64` values and `int(msgID)` is the identity
on the 64-bit targets, so both are `Int`; `seqNo` is the `int32` counter. -/
structure Session where
  lastMessageID : Int
  seqNo : BitVec 32
  encrypted : Bool
  authKeyHash : Bytes
  serviceModeActivated : Bool
  serviceChannel : Chan
  /-- `m.transport != nil`. -/
  transport : Bool
  expectedTypes : Int → Option (List TypeHint)
  responseChannels : Int → Option Chan
  /-- Channels below this one have been made. -/
  nextChannel : Chan
  /-- The values put on each channel and not yet received, oldest first. -/
  channels : Chan → List Obj
  /-- Goroutines `go func() { resp <- &objects.Null{} }()` not yet run, by channel. -/
  spawned : List Chan
  /-- What the transport accepted, oldest first. -/
  wire : List Written

/-- A value put on channel `ch`. -/
def push (channels : Chan → List Obj) (ch : Chan) (v : Obj) : Chan → List Obj :=
  Function.update channels ch (channels ch ++ [v])

/-! ## The statements of `sendPacket` -/

/-- `if len(expectedTypes) > 0 { m.expectedTypes.Add(int(msgID), expectedTypes) }`. -/
def addExpectedTypes (m : Session) (msgID : Int) (expectedTypes : List TypeHint) : Session :=
  if expectedTypes = [] then m
  else { m with expectedTypes := Function.update m.expectedTypes msgID (some expectedTypes) }

/-- `getRespChannel`: the shared service channel in service mode, a fresh one otherwise. -/
def getRespChannel (m : Session) : Session × Chan :=
  if m.serviceModeActivated then (m, m.serviceChannel)
  else ({ m with nextChannel := m.nextChannel + 1 }, m.nextChannel)

def isNullableResponse (request : Request) : Bool :=
  match request.kind with
  | .pong | .msgsAck => true
  | .other => false

/-- The nullable branch spawns the goroutine that puts `Null` on `resp`; every other
request registers `resp` under its message ID. -/
def registerResponse (m : Session) (request : Request) (msgID : Int) (resp : Chan) : Session :=
  if isNullableResponse request then { m with spawned := m.spawned ++ [resp] }
  else { m with responseChannels := Function.update m.responseChannels msgID (some resp) }

/-- The envelope: the auth-key hash goes in only when the session is encrypted. -/
def frame (m : Session) (msg : Bytes) (msgID : Int) : Frame :=
  if m.encrypted then .encrypted msg msgID m.authKeyHash else .unencrypted msg msgID

@[simp]
theorem frame_msgID (m : Session) (msg : Bytes) (msgID : Int) : (frame m msg msgID).msgID = msgID := by
  unfold frame; split <;> rfl

/-- `UpdateSeqNo`: under `seqNoMutex`, `m.seqNo += 2` in `int32`, and the new value. -/
def updateSeqNo (m : Session) : Session × BitVec 32 :=
  ({ m with seqNo := m.seqNo + 2 }, m.seqNo + 2)

/-- `if !m.encrypted { seqNo = 0 }`. -/
def zeroSeqNo (m : Session) (seqNo : BitVec 32) : BitVec 32 :=
  if m.encrypted then seqNo else 0

/-- The nil-transport check and `WriteMsg`, whose outcome the transport decides. -/
def writeFrame (m : Session) (w : Written) (writeOk : Bool) (resp : Chan) :
    Session × Except SendError Chan :=
  if m.transport then
    if writeOk then ({ m with wire := m.wire ++ [w] }, .ok resp) else (m, .error .writing)
  else (m, .error .transportNil)

/-- `sendPacket(request, expectedTypes...)`, where `msgID` is what `GenerateMessageId`
returned and `writeOk` what `WriteMsg` reported. -/
def sendPacket (m : Session) (request : Request) (expectedTypes : List TypeHint) (msgID : Int)
    (writeOk : Bool) : Session × Except SendError Chan :=
  match request.encoded with
  | none => (m, .error .marshaling)
  | some msg =>
      let m₁ := addExpectedTypes { m with lastMessageID := msgID } msgID expectedTypes
      let m₂ := registerResponse (getRespChannel m₁).1 request msgID (getRespChannel m₁).2
      let data := frame m₂ msg msgID
      let m₃ := (updateSeqNo m₂).1
      writeFrame m₃ ⟨data, request.requireToAck, zeroSeqNo m₃ (updateSeqNo m₂).2⟩ writeOk
        (getRespChannel m₁).2

/-! ## The statements of `writeRPCResponse` -/

/-- `v <- data`. -/
@[simp]
def putResponse (m : Session) (v : Chan) (data : Obj) : Session :=
  { m with channels := push m.channels v data }

/-- `m.responseChannels.Delete(msgID)`. -/
@[simp]
def dropResponseChannel (m : Session) (msgID : Int) : Session :=
  { m with responseChannels := Function.update m.responseChannels msgID none }

/-- `m.expectedTypes.Delete(msgID)`. -/
@[simp]
def dropExpectedTypes (m : Session) (msgID : Int) : Session :=
  { m with expectedTypes := Function.update m.expectedTypes msgID none }

/-- `writeRPCResponse(msgID, data)`: look the channel up, put `data` on it, and drop both
table entries. -/
def writeRPCResponse (m : Session) (msgID : Int) (data : Obj) : Session × Except String Unit :=
  match m.responseChannels msgID with
  | none => (m, .error (noResponseChannel msgID))
  | some v => (dropExpectedTypes (dropResponseChannel (putResponse m v data) msgID) msgID, .ok ())

/-! ## Each statement as a record update -/

section Statements

variable (m : Session) (msgID : Int)

theorem addExpectedTypes_eq (hints : List TypeHint) :
    addExpectedTypes m msgID hints =
      { m with expectedTypes :=
          if hints = [] then m.expectedTypes
          else Function.update m.expectedTypes msgID (some hints) } := by
  unfold addExpectedTypes; split <;> rfl

theorem getRespChannel_eq :
    getRespChannel m =
      ({ m with nextChannel := if m.serviceModeActivated then m.nextChannel else m.nextChannel + 1 },
        if m.serviceModeActivated then m.serviceChannel else m.nextChannel) := by
  unfold getRespChannel; split <;> rfl

theorem registerResponse_eq (request : Request) (resp : Chan) :
    registerResponse m request msgID resp =
      { m with
          spawned := if isNullableResponse request then m.spawned ++ [resp] else m.spawned
          responseChannels := if isNullableResponse request then m.responseChannels
            else Function.update m.responseChannels msgID (some resp) } := by
  unfold registerResponse; split <;> rfl

@[simp]
theorem registerResponse_wire (request : Request) (resp : Chan) :
    (registerResponse m request msgID resp).wire = m.wire := by
  rw [registerResponse_eq]

@[simp]
theorem registerResponse_serviceModeActivated (request : Request) (resp : Chan) :
    (registerResponse m request msgID resp).serviceModeActivated = m.serviceModeActivated := by
  rw [registerResponse_eq]

theorem writeFrame_eq (w : Written) (writeOk : Bool) (resp : Chan) :
    writeFrame m w writeOk resp =
      ({ m with wire := if m.transport && writeOk then m.wire ++ [w] else m.wire },
        if m.transport then if writeOk then .ok resp else .error .writing
        else .error .transportNil) := by
  obtain ⟨_, _, _, _, _, _, transport, _⟩ := m
  cases transport <;> cases writeOk <;> rfl

end Statements

/-- **`sendPacket`, once `tl.Marshal` succeeded**: every field it writes, and what it
returns. The counter moves and the tables are written before the transport is looked
at, so they move whatever `WriteMsg` does. -/
theorem sendPacket_eq (m : Session) (request : Request) (hints : List TypeHint) (msgID : Int)
    (writeOk : Bool) {msg : Bytes} (h : request.encoded = some msg) :
    let resp := if m.serviceModeActivated then m.serviceChannel else m.nextChannel
    sendPacket m request hints msgID writeOk =
      ({ m with
          lastMessageID := msgID
          seqNo := m.seqNo + 2
          expectedTypes := if hints = [] then m.expectedTypes
            else Function.update m.expectedTypes msgID (some hints)
          responseChannels := if isNullableResponse request then m.responseChannels
            else Function.update m.responseChannels msgID (some resp)
          nextChannel := if m.serviceModeActivated then m.nextChannel else m.nextChannel + 1
          spawned := if isNullableResponse request then m.spawned ++ [resp] else m.spawned
          wire := if m.transport && writeOk then
              m.wire ++ [⟨frame m msg msgID, request.requireToAck, zeroSeqNo m (m.seqNo + 2)⟩]
            else m.wire },
        if m.transport then if writeOk then .ok resp else .error .writing
        else .error .transportNil) := by
  simp only [sendPacket, h, addExpectedTypes_eq, getRespChannel_eq, registerResponse_eq,
    updateSeqNo, writeFrame_eq, frame, zeroSeqNo]

theorem writeRPCResponse_of_none (m : Session) (msgID : Int) (data : Obj)
    (h : m.responseChannels msgID = none) :
    writeRPCResponse m msgID data = (m, .error (noResponseChannel msgID)) := by
  simp [writeRPCResponse, h]

theorem writeRPCResponse_of_some (m : Session) (msgID : Int) (data : Obj) {ch : Chan}
    (h : m.responseChannels msgID = some ch) :
    writeRPCResponse m msgID data =
      ({ m with
          channels := push m.channels ch data
          responseChannels := Function.update m.responseChannels msgID none
          expectedTypes := Function.update m.expectedTypes msgID none }, .ok ()) := by
  simp [writeRPCResponse, h]

theorem sendPacket_of_encoded_none (m : Session) (request : Request) (hints : List TypeHint)
    (msgID : Int) (writeOk : Bool) (h : request.encoded = none) :
    sendPacket m request hints msgID writeOk = (m, .error .marshaling) := by
  simp [sendPacket, h]

/-! ## A session to run on -/

/-- A session before the handshake: plaintext, counter at 0, transport set, empty tables. -/
def handshakeSession : Session where
  lastMessageID := 0
  seqNo := 0
  encrypted := false
  authKeyHash := []
  serviceModeActivated := false
  serviceChannel := 0
  transport := true
  expectedTypes := fun _ => none
  responseChannels := fun _ => none
  nextChannel := 1
  channels := fun _ => []
  spawned := []
  wire := []

/-- `req_pq_multi`: not nullable, acknowledged, marshals to an (elided) body. -/
def reqPQ : Request := ⟨.other, true, some []⟩

/-- A `Pong`: nullable, not acknowledged, marshals to an (elided) body. -/
def pingAck : Request := ⟨.pong, false, some []⟩

end Gogram.Network
