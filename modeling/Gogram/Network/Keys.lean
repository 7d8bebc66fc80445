/-
# Network.Keys — the auth key, its hash, and the stored session

`SetAuthKey` installs a key and its `utils.AuthKeyHash`; `sendPacket` puts
`m.authKeyHash` into every encrypted frame. `SaveSession` hands the storage the key, the
hash, the salt, the address and the app ID; `LoadSession` copies them back, hash
included, without recomputing it; `DeleteSession` empties the storage. `AuthKeyHash`
itself is taken as given (`keyHash`), and the storage's `Store` and `Delete` may fail,
leaving it as it was.

* `encrypted_frames_carry_key_hash`: from a state whose hashes agree with their keys,
  along any run of calls and key operations that loads only sessions whose hash is their
  key's (the stored one is such), every encrypted frame a send builds carries the hash of
  the key in force.
-/
import Gogram.Network.Sequential

namespace Gogram.Network

set_option autoImplicit false

/-- `session.Session`: what `SaveSession` stores and `LoadSession` reads. -/
structure StoredSession where
  key : Bytes
  hash : Bytes
  salt : BitVec 64
  hostname : String
  appID : BitVec 32
  deriving DecidableEq, Repr

/-- The fields of `MTProto` the key functions touch, around the `Session` fields the calls
use (`authKeyHash` among them), and what `sessionStorage` holds. -/
structure MTProto where
  session : Session
  authKey : Bytes
  serverSalt : BitVec 64
  addr : String
  appID : BitVec 32
  stored : Option StoredSession

section Operations

-- `utils.AuthKeyHash`
variable (keyHash : Bytes → Bytes)

/-- `SetAuthKey(key)`. -/
def setAuthKey (m : MTProto) (key : Bytes) : MTProto :=
  { m with authKey := key, session := { m.session with authKeyHash := keyHash key } }

/-- The `&session.Session{...}` literal `SaveSession` builds. -/
def MTProto.saved (m : MTProto) : StoredSession :=
  ⟨m.authKey, m.session.authKeyHash, m.serverSalt, m.addr, m.appID⟩

/-- `SaveSession()`: `Store` of the five fields, which leaves the storage as it was when it
fails. -/
def saveSession (m : MTProto) (storeOk : Bool) : MTProto :=
  if storeOk then { m with stored := some m.saved } else m

/-- `DeleteSession()`. -/
def deleteSession (m : MTProto) (deleteOk : Bool) : MTProto :=
  if deleteOk then { m with stored := none } else m

/-- `LoadSession(s)`: the five fields, the hash copied as it is. -/
def loadSession (m : MTProto) (s : StoredSession) : MTProto :=
  { m with
      authKey := s.key
      session := { m.session with authKeyHash := s.hash }
      serverSalt := s.salt
      addr := s.hostname
      appID := s.appID }

/-- One step: a call of `Network.Sequential`, or a key operation. -/
inductive KeyOp where
  | call (op : Op)
  | setAuthKey (key : Bytes)
  | saveSession (storeOk : Bool)
  | deleteSession (deleteOk : Bool)
  | loadSession (s : StoredSession)

def KeyOp.apply (m : MTProto) : KeyOp → MTProto
  | .call op => { m with session := op.apply m.session }
  | .setAuthKey key => Network.setAuthKey keyHash m key
  | .saveSession storeOk => Network.saveSession m storeOk
  | .deleteSession deleteOk => Network.deleteSession m deleteOk
  | .loadSession s => Network.loadSession m s

def runKeys (m : MTProto) (ops : List KeyOp) : MTProto := ops.foldl (KeyOp.apply keyHash) m

/-- A load of a session whose hash is its key's; every other step. -/
def KeyOp.Checked : KeyOp → Prop
  | .loadSession s => s.hash = keyHash s.key
  | _ => True

end Operations

/-! ## The calls leave the keys alone -/

@[simp]
theorem sendPacket_authKeyHash (m : Session) (request : Request) (hints : List TypeHint) (msgID : Int)
    (writeOk : Bool) : (sendPacket m request hints msgID writeOk).1.authKeyHash = m.authKeyHash := by
  cases h : request.encoded with
  | none => rw [sendPacket_of_encoded_none m request hints msgID writeOk h]
  | some msg => rw [sendPacket_eq m request hints msgID writeOk h]

@[simp]
theorem Op.apply_authKeyHash (m : Session) (op : Op) : (op.apply m).authKeyHash = m.authKeyHash := by
  cases op with
  | send request hints msgID writeOk => exact sendPacket_authKeyHash m request hints msgID writeOk
  | deliver msgID data =>
    show (writeRPCResponse m msgID data).1.authKeyHash = _
    unfold writeRPCResponse
    split <;> rfl
  | _ => rfl

section Runs

variable (keyHash : Bytes → Bytes)

/-- The hash in force is the hash of the key in force, and so is the stored session's. -/
structure KeysAgree (m : MTProto) : Prop where
  current : m.session.authKeyHash = keyHash m.authKey
  stored : ∀ s, m.stored = some s → s.hash = keyHash s.key

variable {keyHash}

theorem KeysAgree.step {m : MTProto} (h : KeysAgree keyHash m) {op : KeyOp} (hop : op.Checked keyHash) :
    KeysAgree keyHash (op.apply keyHash m) := by
  cases op with
  | call op =>
    show KeysAgree keyHash { m with session := op.apply m.session }
    exact ⟨(Op.apply_authKeyHash m.session op).trans h.current, h.stored⟩
  | setAuthKey key => exact ⟨rfl, h.stored⟩
  | saveSession storeOk =>
    cases storeOk
    · exact h
    · refine ⟨h.current, fun s hs => ?_⟩
      obtain rfl : m.saved = s := Option.some.inj hs
      exact h.current
  | deleteSession deleteOk =>
    cases deleteOk
    · exact h
    · exact ⟨h.current, fun s hs => Option.noConfusion hs⟩
  | loadSession s => exact ⟨hop, h.stored⟩

theorem KeysAgree.run {m : MTProto} (h : KeysAgree keyHash m) :
    ∀ {ops : List KeyOp}, (∀ op ∈ ops, op.Checked keyHash) → KeysAgree keyHash (runKeys keyHash m ops)
  | [], _ => h
  | op :: _, hops =>
    (h.step (hops op (List.mem_cons_self _ _))).run fun o ho => hops o (List.mem_cons_of_mem _ ho)

/-- **Every encrypted frame carries the hash of the key in force.** Along any run of calls,
`SetAuthKey`, `SaveSession`, `DeleteSession` and `LoadSession`s of sessions whose hash is
their key's, from a state where both hashes agree with their keys, the frame a send builds
at the end of the run on an encrypted session carries `AuthKeyHash` of the auth key then in
force. -/
theorem encrypted_frames_carry_key_hash {m : MTProto} (h : KeysAgree keyHash m) {ops : List KeyOp}
    (hops : ∀ op ∈ ops, op.Checked keyHash) (henc : (runKeys keyHash m ops).session.encrypted = true)
    (msg : Bytes) (msgID : Int) :
    frame (runKeys keyHash m ops).session msg msgID =
      .encrypted msg msgID (keyHash (runKeys keyHash m ops).authKey) := by
  rw [frame, if_pos henc, (h.run hops).current]

/-! ## Poles -/

/-- A plaintext session with no key yet and nothing stored. -/
def keylessStart : MTProto := ⟨handshakeSession, [], 0, "", 0, none⟩

/-- The handshake turns encryption on and installs a key. -/
def handshakeKeyOps : List KeyOp := [.call (.setEncrypted true), .setAuthKey [1, 2, 3]]

theorem frame_after_handshake :
    KeysAgree List.reverse keylessStart ∧ (∀ op ∈ handshakeKeyOps, op.Checked List.reverse) ∧
      (runKeys List.reverse keylessStart handshakeKeyOps).session.encrypted = true ∧
      frame (runKeys List.reverse keylessStart handshakeKeyOps).session [7] 4 =
        .encrypted [7] 4 (List.reverse (runKeys List.reverse keylessStart handshakeKeyOps).authKey) :=
  have h : KeysAgree List.reverse keylessStart := ⟨rfl, fun _ hs => Option.noConfusion hs⟩
  have hops : ∀ op ∈ handshakeKeyOps, op.Checked List.reverse := by
    simp [handshakeKeyOps, KeyOp.Checked]
  ⟨h, hops, rfl, encrypted_frames_carry_key_hash h hops rfl [7] 4⟩

end Runs

end Gogram.Network
