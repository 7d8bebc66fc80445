/-
# Network.Sequential — calls one after another

A sequential run applies `sendPacket`, `writeRPCResponse` and the flag changes other code
makes (`Op`) in order (`run`). Each send carries the ID `GenerateMessageId` handed it; the
results below hold whatever those IDs are, repeated ones included.

* `seqNo_counts_marshalled_sends`: the counter moves by 2 on every send that gets past
  `tl.Marshal` — plaintext, nullable and failed writes included — and an encrypted call
  hands `WriteMsg` the new value while a plaintext one hands 0;
* `pending_tables`: after any run from empty tables, the keys of
  `responseChannels` are exactly the IDs of the marshalled non-nullable sends not
  delivered since, whatever their writes did, and a key of `expectedTypes` whose send was
  not nullable is also a key of `responseChannels`.

Poles: `plaintext_send_advances_seqNo` (a handshake message moves the counter),
`failed_write_keeps_slot` (a send that returned an error keeps its reply slot) and
`nullable_hints_leave_types_without_slot` (a `Pong` sent with hints leaves an
`expectedTypes` key with no `responseChannels` key).
-/
import Gogram.Network.Session
import Mathlib.Tactic.Ring

namespace Gogram.Network

set_option autoImplicit false

/-- One step of a sequential run, with what the environment decides for it. The last
three are other code flipping what `sendPacket` reads: the handshake turning encryption
on and service mode off, and `SetTransport`. -/
inductive Op where
  | send (request : Request) (expectedTypes : List TypeHint) (msgID : Int) (writeOk : Bool)
  | deliver (msgID : Int) (data : Obj)
  | setEncrypted (b : Bool)
  | setServiceMode (b : Bool)
  | setTransport (b : Bool)

namespace Op

def apply (m : Session) : Op → Session
  | .send request hints msgID writeOk => (sendPacket m request hints msgID writeOk).1
  | .deliver msgID data => (writeRPCResponse m msgID data).1
  | .setEncrypted b => { m with encrypted := b }
  | .setServiceMode b => { m with serviceModeActivated := b }
  | .setTransport b => { m with transport := b }

/-- The sends that get past `tl.Marshal`, and so reach `UpdateSeqNo`. -/
def marshals : Op → Bool
  | .send request _ _ _ => request.encoded.isSome
  | _ => false

end Op

def run (m : Session) (ops : List Op) : Session := ops.foldl Op.apply m

@[simp] theorem run_nil (m : Session) : run m [] = m := rfl

@[simp] theorem run_append_single (m : Session) (ops : List Op) (op : Op) :
    run m (ops ++ [op]) = op.apply (run m ops) := by
  simp [run, List.foldl_append]

/-! ## What one step does -/

namespace Op

variable (m : Session)

@[simp] theorem apply_seqNo (op : Op) :
    (op.apply m).seqNo = if op.marshals then m.seqNo + 2 else m.seqNo := by
  cases op with
  | send request hints msgID writeOk =>
      cases h : request.encoded
      · simp [apply, marshals, sendPacket_of_encoded_none _ _ _ _ _ h, h]
      · simp [apply, marshals, sendPacket_eq _ _ _ _ _ h, h]
  | deliver msgID data =>
      cases h : m.responseChannels msgID
      · simp [apply, marshals, writeRPCResponse_of_none _ _ _ h]
      · simp [apply, marshals, writeRPCResponse_of_some _ _ _ h]
  | _ => rfl

variable {request : Request} {hints : List TypeHint} {msgID : Int} {writeOk : Bool}

theorem send_responseChannels_ne_none (k : Int) :
    ((send request hints msgID writeOk).apply m).responseChannels k ≠ none ↔
      (request.encoded.isSome ∧ isNullableResponse request = false ∧ k = msgID) ∨
        m.responseChannels k ≠ none := by
  cases he : request.encoded
  · simp [apply, sendPacket_of_encoded_none _ _ _ _ _ he]
  · simp only [apply, sendPacket_eq _ _ _ _ _ he, Option.isSome_some, true_and]
    split <;> by_cases hk : k = msgID <;> simp_all [Function.update_apply]

theorem send_expectedTypes_ne_none (k : Int) :
    ((send request hints msgID writeOk).apply m).expectedTypes k ≠ none ↔
      (request.encoded.isSome ∧ hints ≠ [] ∧ k = msgID) ∨ m.expectedTypes k ≠ none := by
  cases he : request.encoded
  · simp [apply, sendPacket_of_encoded_none _ _ _ _ _ he]
  · simp only [apply, sendPacket_eq _ _ _ _ _ he, Option.isSome_some, true_and]
    split <;> by_cases hk : k = msgID <;> simp_all [Function.update_apply]

variable {data : Obj}

theorem deliver_responseChannels (k : Int) :
    ((deliver msgID data).apply m).responseChannels k =
      if k = msgID then none else m.responseChannels k := by
  cases hr : m.responseChannels msgID
  · simp only [apply, writeRPCResponse_of_none _ _ _ hr]
    split <;> simp_all
  · simp [apply, writeRPCResponse_of_some _ _ _ hr, Function.update_apply]

theorem deliver_expectedTypes (k : Int) :
    ((deliver msgID data).apply m).expectedTypes k =
      if k = msgID ∧ m.responseChannels msgID ≠ none then none else m.expectedTypes k := by
  cases hr : m.responseChannels msgID
  · simp [apply, writeRPCResponse_of_none _ _ _ hr]
  · simp [apply, writeRPCResponse_of_some _ _ _ hr, Function.update_apply]

/-- One step on `responseChannels`: a marshalled non-nullable send of `k` registers it, a
delivery to `k` removes it, and nothing else touches it. -/
theorem apply_responseChannels_ne_none (op : Op) (k : Int) :
    (op.apply m).responseChannels k ≠ none ↔
      (∃ request hints writeOk, op = .send request hints k writeOk ∧ request.encoded.isSome ∧
        isNullableResponse request = false) ∨
      (m.responseChannels k ≠ none ∧ ∀ data, op ≠ .deliver k data) := by
  cases op with
  | send request hints msgID writeOk =>
      rw [send_responseChannels_ne_none]
      constructor
      · rintro (⟨he, hn, rfl⟩ | h)
        · exact .inl ⟨request, hints, writeOk, rfl, he, hn⟩
        · exact .inr ⟨h, fun _ => nofun⟩
      · rintro (⟨_, _, _, ⟨⟩, he, hn⟩ | ⟨h, -⟩)
        · exact .inl ⟨he, hn, rfl⟩
        · exact .inr h
  | deliver msgID data =>
      rw [deliver_responseChannels]
      by_cases hk : k = msgID
      · simp [hk]
      · simp [hk, Ne.symm hk]
  | _ => simp [apply]

/-- One step on `expectedTypes`: only a marshalled send of `k` with hints adds `k`, and a
delivery to `k` keeps it only when `k` had no response channel. -/
theorem apply_expectedTypes_ne_none (op : Op) (k : Int) (h : (op.apply m).expectedTypes k ≠ none) :
    (∃ request hints writeOk, op = .send request hints k writeOk ∧ request.encoded.isSome ∧
        hints ≠ []) ∨
      (m.expectedTypes k ≠ none ∧ ∀ data, op = .deliver k data → m.responseChannels k = none) := by
  cases op with
  | send request hints msgID writeOk =>
      rcases (send_expectedTypes_ne_none m k).mp h with ⟨he, hh, rfl⟩ | h
      · exact .inl ⟨request, hints, writeOk, rfl, he, hh⟩
      · exact .inr ⟨h, fun _ => nofun⟩
  | deliver msgID data =>
      rw [deliver_expectedTypes] at h
      split at h
      · exact absurd rfl h
      · rename_i hc
        refine .inr ⟨h, ?_⟩
        rintro _ ⟨⟩
        simpa using hc
  | _ => exact .inr ⟨h, fun _ => nofun⟩

end Op

/-! ## The counter -/

theorem run_seqNo (m : Session) (ops : List Op) :
    (run m ops).seqNo = m.seqNo + 2 * ((ops.countP Op.marshals : ℕ) : BitVec 32) := by
  induction ops using List.reverseRecOn with
  | nil => simp
  | append_singleton ops op ih =>
      rw [run_append_single, Op.apply_seqNo, ih, List.countP_append]
      cases h : op.marshals <;>
        simp only [h, List.countP_cons, List.countP_nil, if_true, Bool.false_eq_true, if_false] <;>
        push_cast <;> ring

/-- **The sequence counter over a sequential run.** Every send that gets past
`tl.Marshal` adds 2 to `m.seqNo` (in `int32`), whether it is plaintext or encrypted,
nullable or not, and whether its write succeeds; the `k`-th such call hands `WriteMsg`
`seqNo₀ + 2k` when the session is encrypted and 0 when it is not. -/
theorem seqNo_counts_marshalled_sends (m : Session) (ops : List Op) :
    (run m ops).seqNo = m.seqNo + 2 * ((ops.countP Op.marshals : ℕ) : BitVec 32) ∧
    ∀ (pre : List Op) (request : Request) (hints : List TypeHint) (msgID : Int)
      (writeOk : Bool) (msg : Bytes), request.encoded = some msg →
      ∃ sent, (run m (pre ++ [.send request hints msgID writeOk])).wire = (run m pre).wire ++ sent ∧
        ∀ w ∈ sent, w.seqNo = if (run m pre).encrypted
          then m.seqNo + 2 * ((pre.countP Op.marshals + 1 : ℕ) : BitVec 32) else 0 := by
  refine ⟨run_seqNo m ops, fun pre request hints msgID writeOk msg he => ?_⟩
  refine ⟨if (run m pre).transport && writeOk then [⟨frame (run m pre) msg msgID,
      request.requireToAck, zeroSeqNo (run m pre) ((run m pre).seqNo + 2)⟩] else [], ?_, ?_⟩
  · simp only [run_append_single, Op.apply, sendPacket_eq _ _ _ _ _ he]
    split <;> simp
  · intro w hw
    split at hw
    · simp only [List.mem_singleton] at hw
      subst hw
      simp only [zeroSeqNo, run_seqNo]
      split <;> first | rfl | (push_cast; ring)
    · simp at hw

/-! ## The pending tables -/

/-- `ops` issued ID `k` by a send of `request` (with hints `hints`) that got past
`tl.Marshal`, and `post` is what ran after that send. -/
def IssuedBefore (ops : List Op) (k : Int) (request : Request) (hints : List TypeHint)
    (post : List Op) : Prop :=
  ∃ pre writeOk, ops = pre ++ .send request hints k writeOk :: post ∧ request.encoded.isSome

theorem append_single_eq_append_cons {α : Type} {ops pre post : List α} {op x : α} :
    ops ++ [op] = pre ++ x :: post ↔
      (pre = ops ∧ x = op ∧ post = []) ∨ ∃ post', post = post' ++ [op] ∧ ops = pre ++ x :: post' := by
  rw [List.append_eq_append_iff]
  constructor
  · rintro (⟨a', rfl, h⟩ | ⟨_ | ⟨c, c'⟩, rfl, h⟩)
    · rcases a' with _ | ⟨a, a'⟩ <;> simp_all
    · simp_all
    · simp only [List.cons_append, List.cons.injEq] at h
      exact .inr ⟨c', h.2, by rw [h.1]⟩
  · rintro (⟨rfl, rfl, rfl⟩ | ⟨post', rfl, rfl⟩)
    exacts [.inl ⟨[], by simp, rfl⟩, .inr ⟨x :: post', rfl, rfl⟩]

section Issued

variable {ops : List Op} {op : Op} {k : Int} {request : Request} {hints : List TypeHint}
  {post : List Op}

theorem IssuedBefore.append_single (h : IssuedBefore ops k request hints post) :
    IssuedBefore (ops ++ [op]) k request hints (post ++ [op]) := by
  obtain ⟨pre, writeOk, rfl, he⟩ := h
  exact ⟨pre, writeOk, by simp, he⟩

theorem issuedBefore_self {writeOk : Bool} (he : request.encoded.isSome) :
    IssuedBefore (ops ++ [.send request hints k writeOk]) k request hints [] :=
  ⟨ops, writeOk, rfl, he⟩

theorem IssuedBefore.of_append_single (h : IssuedBefore (ops ++ [op]) k request hints post) :
    (post = [] ∧ ∃ writeOk, op = .send request hints k writeOk) ∨
      ∃ post', post = post' ++ [op] ∧ IssuedBefore ops k request hints post' := by
  obtain ⟨pre, writeOk, hops, he⟩ := h
  rcases append_single_eq_append_cons.mp hops with ⟨-, rfl, rfl⟩ | ⟨post', rfl, rfl⟩
  · exact .inl ⟨rfl, writeOk, rfl⟩
  · exact .inr ⟨post', rfl, pre, writeOk, rfl, he⟩

end Issued

/-- What the two tables hold after the run `ops` from `m`. -/
structure Tables (m : Session) (ops : List Op) : Prop where
  pending : ∀ k, (run m ops).responseChannels k ≠ none ↔
    ∃ request hints post, IssuedBefore ops k request hints post ∧
      isNullableResponse request = false ∧ ∀ data, .deliver k data ∉ post
  hinted : ∀ k, (run m ops).expectedTypes k ≠ none →
    ∃ request hints post, IssuedBefore ops k request hints post ∧ hints ≠ [] ∧
      (isNullableResponse request = false → ∀ data, .deliver k data ∉ post)

namespace Tables

variable {m : Session} {ops : List Op}

theorem nil (hr : ∀ k, m.responseChannels k = none) (he : ∀ k, m.expectedTypes k = none) :
    Tables m [] where
  pending k := by
    simp only [run_nil, hr, ne_eq, not_true_eq_false, false_iff]
    rintro ⟨_, _, _, ⟨pre, _, h, _⟩, _⟩
    simp at h
  hinted k := by simp [he]

theorem pending_append_single (op : Op) (k : Int) :
    (∃ request hints post, IssuedBefore (ops ++ [op]) k request hints post ∧
        isNullableResponse request = false ∧ ∀ data, .deliver k data ∉ post) ↔
      (∃ request hints writeOk, op = .send request hints k writeOk ∧ request.encoded.isSome ∧
        isNullableResponse request = false) ∨
      ((∃ request hints post, IssuedBefore ops k request hints post ∧
        isNullableResponse request = false ∧ ∀ data, .deliver k data ∉ post) ∧
        ∀ data, op ≠ .deliver k data) := by
  constructor
  · rintro ⟨request, hints, post, hi, hn, hd⟩
    rcases hi.of_append_single with ⟨rfl, writeOk, rfl⟩ | ⟨post', rfl, hi'⟩
    · obtain ⟨_, _, _, he⟩ := hi
      exact .inl ⟨request, hints, writeOk, rfl, he, hn⟩
    · refine .inr ⟨⟨request, hints, post', hi', hn, fun d hd' => hd d (by simp [hd'])⟩,
        fun d hop => hd d (by simp [hop])⟩
  · rintro (⟨request, hints, writeOk, rfl, he, hn⟩ | ⟨⟨request, hints, post, hi, hn, hd⟩, hop⟩)
    · exact ⟨request, hints, [], issuedBefore_self he, hn, fun _ => List.not_mem_nil _⟩
    · refine ⟨request, hints, post ++ [op], hi.append_single, hn, fun d hd' => ?_⟩
      rcases List.mem_append.mp hd' with h | h
      · exact hd d h
      · exact hop d (List.mem_singleton.mp h).symm

theorem append_single (t : Tables m ops) (op : Op) : Tables m (ops ++ [op]) where
  pending k := by
    rw [run_append_single, Op.apply_responseChannels_ne_none, t.pending, pending_append_single]
  hinted k h := by
    rw [run_append_single] at h
    rcases Op.apply_expectedTypes_ne_none _ op k h with
      ⟨request, hints, writeOk, rfl, he, hh⟩ | ⟨h, hdel⟩
    · exact ⟨request, hints, [], issuedBefore_self he, hh, fun _ _ => List.not_mem_nil _⟩
    · obtain ⟨request, hints, post, hi, hh, hd⟩ := t.hinted k h
      refine ⟨request, hints, post ++ [op], hi.append_single, hh, fun hn d hd' => ?_⟩
      rcases List.mem_append.mp hd' with h' | h'
      · exact hd hn d h'
      · have hnone := hdel d (List.mem_singleton.mp h').symm
        exact (t.pending k).mpr ⟨request, hints, post, hi, hn, hd hn⟩ hnone

theorem run (hr : ∀ k, m.responseChannels k = none) (he : ∀ k, m.expectedTypes k = none) :
    ∀ ops, Tables m ops := by
  intro ops
  induction ops using List.reverseRecOn with
  | nil => exact nil hr he
  | append_singleton ops op ih => exact ih.append_single op

end Tables

/-- **The pending tables over a sequential run.** From empty tables, whatever the
requests, hints, IDs and outcomes: `k` is a key of `responseChannels` exactly when a
non-nullable send of `k` got past `tl.Marshal` and no delivery to `k` ran since — whether
or not that send's write then failed; and a key of `expectedTypes` was issued by a send
with hints, and is a key of `responseChannels` too when that send was not nullable. -/
theorem pending_tables (m : Session) (hr : ∀ k, m.responseChannels k = none)
    (he : ∀ k, m.expectedTypes k = none) (ops : List Op) (k : Int) :
    ((run m ops).responseChannels k ≠ none ↔
      ∃ request hints post, IssuedBefore ops k request hints post ∧
        isNullableResponse request = false ∧ ∀ data, .deliver k data ∉ post) ∧
    ((run m ops).expectedTypes k ≠ none →
      ∃ request hints post, IssuedBefore ops k request hints post ∧ hints ≠ [] ∧
        (isNullableResponse request = false → (run m ops).responseChannels k ≠ none)) := by
  have t := Tables.run hr he ops
  refine ⟨t.pending k, fun h => ?_⟩
  obtain ⟨request, hints, post, hi, hh, hd⟩ := t.hinted k h
  exact ⟨request, hints, post, hi, hh, fun hn => (t.pending k).mpr ⟨request, hints, post, hi, hn, hd hn⟩⟩

/-! ## Poles -/

/-- A plaintext handshake message writes no encrypted frame, yet moves the counter by 2. -/
theorem plaintext_send_advances_seqNo :
    (run handshakeSession [.send reqPQ [] 1 true]).wire = [⟨.unencrypted [] 1, true, 0⟩] ∧
      (run handshakeSession [.send reqPQ [] 1 true]).seqNo = handshakeSession.seqNo + 2 := by
  decide

/-- With no transport, `sendPacket` returns an error and its reply slot stays registered. -/
theorem failed_write_keeps_slot :
    (sendPacket { handshakeSession with transport := false } reqPQ [] 1 true).2 =
        .error .transportNil ∧
      (sendPacket { handshakeSession with transport := false } reqPQ [] 1 true).1.responseChannels 1 =
        some 1 :=
  ⟨rfl, rfl⟩

/-- The first half of the invariant fails too: a nullable request sent with hints adds its
`expectedTypes` entry, and no reply slot is ever registered for it. -/
theorem nullable_hints_leave_types_without_slot :
    (run handshakeSession [.send pingAck [7] 1 true]).expectedTypes 1 = some [7] ∧
      (run handshakeSession [.send pingAck [7] 1 true]).responseChannels 1 = none :=
  ⟨rfl, rfl⟩

theorem pending_tables_after_failed_write :
    (∀ k, handshakeSession.responseChannels k = none) ∧
      (∀ k, handshakeSession.expectedTypes k = none) ∧
      (((run handshakeSession [.setTransport false, .send reqPQ [] 1 true]).responseChannels 1 ≠ none ↔
        ∃ request hints post, IssuedBefore [.setTransport false, .send reqPQ [] 1 true] 1 request hints post ∧
          isNullableResponse request = false ∧ ∀ data, .deliver 1 data ∉ post) ∧
      ((run handshakeSession [.setTransport false, .send reqPQ [] 1 true]).expectedTypes 1 ≠ none →
        ∃ request hints post, IssuedBefore [.setTransport false, .send reqPQ [] 1 true] 1 request hints post ∧
          hints ≠ [] ∧ (isNullableResponse request = false →
            (run handshakeSession [.setTransport false, .send reqPQ [] 1 true]).responseChannels 1 ≠ none))) :=
  ⟨fun _ => rfl, fun _ => rfl,
    pending_tables handshakeSession (fun _ => rfl) (fun _ => rfl) [.setTransport false, .send reqPQ [] 1 true] 1⟩

end Gogram.Network
