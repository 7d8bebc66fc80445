/-
# Network.Interleaving — concurrent callers and the inbound path

`sendPacket` runs on many goroutines at once, `writeRPCResponse` on the one goroutine
that reads the connection. This module splits both into their accesses to shared state
and lets them interleave in any order.

A caller is a `sendPacket` call with its program counter `Pc`; each constructor carries
exactly the locals live at that point (`msg`, `msgID`, `resp`, `data`, `seqNo`). One
`Caller.step` runs one statement of `Session` — the same `addExpectedTypes`,
`getRespChannel`, `registerResponse`, `frame`, `updateSeqNo`, `zeroSeqNo` and `writeFrame`
the sequential `sendPacket` is made of — so a caller that runs alone does exactly what
`sendPacket` does (`solo_sendPacket`). The lock around `GenerateMessageId` makes that call
one step (`Label.genId`, which picks any value above the `lastMessageID` it reads);
`UpdateSeqNo` is one step for the same reason. The store `m.lastMessageID = msgID` comes
after `Unlock`, so it is a step of its own.

The inbound path runs `writeRPCResponse` statement by statement (`Inbound`): the lookup,
then the statements `writeRPCResponse` is made of, `putResponse` (`v <- data`),
`dropResponseChannel` and `dropExpectedTypes` (`solo_writeRPCResponse`). A send on a
channel appends to what the channel holds; a caller that got a channel back takes the
oldest value from it. The goroutines of the nullable path are separate threads
(`Label.null`).

Two ghost fields record history for the specifications: `delivered`, the IDs whose
lookup found a channel, in order; and `seqLog`, the callers in the order they ran
`UpdateSeqNo` (with `Caller.updated`, the value it returned to each).

`Reachable allowed s₀` is every state reached from `s₀` by steps that `allowed` admits:
the environment's side of a run (what the server replies to, which IDs the clock
yields, whether service mode may change) is stated there, per theorem.
-/
import Gogram.Network.Session

namespace Gogram.Network

set_option autoImplicit false

/-- Where a `sendPacket` call is, with the locals live there. -/
inductive Pc where
  /-- `msg, err := tl.Marshal(request)` -/
  | marshal
  /-- `Lock(); msgID = GenerateMessageId(m.lastMessageID); Unlock()` -/
  | genId (msg : Bytes)
  /-- `m.lastMessageID = msgID` -/
  | storeId (msg : Bytes) (msgID : Int)
  /-- `if len(expectedTypes) > 0 { m.expectedTypes.Add(...) }` -/
  | addTypes (msg : Bytes) (msgID : Int)
  /-- `resp := m.getRespChannel()` -/
  | respChannel (msg : Bytes) (msgID : Int)
  /-- the nullable goroutine, or `m.responseChannels.Add(int(msgID), resp)` -/
  | register (msg : Bytes) (msgID : Int) (resp : Chan)
  /-- `data = &messages.Encrypted{...}` or `Unencrypted`, by `m.encrypted` -/
  | frame (msg : Bytes) (msgID : Int) (resp : Chan)
  /-- `seqNo := m.UpdateSeqNo()` -/
  | seq (msgID : Int) (resp : Chan) (data : Frame)
  /-- `if !m.encrypted { seqNo = 0 }` -/
  | zeroSeq (msgID : Int) (resp : Chan) (data : Frame) (seqNo : BitVec 32)
  /-- the nil-transport check and `m.transport.WriteMsg(data, ..., seqNo)` -/
  | write (msgID : Int) (resp : Chan) (data : Frame) (seqNo : BitVec 32)
  /-- `sendPacket` has returned; `msgID` is `none` when `tl.Marshal` failed -/
  | returned (msgID : Option Int) (result : Except SendError Chan)
  /-- the caller took `v` from the channel `sendPacket` returned -/
  | received (msgID : Int) (resp : Chan) (v : Obj)
  deriving DecidableEq, Repr

namespace Pc

/-- The call's message ID, once `GenerateMessageId` has returned it. -/
def msgID? : Pc → Option Int
  | marshal | genId _ => none
  | storeId _ msgID | addTypes _ msgID | respChannel _ msgID | register _ msgID _
  | frame _ msgID _ | seq msgID _ _ | zeroSeq msgID _ _ _ | write msgID _ _ _ => some msgID
  | returned msgID _ => msgID
  | received msgID _ _ => some msgID

/-- The call's reply channel, while the call still holds it. -/
def resp? : Pc → Option Chan
  | register _ _ resp | frame _ _ resp | seq _ resp _ | zeroSeq _ resp _ _
  | write _ resp _ _ => some resp
  | returned _ (.ok resp) => some resp
  | received _ resp _ => some resp
  | _ => none

/-- The channel `sendPacket` returned without error. -/
def returned? : Pc → Option Chan
  | returned (some _) (.ok resp) => some resp
  | received _ resp _ => some resp
  | _ => none

def isSeq : Pc → Bool
  | seq .. => true
  | _ => false

theorem isSeq_eq_true {pc : Pc} (h : pc.isSeq = true) :
    ∃ msgID resp data, pc = seq msgID resp data := by
  cases pc <;> simp_all [isSeq]

/-- The call is past its `register` statement. -/
def registered : Pc → Bool
  | frame .. | seq .. | zeroSeq .. | write .. | received .. => true
  | returned msgID _ => msgID.isSome
  | _ => false

end Pc

/-- One `sendPacket` call: its arguments, where it is, and (ghost) the value its
`UpdateSeqNo` returned. -/
structure Caller where
  request : Request
  hints : List TypeHint
  pc : Pc
  updated : Option (BitVec 32)
  deriving DecidableEq, Repr

/-- Where the inbound goroutine is in `writeRPCResponse(msgID, data)`. -/
inductive Inbound where
  | idle
  /-- `v, ok := m.responseChannels.Get(msgID)` -/
  | get (msgID : Int) (data : Obj)
  /-- `v <- data` -/
  | send (msgID : Int) (data : Obj) (ch : Chan)
  /-- `m.responseChannels.Delete(msgID)` -/
  | dropChannel (msgID : Int)
  /-- `m.expectedTypes.Delete(msgID)` -/
  | dropTypes (msgID : Int)
  deriving DecidableEq, Repr

structure Sys where
  session : Session
  callers : List Caller
  inbound : Inbound
  /-- Ghost: the IDs whose lookup found a channel, in order. -/
  delivered : List Int
  /-- Ghost: the callers, by index, in the order they ran `UpdateSeqNo`. -/
  seqLog : List Nat

/-- One step of a run. -/
inductive Label where
  /-- A goroutine calls `sendPacket(request, hints...)`. -/
  | spawn (request : Request) (hints : List TypeHint)
  /-- Caller `i` runs its next statement. -/
  | caller (i : Nat)
  /-- Caller `i`'s `GenerateMessageId` returns `msgID`. -/
  | genId (i : Nat) (msgID : Int)
  /-- Caller `i`'s `WriteMsg` reports success or failure. -/
  | write (i : Nat) (writeOk : Bool)
  /-- A decoded reply for `msgID` reaches the idle inbound path. -/
  | reply (msgID : Int) (data : Obj)
  /-- The inbound path runs its next statement. -/
  | inbound
  /-- The `j`-th pending goroutine of the nullable path puts `Null` on its channel. -/
  | null (j : Nat)
  /-- Other code sets `m.encrypted`. -/
  | setEncrypted (b : Bool)
  /-- Other code sets `m.serviceModeActivated`. -/
  | setServiceMode (b : Bool)

namespace Caller

/-- The next deterministic statement of a call: every statement but the two that
take the environment's choice. -/
def step (m : Session) (c : Caller) : Option (Session × Caller) :=
  match c.pc with
  | .marshal =>
      some (m, { c with pc := match c.request.encoded with
        | none => .returned none (.error .marshaling)
        | some msg => .genId msg })
  | .storeId msg msgID => some ({ m with lastMessageID := msgID }, { c with pc := .addTypes msg msgID })
  | .addTypes msg msgID =>
      some (addExpectedTypes m msgID c.hints, { c with pc := .respChannel msg msgID })
  | .respChannel msg msgID =>
      some ((getRespChannel m).1, { c with pc := .register msg msgID (getRespChannel m).2 })
  | .register msg msgID resp =>
      some (registerResponse m c.request msgID resp, { c with pc := .frame msg msgID resp })
  | .frame msg msgID resp => some (m, { c with pc := .seq msgID resp (frame m msg msgID) })
  | .seq msgID resp data =>
      some ((updateSeqNo m).1,
        { c with pc := .zeroSeq msgID resp data (updateSeqNo m).2, updated := (updateSeqNo m).2 })
  | .zeroSeq msgID resp data seqNo =>
      some (m, { c with pc := .write msgID resp data (zeroSeqNo m seqNo) })
  | .returned (some msgID) (.ok resp) =>
      match m.channels resp with
      | v :: rest =>
          some ({ m with channels := Function.update m.channels resp rest },
            { c with pc := .received msgID resp v })
      | [] => none
  | _ => none

/-- `GenerateMessageId(m.lastMessageID)` returning `msgID`: any value above its argument. -/
def genId (m : Session) (c : Caller) (msgID : Int) : Option Caller :=
  match c.pc with
  | .genId msg => if m.lastMessageID < msgID then some { c with pc := .storeId msg msgID } else none
  | _ => none

/-- The nil-transport check and `WriteMsg`, with the transport's verdict. -/
def write (m : Session) (c : Caller) (writeOk : Bool) : Option (Session × Caller) :=
  match c.pc with
  | .write msgID resp data seqNo =>
      let r := writeFrame m ⟨data, c.request.requireToAck, seqNo⟩ writeOk resp
      some (r.1, { c with pc := .returned (some msgID) r.2 })
  | _ => none

end Caller

/-- The one next state a label leads to, if the label can run. -/
def next (s : Sys) : Label → Option Sys
  | .spawn request hints => some { s with callers := s.callers ++ [⟨request, hints, .marshal, none⟩] }
  | .caller i =>
      match s.callers[i]? with
      | none => none
      | some c =>
          match c.step s.session with
          | none => none
          | some (m, c') =>
              some { s with
                session := m
                callers := s.callers.set i c'
                seqLog := if c.pc.isSeq then s.seqLog ++ [i] else s.seqLog }
  | .genId i msgID =>
      match s.callers[i]? with
      | none => none
      | some c => (c.genId s.session msgID).map fun c' => { s with callers := s.callers.set i c' }
  | .write i writeOk =>
      match s.callers[i]? with
      | none => none
      | some c =>
          (c.write s.session writeOk).map fun r =>
            { s with session := r.1, callers := s.callers.set i r.2 }
  | .reply msgID data =>
      match s.inbound with
      | .idle => some { s with inbound := .get msgID data }
      | _ => none
  | .inbound =>
      match s.inbound with
      | .idle => none
      | .get msgID data =>
          match s.session.responseChannels msgID with
          | none => some { s with inbound := .idle }
          | some ch => some { s with inbound := .send msgID data ch, delivered := s.delivered ++ [msgID] }
      | .send msgID data ch =>
          some { s with session := putResponse s.session ch data, inbound := .dropChannel msgID }
      | .dropChannel msgID =>
          some { s with session := dropResponseChannel s.session msgID, inbound := .dropTypes msgID }
      | .dropTypes msgID =>
          some { s with session := dropExpectedTypes s.session msgID, inbound := .idle }
  | .null j =>
      match s.session.spawned[j]? with
      | none => none
      | some ch =>
          some { s with session := { s.session with
            channels := push s.session.channels ch .null
            spawned := s.session.spawned.eraseIdx j } }
  | .setEncrypted b => some { s with session := { s.session with encrypted := b } }
  | .setServiceMode b => some { s with session := { s.session with serviceModeActivated := b } }

/-- The labels that run a statement of a call, or start one. -/
def Label.byCaller : Label → Bool
  | .spawn .. | .caller _ | .genId .. | .write .. => true
  | _ => false

/-- Every other step leaves the calls, the `UpdateSeqNo` log and the counter alone, and
the encryption flag too unless it is the switch itself. -/
theorem next_of_not_byCaller {s s' : Sys} {ℓ : Label} (hℓ : ℓ.byCaller = false)
    (h : next s ℓ = some s') :
    s'.callers = s.callers ∧ s'.seqLog = s.seqLog ∧ s'.session.seqNo = s.session.seqNo ∧
      ((∀ b, ℓ ≠ .setEncrypted b) → s'.session.encrypted = s.session.encrypted) := by
  cases ℓ <;> simp only [Label.byCaller, reduceCtorEq] at hℓ <;> simp only [next] at h
  all_goals repeat' (first | split at h | (simp only [Option.some.injEq, reduceCtorEq] at h))
  all_goals (try subst h); simp

/-! ## Looking calls up -/

section Lookup

variable {α : Type} {l : List α} {i j : Nat} {a d : α}

theorem getElem?_append_of (h : l[i]? = some a) (l' : List α) : (l ++ l')[i]? = some a := by
  rw [List.getElem?_append_left (List.getElem?_eq_some_iff.mp h).1, h]

theorem getElem?_append_singleton (h : (l ++ [a])[j]? = some d) :
    l[j]? = some d ∨ (j = l.length ∧ d = a) := by
  rcases Nat.lt_or_ge j l.length with hj | hj
  · exact .inl (by rwa [List.getElem?_append_left hj] at h)
  · rw [List.getElem?_append_right hj] at h
    rcases hq : j - l.length with _ | q <;> simp only [hq] at h <;> simp at h
    exact .inr ⟨by omega, h.symm⟩

theorem getElem?_set_of (h : l[i]? = some a) (b : α) (j : Nat) :
    (l.set i b)[j]? = if j = i then some b else l[j]? := by
  rw [List.getElem?_set]
  by_cases hj : i = j
  · subst hj; simp [(List.getElem?_eq_some_iff.mp h).1]
  · simp [hj, Ne.symm hj]

theorem getElem?_set_eq_some (h : l[i]? = some a) {b : α} (hd : (l.set i b)[j]? = some d) :
    (j = i ∧ d = b) ∨ (j ≠ i ∧ l[j]? = some d) := by
  rw [getElem?_set_of h] at hd
  split at hd
  · exact .inl ⟨‹_›, (Option.some.inj hd).symm⟩
  · exact .inr ⟨‹_›, hd⟩

/-- A witness other than the rewritten element survives the rewrite. -/
theorem exists_getElem?_set (h : l[i]? = some a) {P : α → Prop} (hP : ¬ P a) (b : α) :
    (∃ (j : Nat) (d : α), l[j]? = some d ∧ P d) → ∃ (j : Nat) (d : α), (l.set i b)[j]? = some d ∧ P d := by
  rintro ⟨j, d, hd, hPd⟩
  have hj : j ≠ i := by rintro rfl; exact hP (Option.some.inj (h.symm.trans hd) ▸ hPd)
  exact ⟨j, d, by rw [getElem?_set_of h, if_neg hj, hd], hPd⟩

end Lookup

section Inversion

variable {s s' : Sys} {i : Nat}

theorem next_caller (h : next s (.caller i) = some s') :
    ∃ c m c', s.callers[i]? = some c ∧ c.step s.session = some (m, c') ∧
      s' = { s with
        session := m
        callers := s.callers.set i c'
        seqLog := if c.pc.isSeq then s.seqLog ++ [i] else s.seqLog } := by
  simp only [next] at h
  split at h
  · cases h
  · split at h
    · cases h
    · simp only [Option.some.injEq] at h
      exact ⟨_, _, _, ‹_›, ‹_›, h.symm⟩

theorem next_genId {msgID : Int} (h : next s (.genId i msgID) = some s') :
    ∃ c msg, s.callers[i]? = some c ∧ c.pc = .genId msg ∧ s.session.lastMessageID < msgID ∧
      s' = { s with callers := s.callers.set i { c with pc := .storeId msg msgID } } := by
  simp only [next] at h
  split at h
  · cases h
  · rename_i c _
    obtain ⟨c', hc', rfl⟩ := Option.map_eq_some'.mp h
    simp only [Caller.genId] at hc'
    split at hc'
    · split at hc' <;> simp only [Option.some.injEq, reduceCtorEq] at hc'
      exact ⟨c, _, ‹_›, ‹_›, ‹_›, by rw [← hc']⟩
    · cases hc'

theorem next_write {writeOk : Bool} (h : next s (.write i writeOk) = some s') :
    ∃ c msgID resp data seqNo, s.callers[i]? = some c ∧ c.pc = .write msgID resp data seqNo ∧
      let r := writeFrame s.session ⟨data, c.request.requireToAck, seqNo⟩ writeOk resp
      s' = { s with
        session := r.1
        callers := s.callers.set i { c with pc := .returned (some msgID) r.2 } } := by
  simp only [next] at h
  split at h
  · cases h
  · rename_i c _
    obtain ⟨r, hr, rfl⟩ := Option.map_eq_some'.mp h
    simp only [Caller.write] at hr
    split at hr
    · simp only [Option.some.injEq] at hr
      exact ⟨c, _, _, _, _, ‹_›, ‹_›, by rw [← hr]⟩
    · cases hr

end Inversion

/-- The states reachable from `s₀` by steps `allowed` admits. -/
inductive Reachable (allowed : Sys → Label → Bool) (s₀ : Sys) : Sys → Prop where
  | init : Reachable allowed s₀ s₀
  | step {s s' : Sys} (ℓ : Label) : Reachable allowed s₀ s → allowed s ℓ = true →
      next s ℓ = some s' → Reachable allowed s₀ s'

/-- Run a schedule of labels in order, refusing a label `allowed` rejects. -/
def schedule (allowed : Sys → Label → Bool) (s : Sys) : List Label → Option Sys
  | [] => some s
  | ℓ :: ℓs => if allowed s ℓ then (next s ℓ).bind (schedule allowed · ℓs) else none

/-- A state with no calls in flight, an idle inbound path and empty ghost history. -/
def Sys.start (m : Session) : Sys := ⟨m, [], .idle, [], []⟩

theorem Reachable.of_schedule {allowed : Sys → Label → Bool} {s₀ : Sys} :
    ∀ {s s' : Sys} {ℓs : List Label}, Reachable allowed s₀ s → schedule allowed s ℓs = some s' →
      Reachable allowed s₀ s'
  | s, s', [], hs, h => by simp only [schedule, Option.some.injEq] at h; exact h ▸ hs
  | s, s', ℓ :: ℓs, hs, h => by
      simp only [schedule] at h
      split at h
      · cases hn : next s ℓ with
        | none => simp [hn] at h
        | some t =>
            simp only [hn, Option.bind_some] at h
            exact Reachable.of_schedule (Reachable.step ℓ hs ‹_› hn) h
      · cases h

/-- A schedule that runs to the end from `s₀` and ends where `p` holds gives a
reachable state where `p` holds. -/
theorem reachable_of_schedule {allowed : Sys → Label → Bool} {s₀ : Sys} (ℓs : List Label)
    {P : Sys → Prop} [DecidablePred P] (h : (schedule allowed s₀ ℓs).map (fun s => decide (P s)) = some true) :
    ∃ s, Reachable allowed s₀ s ∧ P s := by
  cases hr : schedule allowed s₀ ℓs with
  | none => simp [hr] at h
  | some s => exact ⟨s, Reachable.of_schedule .init hr, by simpa [hr] using h⟩

/-! ## One call alone is `sendPacket`, one delivery alone is `writeRPCResponse` -/

/-- **A caller that runs from start to finish with nothing interleaved** leaves the
session as `sendPacket` does and returns what it returns. -/
theorem solo_sendPacket (s : Sys) (request : Request) (hints : List TypeHint) (msgID : Int)
    (writeOk : Bool) {msg : Bytes} (he : request.encoded = some msg)
    (hfresh : s.session.lastMessageID < msgID) :
    schedule (fun _ _ => true) s ([.spawn request hints, .caller s.callers.length,
        .genId s.callers.length msgID] ++ List.replicate 7 (.caller s.callers.length) ++
        [.write s.callers.length writeOk]) =
      some { s with
        session := (sendPacket s.session request hints msgID writeOk).1
        callers := s.callers ++ [⟨request, hints,
          .returned (some msgID) (sendPacket s.session request hints msgID writeOk).2,
          some (s.session.seqNo + 2)⟩]
        seqLog := s.seqLog ++ [s.callers.length] } := by
  have hset : ∀ c c' : Caller, (s.callers ++ [c]).set s.callers.length c' = s.callers ++ [c'] := by
    simp
  simp only [schedule, ↓reduceIte, next, Caller.step, addExpectedTypes_eq, getRespChannel_eq,
    registerResponse_eq, updateSeqNo, Pc.isSeq, Caller.genId, Caller.write, Option.bind_some,
    Option.some_bind, List.getElem?_concat_length, hset, he, Bool.false_eq_true, hfresh,
    Option.map_some', sendPacket, List.replicate, List.cons_append, List.nil_append]

/-- **The inbound path alone is `writeRPCResponse`**: with a channel registered it runs
its four statements and leaves the session as `writeRPCResponse` does; without one it
stops at the lookup, as `writeRPCResponse` returns its error. -/
theorem solo_writeRPCResponse (s : Sys) (hidle : s.inbound = .idle) (msgID : Int) (data : Obj) :
    (∀ ch, s.session.responseChannels msgID = some ch →
      schedule (fun _ _ => true) s (.reply msgID data :: List.replicate 4 .inbound) =
        some { s with
          session := (writeRPCResponse s.session msgID data).1
          delivered := s.delivered ++ [msgID] }) ∧
    (s.session.responseChannels msgID = none →
      schedule (fun _ _ => true) s [.reply msgID data, .inbound] = some s ∧
        writeRPCResponse s.session msgID data = (s.session, .error (noResponseChannel msgID))) := by
  refine ⟨fun ch h => ?_, fun h => ?_⟩
  · simp [schedule, next, hidle, h, writeRPCResponse_of_some _ _ _ h, List.replicate]
  · refine ⟨?_, writeRPCResponse_of_none _ _ _ h⟩
    obtain ⟨session, callers, inbound, delivered, seqLog⟩ := s
    simp_all [schedule, next]

end Gogram.Network
