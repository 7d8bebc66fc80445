/-
# Network.Races — what the two mutexes of `sendPacket` do and do not order

`sendPacket` takes `lastMessageIDMutex` around `GenerateMessageId` only, stores the new ID
after `Unlock`, and takes `seqNoMutex` inside `UpdateSeqNo` later on. This module follows
the consequences through every interleaving of `Network.Interleaving`:

* `concurrent_calls_reuse_msgID`: two calls that both generate before either stores read
  the same `lastMessageID`; with a clock that yields one value twice they get the same
  ID, and the second `responseChannels.Add` replaces the first call's reply slot. A call
  can also store an ID below the one another call stored first, so `lastMessageID` falls;
* `seqNo_follows_updateSeqNo_order`: `UpdateSeqNo` is atomic, so on an encrypted session
  the `k`-th `UpdateSeqNo` step of any run returns `seqNo₀ + 2k`, and every call hands
  `WriteMsg` exactly the value of its own step — the sequence numbers follow the order of
  those steps, not the order of the message IDs (`seqNo_order_differs_from_msgID_order`);
* `service_channel_gets_null`: in service mode the nullable path puts its `Null` on the
  shared service channel, where the one pending request's caller takes it.
-/
import Gogram.Network.Interleaving
import Mathlib.Tactic.Ring

namespace Gogram.Network

set_option autoImplicit false

/-! ## The sequence counter follows the `UpdateSeqNo` steps -/

/-- Runs in which nothing switches encryption. -/
def keepsEncryption : Sys → Label → Bool
  | _, .setEncrypted _ => false
  | _, _ => true

/-- The statements from which a call can still reach `UpdateSeqNo`. -/
def Pc.preSeq : Pc → Bool
  | .marshal | .genId _ | .storeId .. | .addTypes .. | .respChannel .. | .register ..
  | .frame .. | .seq .. => true
  | _ => false

/-- A call about to run `if !m.encrypted`, or `WriteMsg`, holds what its `UpdateSeqNo`
returned. -/
def Caller.Handed (c : Caller) : Prop :=
  (∀ msgID resp data raw, c.pc = .zeroSeq msgID resp data raw → c.updated = some raw) ∧
    ∀ msgID resp data seqNo, c.pc = .write msgID resp data seqNo → c.updated = some seqNo

/-- One statement of a call other than `UpdateSeqNo` leaves the counter, the encryption
flag and the ghost value alone, never re-enters the statements before `UpdateSeqNo`, and,
on an encrypted session, keeps `Handed`. -/
theorem Caller.step_not_seq {m m' : Session} {c c' : Caller} (h : c.step m = some (m', c'))
    (hseq : c.pc.isSeq = false) (henc : m.encrypted = true) :
    m'.seqNo = m.seqNo ∧ m'.encrypted = m.encrypted ∧ c'.updated = c.updated ∧
      (c'.pc.preSeq → c.pc.preSeq) ∧ (c.Handed → c'.Handed) := by
  obtain ⟨request, hints, pc, updated⟩ := c
  cases pc with
  | seq => simp [Pc.isSeq] at hseq
  | returned msgID result =>
      rcases msgID with _ | msgID <;> rcases result with _ | resp <;>
        simp only [Caller.step, reduceCtorEq] at h
      split at h <;> simp only [Option.some.injEq, Prod.mk.injEq, reduceCtorEq] at h
      obtain ⟨rfl, rfl⟩ := h
      simp [Pc.preSeq, Caller.Handed]
  | zeroSeq msgID resp data raw =>
      simp only [Caller.step, Option.some.injEq, Prod.mk.injEq] at h
      obtain ⟨rfl, rfl⟩ := h
      refine ⟨rfl, rfl, rfl, by simp [Pc.preSeq], fun ⟨hz, _⟩ => ⟨by simp, ?_⟩⟩
      rintro _ _ _ _ ⟨⟩
      rw [zeroSeqNo, if_pos henc]
      exact hz msgID resp data raw rfl
  | marshal =>
      simp only [Caller.step, Option.some.injEq, Prod.mk.injEq] at h
      obtain ⟨rfl, rfl⟩ := h
      cases request.encoded <;> simp [Pc.preSeq, Caller.Handed]
  | _ =>
      simp only [Caller.step, Option.some.injEq, Prod.mk.injEq, reduceCtorEq] at h <;>
      obtain ⟨rfl, rfl⟩ := h <;>
      simp [Pc.preSeq, Caller.Handed, addExpectedTypes_eq, getRespChannel_eq, registerResponse_eq]

theorem Caller.step_seq {m m' : Session} {c c' : Caller} (h : c.step m = some (m', c'))
    {msgID : Int} {resp : Chan} {data : Frame} (hpc : c.pc = .seq msgID resp data) :
    m'.seqNo = m.seqNo + 2 ∧ m'.encrypted = m.encrypted ∧ c'.updated = some (m.seqNo + 2) ∧
      c'.pc.preSeq = false ∧ c'.Handed := by
  obtain ⟨request, hints, pc, updated⟩ := c
  subst hpc
  simp only [Caller.step, updateSeqNo, Option.some.injEq, Prod.mk.injEq] at h
  obtain ⟨rfl, rfl⟩ := h
  simp [Pc.preSeq, Caller.Handed]

/-- On an encrypted session, the order in which calls ran `UpdateSeqNo` (`seqLog`), and
what each got and hands on. -/
structure SeqOrder (seqNo₀ : BitVec 32) (s : Sys) : Prop where
  encrypted : s.session.encrypted = true
  counter : s.session.seqNo = seqNo₀ + 2 * ((s.seqLog.length : ℕ) : BitVec 32)
  logged : ∀ (p i : Nat), s.seqLog[p]? = some i →
    ∃ c : Caller, s.callers[i]? = some c ∧ c.updated = some (seqNo₀ + 2 * ((p + 1 : ℕ) : BitVec 32))
  nodup : s.seqLog.Nodup
  unlogged : ∀ (i : Nat) (c : Caller), s.callers[i]? = some c → c.pc.preSeq = true → i ∉ s.seqLog
  updated_logged : ∀ (i : Nat) (c : Caller), s.callers[i]? = some c → c.updated ≠ none → i ∈ s.seqLog
  handed : ∀ (i : Nat) (c : Caller), s.callers[i]? = some c → c.Handed

namespace SeqOrder

variable {seqNo₀ : BitVec 32} {s : Sys}

theorem start {m : Session} (henc : m.encrypted = true) : SeqOrder m.seqNo (Sys.start m) where
  encrypted := henc
  counter := by simp [Sys.start]
  logged := by simp [Sys.start]
  nodup := List.nodup_nil
  unlogged := by simp [Sys.start]
  updated_logged := by simp [Sys.start]
  handed := by simp [Sys.start]

/-- A step that rewrites one call without touching the counter, the flag, the ghost value
or the log. -/
theorem set (h : SeqOrder seqNo₀ s) {i : Nat} {c c' : Caller} (hi : s.callers[i]? = some c)
    (m' : Session) (henc : m'.encrypted = s.session.encrypted) (hseqNo : m'.seqNo = s.session.seqNo)
    (hu : c'.updated = c.updated) (hp : c'.pc.preSeq → c.pc.preSeq) (hh : c'.Handed) :
    SeqOrder seqNo₀ { s with session := m', callers := s.callers.set i c' } where
  encrypted := henc.trans h.encrypted
  counter := by simp [hseqNo, h.counter]
  logged p j hj := by
    obtain ⟨d, hd, hdu⟩ := h.logged p j hj
    rw [getElem?_set_of hi c' j]
    split
    · subst_vars
      obtain rfl := Option.some.inj (hi.symm.trans hd)
      exact ⟨c', rfl, hu.trans hdu⟩
    · exact ⟨d, hd, hdu⟩
  nodup := h.nodup
  unlogged j d hd hp' := by
    rcases getElem?_set_eq_some hi hd with ⟨rfl, rfl⟩ | ⟨-, hd⟩
    exacts [h.unlogged _ c hi (hp hp'), h.unlogged j d hd hp']
  updated_logged j d hd hu' := by
    rcases getElem?_set_eq_some hi hd with ⟨rfl, rfl⟩ | ⟨-, hd⟩
    exacts [h.updated_logged _ c hi (hu ▸ hu'), h.updated_logged j d hd hu']
  handed j d hd := by
    rcases getElem?_set_eq_some hi hd with ⟨-, rfl⟩ | ⟨-, hd⟩
    exacts [hh, h.handed j d hd]

/-- Caller `i` runs `UpdateSeqNo` and goes to the end of the log. -/
theorem seq (h : SeqOrder seqNo₀ s) {i : Nat} {c c' : Caller} (hi : s.callers[i]? = some c)
    {m' : Session} (hstep : c.step s.session = some (m', c')) {msgID : Int} {resp : Chan}
    {data : Frame} (hpc : c.pc = .seq msgID resp data) :
    SeqOrder seqNo₀ { s with session := m', callers := s.callers.set i c', seqLog := s.seqLog ++ [i] } := by
  obtain ⟨hseqNo, henc, hu, hp, hh⟩ := Caller.step_seq hstep hpc
  have hnot : i ∉ s.seqLog := h.unlogged i c hi (by simp [hpc, Pc.preSeq])
  refine ⟨henc.trans h.encrypted, ?_, fun p j hj => ?_,
    List.nodup_append.mpr ⟨h.nodup, by simp, by simpa using hnot⟩, fun j d hd hp' => ?_,
    fun j d hd _ => ?_, fun j d hd => ?_⟩
  · simp only [hseqNo, h.counter, List.length_append, List.length_singleton]
    push_cast; ring
  · simp only [getElem?_set_of hi c' j]
    rcases getElem?_append_singleton hj with hj | ⟨rfl, rfl⟩
    · obtain ⟨d, hd, hdu⟩ := h.logged p j hj
      have hji : j ≠ i := fun e => hnot (e ▸ List.getElem?_mem hj)
      rw [if_neg hji]
      exact ⟨d, hd, hdu⟩
    · refine ⟨c', by simp, ?_⟩
      rw [hu, h.counter, Option.some.injEq]
      push_cast; ring
  · rcases getElem?_set_eq_some hi hd with ⟨-, rfl⟩ | ⟨hji, hd⟩
    · simp [hp] at hp'
    · simpa [hji] using h.unlogged j d hd hp'
  · rcases getElem?_set_eq_some hi hd with ⟨rfl, -⟩ | ⟨-, hd⟩
    · exact List.mem_append_right _ (List.mem_singleton_self _)
    · exact List.mem_append_left _ (h.updated_logged j d hd ‹_›)
  · rcases getElem?_set_eq_some hi hd with ⟨-, rfl⟩ | ⟨-, hd⟩
    exacts [hh, h.handed j d hd]

/-- A new call joins at the end, before its `UpdateSeqNo`. -/
theorem spawn (h : SeqOrder seqNo₀ s) (request : Request) (hints : List TypeHint) :
    SeqOrder seqNo₀ { s with callers := s.callers ++ [⟨request, hints, .marshal, none⟩] } := by
  have hfresh : s.callers.length ∉ s.seqLog := fun hm => by
    obtain ⟨p, hp, hpi⟩ := List.getElem_of_mem hm
    obtain ⟨c, hc, -⟩ := h.logged p _ (by rw [List.getElem?_eq_getElem hp, hpi])
    simp [(List.getElem?_eq_some_iff.mp hc).1] at hc
  refine ⟨h.encrypted, h.counter, fun p j hj => ?_, h.nodup, fun j d hd hp => ?_,
    fun j d hd hu => ?_, fun j d hd => ?_⟩
  · obtain ⟨d, hd, hdu⟩ := h.logged p j hj
    exact ⟨d, getElem?_append_of hd _, hdu⟩
  · rcases getElem?_append_singleton hd with hd | ⟨rfl, -⟩
    · exact h.unlogged j d hd hp
    · exact hfresh
  · rcases getElem?_append_singleton hd with hd | ⟨-, rfl⟩
    · exact h.updated_logged j d hd hu
    · exact absurd rfl hu
  · rcases getElem?_append_singleton hd with hd | ⟨-, rfl⟩
    · exact h.handed j d hd
    · simp [Caller.Handed]

/-- A step with the same calls, log, counter and flag. -/
theorem congr (h : SeqOrder seqNo₀ s) {s' : Sys}
    (he : s'.callers = s.callers ∧ s'.seqLog = s.seqLog ∧ s'.session.seqNo = s.session.seqNo)
    (henc : s'.session.encrypted = s.session.encrypted) : SeqOrder seqNo₀ s' := by
  obtain ⟨hc, hl, hs⟩ := he
  exact ⟨henc.trans h.encrypted, by rw [hs, hl, h.counter], by rw [hc, hl]; exact h.logged,
    hl ▸ h.nodup, by rw [hc, hl]; exact h.unlogged, by rw [hc, hl]; exact h.updated_logged,
    by rw [hc]; exact h.handed⟩

/-- Every step that does not switch encryption keeps the order. -/
theorem next (h : SeqOrder seqNo₀ s) {ℓ : Label} {s' : Sys} (hk : keepsEncryption s ℓ = true)
    (hn : Network.next s ℓ = some s') : SeqOrder seqNo₀ s' := by
  cases hℓ : ℓ.byCaller
  · obtain ⟨hc, hl, hs, he⟩ := next_of_not_byCaller hℓ hn
    exact h.congr ⟨hc, hl, hs⟩ (he fun b hb => by simp [hb, keepsEncryption] at hk)
  cases ℓ with
  | spawn request hints =>
      simp only [Network.next, Option.some.injEq] at hn
      exact hn ▸ h.spawn request hints
  | caller i =>
      obtain ⟨c, m, c', hi, hstep, rfl⟩ := next_caller hn
      cases hseq : c.pc.isSeq
      · obtain ⟨hs, he, hu, hp, hh⟩ := Caller.step_not_seq hstep hseq h.encrypted
        simpa only [Bool.false_eq_true, if_false] using h.set hi m he hs hu hp (hh (h.handed i c hi))
      · obtain ⟨msgID, resp, data, hpc⟩ := Pc.isSeq_eq_true hseq
        simpa only [if_true] using h.seq hi hstep hpc
  | genId i msgID =>
      obtain ⟨c, msg, hi, hpc, -, rfl⟩ := next_genId hn
      exact h.set hi s.session rfl rfl rfl (fun _ => by simp [hpc, Pc.preSeq]) (by simp [Caller.Handed])
  | write i writeOk =>
      obtain ⟨c, msgID, resp, data, seqNo, hi, hpc, rfl⟩ := next_write hn
      exact h.set hi _ (by simp [writeFrame_eq]) (by simp [writeFrame_eq]) rfl (by simp [Pc.preSeq])
        (by simp [Caller.Handed])
  | _ => simp [Label.byCaller] at hℓ

theorem reachable {m : Session} (henc : m.encrypted = true) {s : Sys}
    (hs : Reachable keepsEncryption (Sys.start m) s) : SeqOrder m.seqNo s := by
  induction hs with
  | init => exact start henc
  | step _ _ hk hn ih => exact ih.next hk hn

/-- A call about to write hands over the value its place in the log gives. -/
theorem write_seqNo (h : SeqOrder seqNo₀ s) {i : Nat} {c : Caller} (hi : s.callers[i]? = some c)
    {msgID : Int} {resp : Chan} {data : Frame} {seqNo : BitVec 32}
    (hpc : c.pc = .write msgID resp data seqNo) :
    ∃ p, s.seqLog[p]? = some i ∧ seqNo = seqNo₀ + 2 * ((p + 1 : ℕ) : BitVec 32) := by
  have hu : c.updated = some seqNo := (h.handed i c hi).2 _ _ _ _ hpc
  obtain ⟨p, hp, hpi⟩ := List.getElem_of_mem (h.updated_logged i c hi (by simp [hu]))
  have hlog : s.seqLog[p]? = some i := by rw [List.getElem?_eq_getElem hp, hpi]
  obtain ⟨d, hd, hdu⟩ := h.logged p i hlog
  obtain rfl := Option.some.inj (hi.symm.trans hd)
  exact ⟨p, hlog, Option.some.inj (hu.symm.trans hdu)⟩

end SeqOrder

/-- **Sequence numbers follow the `UpdateSeqNo` steps**, in every interleaving of any
number of calls on an encrypted session whose encryption nothing switches: the counter has
moved by 2 per step, the `p`-th step (from 0) returned `seqNo₀ + 2(p+1)` to the one call
that ran it, and every call about to run `WriteMsg` hands over exactly the value of its own
step. -/
theorem seqNo_follows_updateSeqNo_order (m : Session) (henc : m.encrypted = true) {s : Sys}
    (hs : Reachable keepsEncryption (Sys.start m) s) :
    s.session.seqNo = m.seqNo + 2 * ((s.seqLog.length : ℕ) : BitVec 32) ∧ s.seqLog.Nodup ∧
      (∀ (p i : Nat), s.seqLog[p]? = some i → ∃ c : Caller, s.callers[i]? = some c ∧
        c.updated = some (m.seqNo + 2 * ((p + 1 : ℕ) : BitVec 32))) ∧
      ∀ (i : Nat) (c : Caller) (msgID : Int) (resp : Chan) (data : Frame) (seqNo : BitVec 32),
        s.callers[i]? = some c → c.pc = .write msgID resp data seqNo →
          ∃ p, s.seqLog[p]? = some i ∧ seqNo = m.seqNo + 2 * ((p + 1 : ℕ) : BitVec 32) := by
  have h := SeqOrder.reachable henc hs
  exact ⟨h.counter, h.nodup, h.logged, fun i c _ _ _ _ hi hpc => h.write_seqNo hi hpc⟩

/-! ## Disciplines -/

/-- A non-nullable call that has neither failed nor taken its reply yet. -/
def Caller.awaiting (c : Caller) : Bool :=
  !isNullableResponse c.request && match c.pc with
    | .received .. | .returned _ (.error _) => false
    | _ => true

/-- Service mode stays on, and a non-nullable call starts only when no other one is
awaiting its reply: the one-request-at-a-time handshake. -/
def oneAwaiting : Sys → Label → Bool
  | s, .spawn request _ => isNullableResponse request || s.callers.all (fun c => !c.awaiting)
  | _, .setServiceMode _ => false
  | _, _ => true

/-! ## Poles -/

/-- The session of `handshakeSession`, encrypted and with service mode as given. -/
def sessionWith (encrypted serviceMode : Bool) : Session :=
  { handshakeSession with encrypted := encrypted, serviceModeActivated := serviceMode }

/-- Both calls run `GenerateMessageId` before either stores its ID; the clock yields 4
twice. -/
def sameIdSchedule : List Label :=
  [.spawn reqPQ [], .spawn reqPQ [], .caller 0, .caller 1, .genId 0 4, .genId 1 4] ++
    List.replicate 4 (.caller 0) ++ List.replicate 4 (.caller 1)

/-- Both calls read `lastMessageID = 0`; the one that got 8 stores first. -/
def fallingIdSchedule : List Label :=
  [.spawn reqPQ [], .spawn reqPQ [], .caller 0, .caller 1, .genId 0 8, .genId 1 4, .caller 0]

/-- Call 0 takes ID 1 and stops before `UpdateSeqNo`; call 1 takes ID 2 and writes. -/
def crossedSchedule : List Label :=
  [.spawn reqPQ [], .caller 0, .genId 0 1] ++ List.replicate 5 (.caller 0) ++
    [.spawn reqPQ [], .caller 1, .genId 1 2] ++ List.replicate 7 (.caller 1) ++
    [.write 1 true, .caller 0, .caller 0, .write 0 true]

/-- Two calls on one session can get the same ID: the second `responseChannels.Add`
replaces the first call's slot (channel 1) by its own (channel 2). And `lastMessageID`
can fall, from 8 to 4. -/
theorem concurrent_calls_reuse_msgID :
    (∃ s, Reachable (fun _ _ => true) (Sys.start (sessionWith true false)) s ∧
      s.callers.map (fun c => c.pc) = [.frame [] 4 1, .frame [] 4 2] ∧
      s.session.responseChannels 4 = some 2) ∧
    ∃ s s', Reachable (fun _ _ => true) (Sys.start (sessionWith true false)) s ∧
      next s (.caller 1) = some s' ∧ s.session.lastMessageID = 8 ∧ s'.session.lastMessageID = 4 := by
  refine ⟨reachable_of_schedule sameIdSchedule (by decide), ?_⟩
  have : ∃ s, Reachable (fun _ _ => true) (Sys.start (sessionWith true false)) s ∧
      s.session.lastMessageID = 8 ∧
      (next s (.caller 1)).map (fun s' => s'.session.lastMessageID) = some 4 :=
    reachable_of_schedule fallingIdSchedule (by decide)
  obtain ⟨s, hs, h8, h4⟩ := this
  obtain ⟨s', hs', h4⟩ := Option.map_eq_some'.mp h4
  exact ⟨s, s', hs, hs', h8, h4⟩

/-- The call with the smaller ID (1) hands `WriteMsg` the larger sequence number (4). -/
theorem seqNo_order_differs_from_msgID_order :
    ∃ s, Reachable keepsEncryption (Sys.start (sessionWith true false)) s ∧
      s.session.wire.map (fun w => (w.data.msgID, w.seqNo)) = [(2, 2), (1, 4)] :=
  reachable_of_schedule crossedSchedule (by decide)

theorem crossed_writes_follow_updateSeqNo :
    (sessionWith true false).encrypted = true ∧
      ∃ s, Reachable keepsEncryption (Sys.start (sessionWith true false)) s ∧ s.seqLog = [1, 0] ∧
      (s.session.seqNo = (sessionWith true false).seqNo + 2 * ((s.seqLog.length : ℕ) : BitVec 32) ∧
      s.seqLog.Nodup ∧
      (∀ (p i : Nat), s.seqLog[p]? = some i → ∃ c : Caller, s.callers[i]? = some c ∧
        c.updated = some ((sessionWith true false).seqNo + 2 * ((p + 1 : ℕ) : BitVec 32))) ∧
      ∀ (i : Nat) (c : Caller) (msgID : Int) (resp : Chan) (data : Frame) (seqNo : BitVec 32),
        s.callers[i]? = some c → c.pc = .write msgID resp data seqNo →
          ∃ p, s.seqLog[p]? = some i ∧
            seqNo = (sessionWith true false).seqNo + 2 * ((p + 1 : ℕ) : BitVec 32)) := by
  have : ∃ s, Reachable keepsEncryption (Sys.start (sessionWith true false)) s ∧
      s.seqLog = [1, 0] := reachable_of_schedule crossedSchedule (by decide)
  obtain ⟨s, hs, hlog⟩ := this
  exact ⟨rfl, s, hs, hlog, seqNo_follows_updateSeqNo_order _ rfl hs⟩

/-- In service mode a `Pong` sent while the handshake's request awaits its reply puts
`Null` on the service channel; the request's caller takes it, with no reply delivered. -/
theorem service_channel_gets_null :
    ∃ s, Reachable oneAwaiting (Sys.start (sessionWith false true)) s ∧
      (s.callers.map (fun c => c.pc)).head? = some (.received 1 0 .null) ∧ s.delivered = [] :=
  reachable_of_schedule ([.spawn reqPQ [], .caller 0, .genId 0 1] ++
    List.replicate 7 (.caller 0) ++ [.write 0 true, .spawn pingAck [], .caller 1, .genId 1 2] ++
    List.replicate 4 (.caller 1) ++ [.null 0, .caller 0]) (by decide)

end Gogram.Network
