/-
# Network.Channels — outside service mode, no reply channel gets two values

`getRespChannel` makes a fresh channel for each call unless service mode is on. From then
on the channel has one holder at a time (`Holder`): the call about to `register` it; then
its slot in `responseChannels`, or for a nullable request the goroutine that will put
`Null` on it; then the inbound path between its lookup and its send; and last the value put
on it. Every step hands each holder on to at most one holder, and only `getRespChannel`
makes a channel, so no step gives a channel a second holder.

None of this needs the server to reply only to what was sent, or the clock to keep IDs
apart: a repeated ID makes the second `register` overwrite the first call's slot, which
takes a holder away and adds none.

* `reply_channel_gets_one_value`: along every run from a session with no slots and no
  pending goroutines, with service mode off throughout, no channel is sent two values.

In service mode the shared channel breaks this at once (`service_channel_gets_null`).
-/
import Gogram.Network.Delivery

namespace Gogram.Network

set_option autoImplicit false

/-! ## The puts of a run -/

/-- The channel a step puts a value on: the inbound path's `v <- data`, or a goroutine of the
nullable path. -/
def Sys.putOn (s : Sys) : Label → Option Chan
  | .inbound =>
      match s.inbound with
      | .send _ _ ch => some ch
      | _ => none
  | .null j => s.session.spawned[j]?
  | _ => none

/-- The states reachable from `s₀` by steps `allowed` admits, with the channels values were
put on, in order. -/
inductive Traced (allowed : Sys → Label → Bool) (s₀ : Sys) : Sys → List Chan → Prop where
  | init : Traced allowed s₀ s₀ []
  | step {s s' : Sys} {puts : List Chan} (ℓ : Label) : Traced allowed s₀ s puts →
      allowed s ℓ = true → next s ℓ = some s' → Traced allowed s₀ s' (puts ++ (s.putOn ℓ).toList)

/-- Run a schedule, collecting the puts. -/
def tracedSchedule (allowed : Sys → Label → Bool) (s : Sys) (puts : List Chan) :
    List Label → Option (Sys × List Chan)
  | [] => some (s, puts)
  | ℓ :: ℓs =>
      if allowed s ℓ then (next s ℓ).bind (tracedSchedule allowed · (puts ++ (s.putOn ℓ).toList) ℓs)
      else none

theorem Traced.of_tracedSchedule {allowed : Sys → Label → Bool} {s₀ : Sys} :
    ∀ {s : Sys} {puts : List Chan} {ℓs : List Label} {r : Sys × List Chan},
      Traced allowed s₀ s puts → tracedSchedule allowed s puts ℓs = some r → Traced allowed s₀ r.1 r.2
  | s, puts, [], r, hs, h => by
    simp only [tracedSchedule, Option.some.injEq] at h
    exact h ▸ hs
  | s, puts, ℓ :: ℓs, r, hs, h => by
    simp only [tracedSchedule] at h
    split at h
    · obtain ⟨t, ht, hr⟩ := Option.bind_eq_some.mp h
      exact Traced.of_tracedSchedule (.step ℓ hs ‹_› ht) hr
    · cases h

/-- Service mode is never switched; everything else may happen. -/
def serviceStays : Sys → Label → Bool
  | _, .setServiceMode _ => false
  | _, _ => true

/-- No reply slot, no pending goroutine of the nullable path, service mode off. -/
def Session.Idle (m : Session) : Prop :=
  m.serviceModeActivated = false ∧ (∀ X, m.responseChannels X = none) ∧ m.spawned = []

/-! ## What a statement of a call does to the channels -/

/-- **One statement of a call**: `getRespChannel` makes a channel, `register` hands the
channel to a slot or a goroutine, and every other statement leaves the slots, the
goroutines, the channel counter and service mode alone and does not reach `register`. -/
theorem Caller.step_channels {m m' : Session} {c c' : Caller} (h : c.step m = some (m', c')) :
    (∃ msg X, c.pc = .respChannel msg X ∧ m' = (getRespChannel m).1 ∧
      c' = { c with pc := .register msg X (getRespChannel m).2 }) ∨
    (∃ msg X resp, c.pc = .register msg X resp ∧ m' = registerResponse m c.request X resp ∧
      c' = { c with pc := .frame msg X resp }) ∨
    ((∀ msg X resp, c'.pc ≠ .register msg X resp) ∧ m'.responseChannels = m.responseChannels ∧
      m'.spawned = m.spawned ∧ m'.nextChannel = m.nextChannel ∧
      m'.serviceModeActivated = m.serviceModeActivated) := by
  obtain ⟨request, hints, pc, updated⟩ := c
  cases pc with
  | respChannel msg X =>
    simp only [Caller.step, Option.some.injEq, Prod.mk.injEq] at h
    exact .inl ⟨msg, X, rfl, h.1.symm, h.2.symm⟩
  | register msg X resp =>
    simp only [Caller.step, Option.some.injEq, Prod.mk.injEq] at h
    exact .inr (.inl ⟨msg, X, resp, rfl, h.1.symm, h.2.symm⟩)
  | marshal =>
    simp only [Caller.step, Option.some.injEq, Prod.mk.injEq] at h
    obtain ⟨rfl, rfl⟩ := h
    refine .inr (.inr ⟨fun msg X resp => ?_, rfl, rfl, rfl, rfl⟩)
    cases request.encoded <;> simp
  | returned X r =>
    rcases X with _ | X <;> rcases r with _ | resp <;> simp only [Caller.step, reduceCtorEq] at h
    split at h <;> simp only [Option.some.injEq, Prod.mk.injEq, reduceCtorEq] at h
    obtain ⟨rfl, rfl⟩ := h
    exact .inr (.inr ⟨fun _ _ _ => by simp, rfl, rfl, rfl, rfl⟩)
  | _ =>
    simp only [Caller.step, Option.some.injEq, Prod.mk.injEq, reduceCtorEq] at h <;>
    obtain ⟨rfl, rfl⟩ := h <;>
    exact .inr (.inr ⟨fun _ _ _ => by simp, by simp [addExpectedTypes_eq, updateSeqNo]⟩)

/-! ## Holders -/

/-- Who holds a channel. -/
inductive Holder where
  /-- a call about to `register` it -/
  | caller (i : Nat)
  /-- the reply slot of an ID the inbound path is not busy with -/
  | slot (msgID : Int)
  /-- a goroutine of the nullable path -/
  | goroutine (j : Nat)
  /-- the inbound path, between the lookup and `v <- data` -/
  | inbound
  /-- a value already put on it -/
  | put (k : Nat)
  deriving DecidableEq

/-- `h` holds `ch` in `s`, after the puts `puts`. -/
def Holds (s : Sys) (puts : List Chan) (ch : Chan) : Holder → Prop
  | .caller i => ∃ c msg msgID, s.callers[i]? = some c ∧ c.pc = .register msg msgID ch
  | .slot X => s.session.responseChannels X = some ch ∧ s.inbound.busyWith X = false
  | .goroutine j => s.session.spawned[j]? = some ch
  | .inbound => ∃ X v, s.inbound = .send X v ch
  | .put k => puts[k]? = some ch

/-- After call `i` moves to a statement other than `register`, a call at `register` is one
that was there before, and not call `i`. -/
theorem holds_caller_set {s : Sys} {puts : List Chan} {i j : Nat} {c c' : Caller}
    (hi : s.callers[i]? = some c) (hc' : ∀ msg X resp, c'.pc ≠ .register msg X resp) {m : Session}
    {log : List Nat} {ch : Chan}
    (hh : Holds { s with session := m, callers := s.callers.set i c', seqLog := log } puts ch (.caller j)) :
    j ≠ i ∧ Holds s puts ch (.caller j) := by
  obtain ⟨d, msg, X, hd, hpc⟩ := hh
  rcases getElem?_set_eq_some hi hd with ⟨-, rfl⟩ | ⟨hne, h⟩
  · exact absurd hpc (hc' msg X ch)
  · exact ⟨hne, d, msg, X, h, hpc⟩

/-- Service mode is off, only channels already made are held, and each by one holder. -/
structure OneHolder (s : Sys) (puts : List Chan) : Prop where
  off : s.session.serviceModeActivated = false
  made : ∀ ch h, Holds s puts ch h → ch < s.session.nextChannel
  unique : ∀ ch h h', Holds s puts ch h → Holds s puts ch h' → h = h'

namespace OneHolder

variable {s s' : Sys} {puts puts' : List Chan}

theorem start {m : Session} (hm : m.Idle) : OneHolder (Sys.start m) [] := by
  obtain ⟨hoff, hrc, hsp⟩ := hm
  have hnone : ∀ ch h, ¬ Holds (Sys.start m) [] ch h := by
    intro ch h hh
    cases h <;> simp [Holds, Sys.start, hrc, hsp] at hh
  exact ⟨hoff, fun ch h hh => absurd hh (hnone ch h), fun ch h _ hh => absurd hh (hnone ch h)⟩

/-- A step whose holders each come from a holder before it, one to one. -/
theorem transfer (hI : OneHolder s puts) (back : Holder → Holder)
    (hoff : s'.session.serviceModeActivated = false) (hnext : s.session.nextChannel ≤ s'.session.nextChannel)
    (hb : ∀ ch h, Holds s' puts' ch h → Holds s puts ch (back h))
    (hinj : ∀ ch h h', Holds s' puts' ch h → Holds s' puts' ch h' → back h = back h' → h = h') :
    OneHolder s' puts' where
  off := hoff
  made ch h hh := lt_of_lt_of_le (hI.made ch _ (hb ch h hh)) hnext
  unique ch h h' hh hh' := hinj ch h h' hh hh' (hI.unique ch _ _ (hb ch h hh) (hb ch h' hh'))

/-- A step that keeps every holder where it is. -/
theorem keep (hI : OneHolder s puts) (hoff : s'.session.serviceModeActivated = false)
    (hnext : s.session.nextChannel ≤ s'.session.nextChannel)
    (hb : ∀ ch h, Holds s' puts' ch h → Holds s puts ch h) : OneHolder s' puts' :=
  hI.transfer id hoff hnext hb fun _ _ _ _ _ e => e

/-- A step that makes the channel `s.session.nextChannel`, held by `fresh` alone, and keeps
every other holder where it is. -/
theorem make (hI : OneHolder s puts) (fresh : Holder) (hoff : s'.session.serviceModeActivated = false)
    (hnext : s'.session.nextChannel = s.session.nextChannel + 1)
    (hb : ∀ ch h, Holds s' puts' ch h → Holds s puts ch h ∨ (ch = s.session.nextChannel ∧ h = fresh)) :
    OneHolder s' puts' where
  off := hoff
  made ch h hh := by
    rw [hnext]
    rcases hb ch h hh with hh | ⟨rfl, -⟩
    · exact Nat.lt_succ_of_lt (hI.made ch h hh)
    · exact Nat.lt_succ_self _
  unique ch h h' hh hh' := by
    rcases hb ch h hh with hh | ⟨rfl, rfl⟩ <;> rcases hb _ h' hh' with hh' | ⟨he, rfl⟩
    · exact hI.unique _ h h' hh hh'
    · subst he
      exact absurd (hI.made _ h hh) (lt_irrefl _)
    · exact absurd (hI.made _ h' hh') (lt_irrefl _)
    · rfl

/-- A step that hands `a`'s channel to `b`'s holder before it, and keeps every other holder
where it is; `b` itself holds nothing after the step. -/
theorem replace (hI : OneHolder s puts) (a b : Holder) (hoff : s'.session.serviceModeActivated = false)
    (hnext : s.session.nextChannel ≤ s'.session.nextChannel)
    (hb : ∀ ch h, Holds s' puts' ch h → Holds s puts ch (if h = a then b else h))
    (hnb : ∀ ch, ¬ Holds s' puts' ch b) : OneHolder s' puts' := by
  refine hI.transfer (fun h => if h = a then b else h) hoff hnext hb fun ch h h' hh hh' e => ?_
  by_cases ha : h = a <;> by_cases ha' : h' = a <;> simp only [ha, ha', if_true, if_false] at e
  · exact ha.trans ha'.symm
  · exact absurd (e ▸ hh') (hnb ch)
  · exact absurd (e ▸ hh) (hnb ch)
  · exact e

/-- A statement of call `i` that touches no slot, goroutine, counter or service mode and
does not reach `register`. -/
theorem set_caller (hI : OneHolder s puts) {i : Nat} {c c' : Caller} (hi : s.callers[i]? = some c)
    (hc' : ∀ msg X resp, c'.pc ≠ .register msg X resp) {m : Session}
    (hrc : m.responseChannels = s.session.responseChannels) (hsp : m.spawned = s.session.spawned)
    (hnc : m.nextChannel = s.session.nextChannel)
    (hoff : m.serviceModeActivated = s.session.serviceModeActivated) (seqLog : List Nat) :
    OneHolder { s with session := m, callers := s.callers.set i c', seqLog := seqLog } puts :=
  hI.keep (hoff.trans hI.off) hnc.ge fun ch h hh => by
    cases h with
    | caller j => exact (holds_caller_set hi hc' hh).2
    | slot X => exact ⟨by rw [← hrc]; exact hh.1, hh.2⟩
    | goroutine j => show s.session.spawned[j]? = some ch; rw [← hsp]; exact hh
    | inbound | put k => exact hh

/-- `resp := m.getRespChannel()` outside service mode: a fresh channel, held by the call. -/
theorem respChannel (hI : OneHolder s puts) {i : Nat} {c : Caller} (hi : s.callers[i]? = some c)
    (msg : Bytes) (X : Int) (log : List Nat) :
    OneHolder { s with
      session := { s.session with nextChannel := s.session.nextChannel + 1 }
      callers := s.callers.set i { c with pc := .register msg X s.session.nextChannel }
      seqLog := log } puts := by
  refine hI.make (.caller i) hI.off rfl fun ch h hh => ?_
  cases h with
  | caller j =>
    obtain ⟨d, msg', X', hd, hdpc⟩ := hh
    rcases getElem?_set_eq_some hi hd with ⟨rfl, rfl⟩ | ⟨-, hd'⟩
    · exact .inr ⟨(Pc.register.inj hdpc).2.2.symm, rfl⟩
    · exact .inl ⟨d, msg', X', hd', hdpc⟩
  | slot | goroutine | inbound | put => exact .inl hh

/-- `m.responseChannels.Add(int(msgID), resp)`: the call's channel goes to the slot of its
ID, and whatever the slot held is dropped. -/
theorem register_slot (hI : OneHolder s puts) {i : Nat} {c : Caller} (hi : s.callers[i]? = some c)
    {msg : Bytes} {X : Int} {resp : Chan} (hpc : c.pc = .register msg X resp) (log : List Nat) :
    OneHolder { s with
      session := { s.session with
        responseChannels := Function.update s.session.responseChannels X (some resp) }
      callers := s.callers.set i { c with pc := .frame msg X resp }
      seqLog := log } puts := by
  refine hI.replace (.slot X) (.caller i) hI.off le_rfl (fun ch h hh => ?_)
    fun ch hh => (holds_caller_set hi (by simp) hh).1 rfl
  cases h with
  | caller j => simpa using (holds_caller_set hi (by simp) hh).2
  | slot Y =>
    obtain ⟨h1, h2⟩ := hh
    have h1 : Function.update s.session.responseChannels X (some resp) Y = some ch := h1
    by_cases hY : Y = X
    · subst hY
      rw [Function.update_same, Option.some.injEq] at h1
      subst h1
      simpa using ⟨c, msg, Y, hi, hpc⟩
    · rw [Function.update_noteq hY] at h1
      simpa [hY] using (⟨h1, h2⟩ : Holds s puts ch (.slot Y))
  | goroutine | inbound | put => simpa using hh

/-- `go func() { resp <- &objects.Null{} }()`: the call's channel goes to a new goroutine. -/
theorem register_goroutine (hI : OneHolder s puts) {i : Nat} {c : Caller} (hi : s.callers[i]? = some c)
    {msg : Bytes} {X : Int} {resp : Chan} (hpc : c.pc = .register msg X resp) (log : List Nat) :
    OneHolder { s with
      session := { s.session with spawned := s.session.spawned ++ [resp] }
      callers := s.callers.set i { c with pc := .frame msg X resp }
      seqLog := log } puts := by
  refine hI.replace (.goroutine s.session.spawned.length) (.caller i) hI.off le_rfl (fun ch h hh => ?_)
    fun ch hh => (holds_caller_set hi (by simp) hh).1 rfl
  cases h with
  | caller j => simpa using (holds_caller_set hi (by simp) hh).2
  | goroutine j =>
    rcases getElem?_append_singleton (show (s.session.spawned ++ [resp])[j]? = some ch from hh) with
      hj | ⟨rfl, rfl⟩
    · simpa [(List.getElem?_eq_some_iff.mp hj).1.ne] using hj
    · simpa using ⟨c, msg, X, hi, hpc⟩
  | slot | inbound | put => simpa using hh

/-- **A statement of a call** keeps one holder per channel. -/
theorem caller (hI : OneHolder s puts) {i : Nat} (hn : next s (.caller i) = some s') :
    OneHolder s' puts := by
  obtain ⟨c, m, c', hi, hstep, rfl⟩ := next_caller hn
  rcases Caller.step_channels hstep with ⟨msg, X, hpc, rfl, rfl⟩ | ⟨msg, X, resp, hpc, rfl, rfl⟩ |
    ⟨hreg, hrc, hsp, hnc, hoff⟩
  · have hg : getRespChannel s.session =
        ({ s.session with nextChannel := s.session.nextChannel + 1 }, s.session.nextChannel) := by
      simp [getRespChannel, hI.off]
    rw [hg]
    exact hI.respChannel hi msg X _
  · cases hnull : isNullableResponse c.request
    · rw [show registerResponse s.session c.request X resp = { s.session with
          responseChannels := Function.update s.session.responseChannels X (some resp) } by
        simp [registerResponse, hnull]]
      exact hI.register_slot hi hpc _
    · rw [show registerResponse s.session c.request X resp =
          { s.session with spawned := s.session.spawned ++ [resp] } by simp [registerResponse, hnull]]
      exact hI.register_goroutine hi hpc _
  · exact hI.set_caller hi hreg hrc hsp hnc hoff _

theorem spawn (hI : OneHolder s puts) (request : Request) (hints : List TypeHint) :
    OneHolder { s with callers := s.callers ++ [⟨request, hints, .marshal, none⟩] } puts :=
  hI.keep hI.off le_rfl fun ch h hh => by
    cases h with
    | caller j =>
      obtain ⟨d, msg, X, hd, hpc⟩ := hh
      rcases getElem?_append_singleton hd with hd | ⟨-, rfl⟩
      · exact ⟨d, msg, X, hd, hpc⟩
      · cases hpc
    | slot | goroutine | inbound | put => exact hh

theorem genId (hI : OneHolder s puts) {i : Nat} {X : Int} (hn : next s (.genId i X) = some s') :
    OneHolder s' puts := by
  obtain ⟨c, msg, hi, -, -, rfl⟩ := next_genId hn
  exact hI.set_caller hi (by simp) rfl rfl rfl rfl s.seqLog

theorem write (hI : OneHolder s puts) {i : Nat} {writeOk : Bool} (hn : next s (.write i writeOk) = some s') :
    OneHolder s' puts := by
  obtain ⟨c, X, resp, data, seqNo, hi, -, rfl⟩ := next_write hn
  exact hI.set_caller hi (by simp) (by rw [writeFrame_eq]) (by rw [writeFrame_eq]) (by rw [writeFrame_eq])
    (by rw [writeFrame_eq]) s.seqLog

theorem reply (hI : OneHolder s puts) {X : Int} {v : Obj} (hn : next s (.reply X v) = some s') :
    OneHolder s' puts := by
  simp only [next] at hn
  split at hn <;> simp only [Option.some.injEq, reduceCtorEq] at hn
  subst hn
  refine hI.keep hI.off le_rfl fun ch h hh => ?_
  cases h with
  | slot Y => exact ⟨hh.1, by simp [Inbound.busyWith, *]⟩
  | inbound =>
    obtain ⟨_, _, h⟩ := hh
    cases h
  | caller | goroutine | put => exact hh

theorem setEncrypted (hI : OneHolder s puts) (b : Bool) :
    OneHolder { s with session := { s.session with encrypted := b } } puts :=
  hI.keep hI.off le_rfl fun _ _ hh => hh

/-! ### The inbound path -/

/-- The lookup that finds `ch` hands the slot's channel to the inbound path. -/
theorem lookup_hit (hI : OneHolder s puts) {X : Int} {v : Obj} {ch : Chan} (hget : s.inbound = .get X v)
    (hch : s.session.responseChannels X = some ch) :
    OneHolder { s with inbound := .send X v ch, delivered := s.delivered ++ [X] } puts := by
  refine hI.replace .inbound (.slot X) hI.off le_rfl (fun c h hh => ?_) fun c hh => ?_
  · cases h with
    | inbound =>
      obtain ⟨_, _, he⟩ := hh
      cases he
      simpa using (⟨hch, by simp [hget, Inbound.busyWith]⟩ : Holds s puts _ (.slot X))
    | slot Y => simpa using (⟨hh.1, by simp [hget, Inbound.busyWith]⟩ : Holds s puts c (.slot Y))
    | caller | goroutine | put => simpa using hh
  · simp [Holds, Inbound.busyWith] at hh

theorem lookup_miss (hI : OneHolder s puts) {X : Int} {v : Obj} (hget : s.inbound = .get X v) :
    OneHolder { s with inbound := .idle } puts :=
  hI.keep hI.off le_rfl fun c h hh => by
    cases h with
    | slot Y => exact ⟨hh.1, by simp [hget, Inbound.busyWith]⟩
    | inbound =>
      obtain ⟨_, _, he⟩ := hh
      cases he
    | caller | goroutine | put => exact hh

/-- `v <- data` turns the inbound path's hold into a put. -/
theorem send (hI : OneHolder s puts) {X : Int} {v : Obj} {ch : Chan} (hsend : s.inbound = .send X v ch) :
    OneHolder { s with
      session := { s.session with channels := push s.session.channels ch v }
      inbound := .dropChannel X } (puts ++ [ch]) := by
  refine hI.replace (.put puts.length) .inbound hI.off le_rfl (fun c h hh => ?_) fun c hh => ?_
  · cases h with
    | put k =>
      rcases getElem?_append_singleton (show (puts ++ [ch])[k]? = some c from hh) with hk | ⟨rfl, rfl⟩
      · have hlt := (List.getElem?_eq_some_iff.mp hk).1
        simpa [hlt.ne] using hk
      · simpa using (⟨X, v, hsend⟩ : Holds s puts _ .inbound)
    | slot Y => exact ⟨hh.1, by rw [hsend]; exact hh.2⟩
    | inbound =>
      obtain ⟨_, _, he⟩ := hh
      cases he
    | caller | goroutine => simpa using hh
  · obtain ⟨_, _, he⟩ := hh
    cases he

theorem dropChannel (hI : OneHolder s puts) {X : Int} (hdrop : s.inbound = .dropChannel X) :
    OneHolder { s with
      session := { s.session with responseChannels := Function.update s.session.responseChannels X none }
      inbound := .dropTypes X } puts :=
  hI.keep hI.off le_rfl fun c h hh => by
    cases h with
    | slot Y =>
      obtain ⟨h1, -⟩ := hh
      have h1 : Function.update s.session.responseChannels X none Y = some c := h1
      by_cases hY : Y = X
      · subst hY
        simp at h1
      · rw [Function.update_noteq hY] at h1
        exact ⟨h1, by simp [hdrop, Inbound.busyWith, Ne.symm hY]⟩
    | inbound =>
      obtain ⟨_, _, he⟩ := hh
      cases he
    | caller | goroutine | put => exact hh

theorem dropTypes (hI : OneHolder s puts) {X : Int} (hdrop : s.inbound = .dropTypes X) :
    OneHolder { s with
      session := { s.session with expectedTypes := Function.update s.session.expectedTypes X none }
      inbound := .idle } puts :=
  hI.keep hI.off le_rfl fun c h hh => by
    cases h with
    | slot Y => exact ⟨hh.1, by simp [hdrop, Inbound.busyWith]⟩
    | inbound =>
      obtain ⟨_, _, he⟩ := hh
      cases he
    | caller | goroutine | put => exact hh

/-- Where each holder after goroutine `j` puts `Null`, with `n` puts before, was before the
put: the goroutines from `j` on were one further up, and the new put was goroutine `j`. -/
def nullBack (j n : Nat) : Holder → Holder
  | .goroutine i => .goroutine (if i < j then i else i + 1)
  | .put k => if k = n then .goroutine j else .put k
  | h => h

/-- The way back from `nullBack`. -/
def nullFwd (j n : Nat) : Holder → Holder
  | .goroutine i => if i < j then .goroutine i else if i = j then .put n else .goroutine (i - 1)
  | h => h

theorem nullFwd_nullBack (j n : Nat) (h : Holder) : nullFwd j n (nullBack j n h) = h := by
  cases h with
  | goroutine i =>
    by_cases hi : i < j
    · simp [nullBack, nullFwd, hi]
    · simp [nullBack, nullFwd, hi, show ¬ i + 1 < j by omega, show i + 1 ≠ j by omega]
  | put k => by_cases hk : k = n <;> simp [nullBack, nullFwd, hk]
  | caller | slot | inbound => rfl

/-- A goroutine of the nullable path turns its hold into a put; the goroutines after it move
down by one. -/
theorem null (hI : OneHolder s puts) {j : Nat} {ch : Chan} (hj : s.session.spawned[j]? = some ch) :
    OneHolder { s with session := { s.session with
      channels := push s.session.channels ch .null
      spawned := s.session.spawned.eraseIdx j } } (puts ++ [ch]) := by
  refine hI.transfer (nullBack j puts.length) hI.off le_rfl (fun c h hh => ?_)
    fun _ _ _ _ _ e => Function.LeftInverse.injective (nullFwd_nullBack j puts.length) e
  cases h with
  | goroutine i =>
    have hi : (s.session.spawned.eraseIdx j)[i]? = some c := hh
    rw [List.getElem?_eraseIdx] at hi
    show s.session.spawned[if i < j then i else i + 1]? = some c
    split_ifs at hi ⊢ <;> exact hi
  | put k =>
    show Holds s puts c (if k = puts.length then .goroutine j else .put k)
    rcases getElem?_append_singleton (show (puts ++ [ch])[k]? = some c from hh) with hk | ⟨rfl, rfl⟩
    · rw [if_neg (List.getElem?_eq_some_iff.mp hk).1.ne]
      exact hk
    · rw [if_pos rfl]
      exact hj
  | caller | slot | inbound => exact hh

/-- A step that puts nothing leaves the puts as they were. -/
theorem of_putOn_none {ℓ : Label} (h : s.putOn ℓ = none) (hI : OneHolder s' puts) :
    OneHolder s' (puts ++ (s.putOn ℓ).toList) := by
  rwa [h, Option.toList_none, List.append_nil]

/-- **Every step of a run with service mode left off keeps one holder per channel.** -/
theorem next (hI : OneHolder s puts) {ℓ : Label} (hℓ : serviceStays s ℓ = true)
    (hn : Network.next s ℓ = some s') : OneHolder s' (puts ++ (s.putOn ℓ).toList) := by
  cases ℓ with
  | spawn request hints =>
    simp only [Network.next, Option.some.injEq] at hn
    exact of_putOn_none rfl (hn ▸ hI.spawn request hints)
  | caller i => exact of_putOn_none rfl (hI.caller hn)
  | genId i X => exact of_putOn_none rfl (hI.genId hn)
  | write i writeOk => exact of_putOn_none rfl (hI.write hn)
  | reply X v => exact of_putOn_none rfl (hI.reply hn)
  | inbound =>
    simp only [Network.next] at hn
    cases hin : s.inbound with
    | idle => simp [hin] at hn
    | get X v =>
      refine of_putOn_none (by simp [Sys.putOn, hin]) ?_
      cases hrc : s.session.responseChannels X with
      | none =>
        simp only [hin, hrc, Option.some.injEq] at hn
        exact hn ▸ hI.lookup_miss hin
      | some ch =>
        simp only [hin, hrc, Option.some.injEq] at hn
        exact hn ▸ hI.lookup_hit hin hrc
    | send X v ch =>
      simp only [hin, Option.some.injEq] at hn
      have hput : s.putOn .inbound = some ch := by simp [Sys.putOn, hin]
      rw [hput]
      exact hn ▸ hI.send hin
    | dropChannel X =>
      simp only [hin, Option.some.injEq] at hn
      exact of_putOn_none (by simp [Sys.putOn, hin]) (hn ▸ hI.dropChannel hin)
    | dropTypes X =>
      simp only [hin, Option.some.injEq] at hn
      exact of_putOn_none (by simp [Sys.putOn, hin]) (hn ▸ hI.dropTypes hin)
  | null j =>
    simp only [Network.next] at hn
    cases hj : s.session.spawned[j]? with
    | none => simp [hj] at hn
    | some ch =>
      simp only [hj, Option.some.injEq] at hn
      have hput : s.putOn (.null j) = some ch := hj
      rw [hput]
      exact hn ▸ hI.null hj
  | setEncrypted b =>
    simp only [Network.next, Option.some.injEq] at hn
    exact of_putOn_none rfl (hn ▸ hI.setEncrypted b)
  | setServiceMode b => simp [serviceStays] at hℓ

theorem traced {m : Session} (hm : m.Idle) {s : Sys} {puts : List Chan}
    (h : Traced serviceStays (Sys.start m) s puts) : OneHolder s puts := by
  induction h with
  | init => exact start hm
  | step ℓ _ hℓ hn ih => exact ih.next hℓ hn

end OneHolder

/-! ## At most one value per channel -/

/-- **Outside service mode no reply channel gets two values.** Along every run from a
session with no reply slot and no pending goroutine, with service mode off throughout,
whatever the server replies to (any ID, any number of times), whatever IDs
`GenerateMessageId` returns (repeated ones included) and whatever the transport does, the
channels values are put on are pairwise distinct: a call's channel receives its reply or,
for a nullable request, `Null`, never both, and never a value of another call. -/
theorem reply_channel_gets_one_value {m : Session} (hm : m.Idle) {s : Sys} {puts : List Chan}
    (h : Traced serviceStays (Sys.start m) s puts) : puts.Nodup := by
  have hI := OneHolder.traced hm h
  refine List.nodup_iff_getElem?_ne_getElem?.mpr fun k k' hlt hk' e => ?_
  have hk : puts[k]? = some puts[k] := List.getElem?_eq_getElem (by omega)
  have hput := hI.unique puts[k] (.put k) (.put k') hk (e ▸ hk)
  cases hput
  exact lt_irrefl k hlt

/-- A schedule that runs to the end from `s₀` and whose puts satisfy `P` gives a traced run
whose puts satisfy `P`. -/
theorem traced_of_schedule {allowed : Sys → Label → Bool} {s₀ : Sys} (ℓs : List Label)
    {P : List Chan → Prop} [DecidablePred P]
    (h : (tracedSchedule allowed s₀ [] ℓs).map (fun r => decide (P r.2)) = some true) :
    ∃ s puts, Traced allowed s₀ s puts ∧ P puts := by
  cases hr : tracedSchedule allowed s₀ [] ℓs with
  | none => simp [hr] at h
  | some r => exact ⟨r.1, r.2, Traced.of_tracedSchedule .init hr, by simpa [hr] using h⟩

/-! ## Poles -/

/-- `req_pq_multi` with ID 1 and a `Pong` with ID 2, each written; the reply to 1 is
delivered and the `Pong`'s goroutine runs. -/
def replyAndPong : List Label :=
  [.spawn reqPQ [], .caller 0, .genId 0 1] ++ List.replicate 7 (.caller 0) ++ [.write 0 true,
    .spawn ⟨.pong, false, some []⟩ [], .caller 1, .genId 1 2] ++ List.replicate 7 (.caller 1) ++
    [.write 1 true, .reply 1 (.object 7), .inbound, .inbound, .null 0]

theorem reply_and_pong_get_one_each :
    handshakeSession.Idle ∧ ∃ s puts, Traced serviceStays (Sys.start handshakeSession) s puts ∧
      puts = [1, 2] ∧ puts.Nodup := by
  have hm : handshakeSession.Idle := ⟨rfl, fun _ => rfl, rfl⟩
  obtain ⟨s, puts, h, hp⟩ : ∃ s puts, Traced serviceStays (Sys.start handshakeSession) s puts ∧ puts = [1, 2] :=
    traced_of_schedule replyAndPong (by decide)
  exact ⟨hm, s, puts, h, hp, reply_channel_gets_one_value hm h⟩

end Gogram.Network
