/-
# Network.Delivery — a reply reaches the call that asked for it, once

Outside service mode, with the server replying only to frames the transport accepted
and a clock that never repeats an ID, every interleaving of `sendPacket` calls with the
inbound path keeps `Inv`: each reply slot belongs to one registered call, a call that
holds its channel past `register` keeps its slot until its ID is delivered, and a
delivered ID has no slot once the inbound path is done with it. From it:

* `reply_reaches_its_caller`: the first `writeRPCResponse(X, v)` finds the channel
  `sendPacket` returned for `X`, puts `v` on that channel and on no other, and every
  later one returns the "no response channel" error and changes nothing.
-/
import Gogram.Network.Interleaving

namespace Gogram.Network

set_option autoImplicit false

/-! ## The environment of the delivery contract -/

/-- No table entry and no frame yet, and service mode off. -/
def Session.Fresh (m : Session) : Prop :=
  m.serviceModeActivated = false ∧ (∀ X, m.responseChannels X = none) ∧ m.wire = []

/-- Service mode stays off, the server replies only to IDs of frames the transport
accepted (any number of times), and `GenerateMessageId` never returns an ID a call
already holds. -/
def delivery : Sys → Label → Bool
  | _, .setServiceMode _ => false
  | s, .reply msgID _ => s.session.wire.any (fun w => w.data.msgID == msgID)
  | s, .genId _ msgID => s.callers.all (fun c => c.pc.msgID? != some msgID)
  | _, _ => true

/-- The inbound path is between the send and the deletion of `msgID`'s slot. -/
def Inbound.busyWith (msgID : Int) : Inbound → Bool
  | .send X _ _ | .dropChannel X => X == msgID
  | _ => false

/-- A frame a call holds carries the call's ID. -/
def Pc.Framed : Pc → Prop
  | .seq msgID _ data | .zeroSeq msgID _ data _ | .write msgID _ data _ => data.msgID = msgID
  | _ => True

theorem Pc.registered_of_returned {pc : Pc} {ch : Chan} (h : pc.returned? = some ch) :
    pc.registered = true := by
  unfold returned? at h
  split at h <;> first | rfl | cases h

theorem Pc.resp_of_returned {pc : Pc} {ch : Chan} (h : pc.returned? = some ch) :
    pc.resp? = some ch := by
  unfold returned? at h
  split at h <;> first | exact h | cases h

/-- What a statement other than the environment's choices and `register` does to a
call: its ID, request and registration stay, a channel it holds after `register` is the
one it held, and a channel it got back stays. -/
structure Caller.Follows (c c' : Caller) : Prop where
  msgID : c'.pc.msgID? = c.pc.msgID?
  request : c'.request = c.request
  registered : c'.pc.registered = c.pc.registered
  resp : ∀ ch, c'.pc.resp? = some ch → c.pc.registered → c.pc.resp? = some ch
  returned : ∀ ch, c.pc.returned? = some ch → c'.pc.returned? = some ch
  framed : c.pc.Framed → c'.pc.Framed

/-- **What one statement of a call can do**: `register` writes the slot or spawns the
nullable goroutine; every other statement follows the call and leaves the reply table,
the wire and service mode alone. -/
theorem Caller.step_cases {m m' : Session} {c c' : Caller} (h : c.step m = some (m', c')) :
    (∃ msg X resp, c.pc = .register msg X resp ∧ m' = registerResponse m c.request X resp ∧
      c' = { c with pc := .frame msg X resp }) ∨
    (c.Follows c' ∧ m'.responseChannels = m.responseChannels ∧ m'.wire = m.wire ∧
      m'.serviceModeActivated = m.serviceModeActivated) := by
  obtain ⟨request, hints, pc, updated⟩ := c
  cases pc with
  | register msg X resp =>
      simp only [Caller.step, Option.some.injEq, Prod.mk.injEq] at h
      exact .inl ⟨msg, X, resp, rfl, h.1.symm, h.2.symm⟩
  | marshal =>
      simp only [Caller.step, Option.some.injEq, Prod.mk.injEq] at h
      obtain ⟨rfl, rfl⟩ := h
      refine .inr ⟨⟨?_, rfl, ?_, ?_, ?_, ?_⟩, rfl, rfl, rfl⟩ <;> cases request.encoded <;>
        simp [Pc.msgID?, Pc.registered, Pc.resp?, Pc.returned?, Pc.Framed]
  | returned X r =>
      rcases X with _ | X <;> rcases r with _ | resp <;>
        simp only [Caller.step, reduceCtorEq] at h
      split at h <;> simp only [Option.some.injEq, Prod.mk.injEq, reduceCtorEq] at h
      obtain ⟨rfl, rfl⟩ := h
      refine .inr ⟨⟨?_, rfl, ?_, ?_, ?_, ?_⟩, rfl, rfl, rfl⟩ <;>
        simp [Pc.msgID?, Pc.registered, Pc.resp?, Pc.returned?, Pc.Framed]
  | _ =>
      simp only [Caller.step, Option.some.injEq, Prod.mk.injEq, reduceCtorEq] at h <;>
      obtain ⟨rfl, rfl⟩ := h <;>
      refine .inr ⟨⟨?_, rfl, ?_, ?_, ?_, ?_⟩, ?_, ?_, ?_⟩ <;>
      simp [Pc.msgID?, Pc.registered, Pc.resp?, Pc.returned?, Pc.Framed,
        addExpectedTypes_eq, getRespChannel_eq, updateSeqNo]

theorem Caller.Follows.refl (c : Caller) : c.Follows c :=
  ⟨rfl, rfl, rfl, fun _ h _ => h, fun _ => id, id⟩

/-! ## The invariant -/

structure Inv (s : Sys) : Prop where
  off : s.session.serviceModeActivated = false
  /-- no two calls hold one ID -/
  unique : ∀ (i j : Nat) (c d : Caller) (X : Int), s.callers[i]? = some c →
    s.callers[j]? = some d → c.pc.msgID? = some X → d.pc.msgID? = some X → i = j
  framed : ∀ (i : Nat) (c : Caller), s.callers[i]? = some c → c.pc.Framed
  /-- a slot belongs to a registered non-nullable call -/
  owned : ∀ (X : Int) (ch : Chan), s.session.responseChannels X = some ch →
    ∃ (i : Nat) (c : Caller), s.callers[i]? = some c ∧ c.pc.msgID? = some X ∧
      c.pc.registered ∧ isNullableResponse c.request = false
  /-- a registered non-nullable call that holds its channel has its slot until delivery -/
  live : ∀ (i : Nat) (c : Caller) (X : Int) (ch : Chan), s.callers[i]? = some c →
    c.pc.msgID? = some X → isNullableResponse c.request = false → c.pc.registered →
    c.pc.resp? = some ch → X ∉ s.delivered → s.session.responseChannels X = some ch
  deliveredOwned : ∀ X ∈ s.delivered, ∃ (i : Nat) (c : Caller), s.callers[i]? = some c ∧
    c.pc.msgID? = some X ∧ c.pc.registered
  /-- a delivered ID has no slot once the inbound path is done with it -/
  cleared : ∀ X ∈ s.delivered, s.session.responseChannels X = none ∨ s.inbound.busyWith X
  busy : ∀ X, s.inbound.busyWith X → X ∈ s.delivered
  /-- an accepted frame is a call's that got its channel back -/
  wire : ∀ w ∈ s.session.wire, ∃ (i : Nat) (c : Caller), s.callers[i]? = some c ∧
    c.pc.msgID? = some w.data.msgID ∧ c.pc.returned?.isSome
  getting : ∀ X v, s.inbound = .get X v → ∃ w ∈ s.session.wire, w.data.msgID = X
  /-- the inbound path sends on the channel the call got back -/
  sending : ∀ X v ch, s.inbound = .send X v ch → ∃ (i : Nat) (c : Caller),
    s.callers[i]? = some c ∧ c.pc.msgID? = some X ∧ c.pc.returned? = some ch

namespace Inv

variable {s : Sys}

theorem start {m : Session} (hm : m.Fresh) : Inv (Sys.start m) := by
  obtain ⟨hoff, hrc, hwire⟩ := hm
  refine ⟨hoff, ?_, ?_, ?_, ?_, ?_, ?_, ?_, ?_, ?_, ?_⟩ <;> simp [Sys.start, Inbound.busyWith, hrc, hwire]

section Follow

variable {i : Nat} {c c' : Caller} (hi : s.callers[i]? = some c) (hf : c.Follows c')
include hi hf

/-- Every call of the rewritten list follows the call at its index before. -/
theorem follows_of_set {j : Nat} {d : Caller} (hd : (s.callers.set i c')[j]? = some d) :
    ∃ d₀ : Caller, s.callers[j]? = some d₀ ∧ d₀.Follows d := by
  rcases getElem?_set_eq_some hi hd with ⟨rfl, rfl⟩ | ⟨-, hd⟩
  · exact ⟨c, hi, hf⟩
  · exact ⟨d, hd, .refl d⟩

theorem exists_of_set {P : Caller → Prop} (hP : ∀ {d d' : Caller}, d.Follows d' → P d → P d') :
    (∃ (j : Nat) (d : Caller), s.callers[j]? = some d ∧ P d) →
      ∃ (j : Nat) (d : Caller), (s.callers.set i c')[j]? = some d ∧ P d := by
  rintro ⟨j, d, hd, hPd⟩
  by_cases hj : j = i
  · subst hj
    obtain rfl := Option.some.inj (hi.symm.trans hd)
    exact ⟨j, c', by simp [getElem?_set_of hi], hP hf hPd⟩
  · exact ⟨j, d, by rw [getElem?_set_of hi, if_neg hj, hd], hPd⟩

/-- **A statement that only moves one call along** keeps the invariant, when the
reply table and service mode stay and the wire only gains a frame of that call, sent
once the call got its channel back. -/
theorem set (h : Inv s) {m' : Session}
    (hrc : m'.responseChannels = s.session.responseChannels)
    (hoff : m'.serviceModeActivated = s.session.serviceModeActivated)
    (hwire : m'.wire = s.session.wire ∨ ∃ w, m'.wire = s.session.wire ++ [w] ∧
      c'.pc.msgID? = some w.data.msgID ∧ c'.pc.returned?.isSome) :
    Inv { s with session := m', callers := s.callers.set i c' } where
  off := hoff.trans h.off
  unique j k d e X hd he hdX heX := by
    obtain ⟨d₀, hd₀, hfd⟩ := follows_of_set hi hf hd
    obtain ⟨e₀, he₀, hfe⟩ := follows_of_set hi hf he
    exact h.unique j k d₀ e₀ X hd₀ he₀ (hfd.msgID ▸ hdX) (hfe.msgID ▸ heX)
  framed j d hd := by
    obtain ⟨d₀, hd₀, hfd⟩ := follows_of_set hi hf hd
    exact hfd.framed (h.framed j d₀ hd₀)
  owned X ch hX := exists_of_set hi hf
    (fun hfd ⟨h1, h2, h3⟩ => ⟨hfd.msgID ▸ h1, hfd.registered ▸ h2, hfd.request ▸ h3⟩)
    (h.owned X ch (hrc ▸ hX))
  live j d X ch hd hdX hnn hreg hresp hdel := by
    obtain ⟨d₀, hd₀, hfd⟩ := follows_of_set hi hf hd
    have hreg₀ : d₀.pc.registered := hfd.registered ▸ hreg
    exact hrc ▸ h.live j d₀ X ch hd₀ (hfd.msgID ▸ hdX) (hfd.request ▸ hnn) hreg₀
      (hfd.resp ch hresp hreg₀) hdel
  deliveredOwned X hX := exists_of_set hi hf
    (fun hfd ⟨h1, h2⟩ => ⟨hfd.msgID ▸ h1, hfd.registered ▸ h2⟩) (h.deliveredOwned X hX)
  cleared X hX := hrc ▸ h.cleared X hX
  busy := h.busy
  wire w hw := by
    have hP : ∀ {d d' : Caller}, d.Follows d' →
        (d.pc.msgID? = some w.data.msgID ∧ d.pc.returned?.isSome) →
        (d'.pc.msgID? = some w.data.msgID ∧ d'.pc.returned?.isSome) := by
      intro d d' hfd ⟨h1, h2⟩
      obtain ⟨ch, hch⟩ := Option.isSome_iff_exists.mp h2
      exact ⟨hfd.msgID ▸ h1, by rw [hfd.returned ch hch]; rfl⟩
    rcases hwire with hw' | ⟨w', hw', hid, hret⟩ <;> rw [hw'] at hw
    · exact exists_of_set hi hf hP (h.wire w hw)
    · rcases List.mem_append.mp hw with hw | hw
      · exact exists_of_set hi hf hP (h.wire w hw)
      · obtain rfl := List.mem_singleton.mp hw
        exact ⟨i, c', by simp [getElem?_set_of hi], hid, hret⟩
  getting X v hX := by
    obtain ⟨w, hw, hwX⟩ := h.getting X v hX
    exact ⟨w, by rcases hwire with hw' | ⟨w', hw', -⟩ <;> simp [hw', hw], hwX⟩
  sending X v ch hX := exists_of_set hi hf
    (fun hfd ⟨h1, h2⟩ => ⟨hfd.msgID ▸ h1, hfd.returned ch h2⟩) (h.sending X v ch hX)

end Follow

/-- Only the session, the calls, the inbound path and the delivered IDs matter. -/
theorem congr (h : Inv s) {s' : Sys} (hs : s'.session = s.session) (hc : s'.callers = s.callers)
    (hi : s'.inbound = s.inbound) (hd : s'.delivered = s.delivered) : Inv s' := by
  obtain ⟨session, callers, inbound, delivered, seqLog⟩ := s'
  simp only at hs hc hi hd
  subst hs hc hi hd
  exact ⟨h.off, h.unique, h.framed, h.owned, h.live, h.deliveredOwned, h.cleared, h.busy, h.wire,
    h.getting, h.sending⟩

/-- `register`: a non-nullable call takes the slot of its ID, which nobody held and which
was never delivered, since no call but this one holds the ID. -/
theorem register (h : Inv s) {i : Nat} {c : Caller} (hi : s.callers[i]? = some c) {msg : Bytes}
    {X : Int} {resp : Chan} (hpc : c.pc = .register msg X resp) :
    Inv { s with
      session := registerResponse s.session c.request X resp
      callers := s.callers.set i { c with pc := .frame msg X resp } } := by
  have hcX : c.pc.msgID? = some X := by simp [hpc, Pc.msgID?]
  have hcreg : c.pc.registered = false := by simp [hpc, Pc.registered]
  have hown : ∀ (j : Nat) (d : Caller), s.callers[j]? = some d → d.pc.msgID? = some X → j = i := fun j d hd hdX =>
    h.unique j i d c X hd hi hdX hcX
  have hunreg : ∀ (j : Nat) (d : Caller), s.callers[j]? = some d → d.pc.msgID? = some X →
      ¬ d.pc.registered := fun j d hd hdX hreg => by
    obtain rfl := hown j d hd hdX
    obtain rfl := Option.some.inj (hi.symm.trans hd)
    simp [hcreg] at hreg
  have hnotdel : X ∉ s.delivered := fun hX =>
    let ⟨j, d, hd, hdX, hreg⟩ := h.deliveredOwned X hX
    hunreg j d hd hdX hreg
  have hrc : ∀ Y, Y ≠ X → (registerResponse s.session c.request X resp).responseChannels Y =
      s.session.responseChannels Y := fun Y hY => by
    rw [registerResponse_eq]; split <;> simp [Function.update_noteq hY]
  have hcase : ∀ {j : Nat} {d : Caller}, (s.callers.set i { c with pc := .frame msg X resp })[j]? = some d →
      (j = i ∧ d = { c with pc := .frame msg X resp }) ∨ (j ≠ i ∧ s.callers[j]? = some d) :=
    getElem?_set_eq_some hi
  refine ⟨by simp [h.off], fun j k d e Y hd he hdY heY => ?_, fun j d hd => ?_, fun Y ch hY => ?_,
    fun j d Y ch hd hdY hnn hreg hresp hdel => ?_, fun Y hY => ?_, fun Y hY => ?_, h.busy,
    fun w hw => ?_, by simpa using h.getting, fun Y v ch hY => ?_⟩
  · rcases hcase hd with ⟨rfl, rfl⟩ | ⟨-, hd'⟩ <;> rcases hcase he with ⟨rfl, rfl⟩ | ⟨-, he'⟩
    · rfl
    · exact h.unique _ _ c e Y hi he' (hcX ▸ hdY) heY
    · exact h.unique _ _ d c Y hd' hi hdY (hcX ▸ heY)
    · exact h.unique j k d e Y hd' he' hdY heY
  · rcases hcase hd with ⟨-, rfl⟩ | ⟨-, hd⟩
    · simp [Pc.Framed]
    · exact h.framed j d hd
  · by_cases hYX : Y = X
    · subst hYX
      refine ⟨i, { c with pc := .frame msg Y resp }, by simp [getElem?_set_of hi], rfl,
        by simp [Pc.registered], ?_⟩
      by_contra hn
      simp only [registerResponse_eq, Bool.not_eq_false] at hY hn
      rw [if_pos hn] at hY
      obtain ⟨j, d, hd, hdX, hreg, -⟩ := h.owned Y ch hY
      exact hunreg j d hd hdX hreg
    · exact exists_getElem?_set hi (by simp [hcreg]) _ (h.owned Y ch (hrc Y hYX ▸ hY))
  · rcases hcase hd with ⟨rfl, rfl⟩ | ⟨hj, hd⟩
    · simp only [Pc.msgID?, Pc.resp?, Option.some.injEq] at hdY hresp
      subst hdY hresp
      simp [registerResponse_eq, hnn]
    · have hYX : Y ≠ X := fun e => hj (hown j d hd (e ▸ hdY))
      exact (hrc Y hYX).trans (h.live j d Y ch hd hdY hnn hreg hresp hdel)
  · exact exists_getElem?_set hi (by simp [hcreg]) _ (h.deliveredOwned Y hY)
  · have hYX : Y ≠ X := fun e => hnotdel (e ▸ hY)
    simpa only [hrc Y hYX] using h.cleared Y hY
  · refine exists_getElem?_set hi (fun ⟨_, hret⟩ => ?_) _ (h.wire w (by simpa using hw))
    simp [hpc, Pc.returned?] at hret
  · refine exists_getElem?_set hi (fun ⟨_, hret⟩ => ?_) _ (h.sending Y v ch hY)
    simp [hpc, Pc.returned?] at hret

/-- `GenerateMessageId` hands a call an ID no call holds. -/
theorem genId (h : Inv s) {i : Nat} {c : Caller} (hi : s.callers[i]? = some c) {msg : Bytes}
    {X : Int} (hpc : c.pc = .genId msg) (hfresh : ∀ d ∈ s.callers, d.pc.msgID? ≠ some X) :
    Inv { s with callers := s.callers.set i { c with pc := .storeId msg X } } := by
  have hc : c.pc.msgID? = none := by simp [hpc, Pc.msgID?]
  have hcase : ∀ {j : Nat} {d : Caller}, (s.callers.set i { c with pc := .storeId msg X })[j]? = some d →
      (j = i ∧ d = { c with pc := .storeId msg X }) ∨ (j ≠ i ∧ s.callers[j]? = some d) :=
    getElem?_set_eq_some hi
  have hold : ∀ {j : Nat} {d : Caller} {Y : Int}, s.callers[j]? = some d → d.pc.msgID? = some Y → Y ≠ X :=
    fun hd hdY e => hfresh _ (List.getElem?_mem hd) (e ▸ hdY)
  have hsurv : ∀ {P : Caller → Prop}, (∃ (j : Nat) (d : Caller), s.callers[j]? = some d ∧ P d) →
      (∀ d, P d → d.pc.msgID?.isSome) →
      ∃ (j : Nat) (d : Caller), (s.callers.set i { c with pc := .storeId msg X })[j]? = some d ∧ P d :=
    fun hex hP => exists_getElem?_set hi (fun hPc => by simpa [hc] using hP c hPc) _ hex
  refine ⟨h.off, fun j k d e Y hd he hdY heY => ?_, fun j d hd => ?_,
    fun Y ch hY => hsurv (h.owned Y ch hY) (fun d hd => by simp [hd.1]),
    fun j d Y ch hd hdY hnn hreg hresp hdel => ?_,
    fun Y hY => hsurv (h.deliveredOwned Y hY) (fun d hd => by simp [hd.1]), h.cleared, h.busy,
    fun w hw => hsurv (h.wire w hw) (fun d hd => by simp [hd.1]), h.getting,
    fun Y v ch hY => hsurv (h.sending Y v ch hY) (fun d hd => by simp [hd.1])⟩
  · rcases hcase hd with ⟨rfl, rfl⟩ | ⟨-, hd'⟩ <;> rcases hcase he with ⟨rfl, rfl⟩ | ⟨-, he'⟩
    · rfl
    · simp only [Pc.msgID?, Option.some.injEq] at hdY; exact absurd hdY.symm (hold he' heY)
    · simp only [Pc.msgID?, Option.some.injEq] at heY; exact absurd heY.symm (hold hd' hdY)
    · exact h.unique j k d e Y hd' he' hdY heY
  · rcases hcase hd with ⟨-, rfl⟩ | ⟨-, hd'⟩
    · simp [Pc.Framed]
    · exact h.framed j d hd'
  · rcases hcase hd with ⟨-, rfl⟩ | ⟨-, hd'⟩
    · simp [Pc.registered] at hreg
    · exact h.live j d Y ch hd' hdY hnn hreg hresp hdel

/-- A new call starts before `tl.Marshal`, with no ID. -/
theorem spawn (h : Inv s) (request : Request) (hints : List TypeHint) :
    Inv { s with callers := s.callers ++ [⟨request, hints, .marshal, none⟩] } := by
  have hsurv : ∀ {P : Caller → Prop}, (∃ (j : Nat) (d : Caller), s.callers[j]? = some d ∧ P d) →
      ∃ (j : Nat) (d : Caller), (s.callers ++ [⟨request, hints, .marshal, none⟩])[j]? = some d ∧ P d :=
    fun ⟨j, d, hd, hP⟩ => ⟨j, d, getElem?_append_of hd _, hP⟩
  refine ⟨h.off, fun j k d e Y hd he hdY heY => ?_, fun j d hd => ?_,
    fun Y ch hY => hsurv (h.owned Y ch hY), fun j d Y ch hd hdY hnn hreg hresp hdel => ?_,
    fun Y hY => hsurv (h.deliveredOwned Y hY), h.cleared, h.busy, fun w hw => hsurv (h.wire w hw),
    h.getting, fun Y v ch hY => hsurv (h.sending Y v ch hY)⟩
  · rcases getElem?_append_singleton hd with hd' | ⟨-, rfl⟩
    · rcases getElem?_append_singleton he with he' | ⟨-, rfl⟩
      · exact h.unique j k d e Y hd' he' hdY heY
      · simp [Pc.msgID?] at heY
    · simp [Pc.msgID?] at hdY
  · rcases getElem?_append_singleton hd with hd' | ⟨-, rfl⟩
    · exact h.framed j d hd'
    · simp [Pc.Framed]
  · rcases getElem?_append_singleton hd with hd' | ⟨-, rfl⟩
    · exact h.live j d Y ch hd' hdY hnn hreg hresp hdel
    · simp [Pc.msgID?] at hdY

/-- A step that leaves the calls, the reply table, the wire and service mode alone. -/
theorem session (h : Inv s) {m' : Session}
    (hrc : m'.responseChannels = s.session.responseChannels) (hwire : m'.wire = s.session.wire)
    (hoff : m'.serviceModeActivated = s.session.serviceModeActivated) :
    Inv { s with session := m' } :=
  ⟨hoff.trans h.off, h.unique, h.framed, fun X ch hX => h.owned X ch (hrc ▸ hX),
    fun i c X ch hc hX hnn hreg hresp hdel => hrc ▸ h.live i c X ch hc hX hnn hreg hresp hdel,
    h.deliveredOwned, fun X hX => hrc ▸ h.cleared X hX, h.busy,
    fun w hw => h.wire w (hwire ▸ hw), fun X v hX => hwire ▸ h.getting X v hX, h.sending⟩

/-- While the inbound path is not between a send and a deletion, no delivered ID has a
slot. -/
theorem cleared_of_not_busy (h : Inv s) (hnb : ∀ Y, s.inbound.busyWith Y = false) :
    ∀ Y ∈ s.delivered, s.session.responseChannels Y = none := fun Y hY =>
  (h.cleared Y hY).resolve_right (by simp [hnb])

section Inbound

variable {X : Int} {v : Obj}

/-- A reply for an accepted frame reaches the idle inbound path. -/
theorem reply (h : Inv s) (hidle : s.inbound = .idle)
    (hw : ∃ w ∈ s.session.wire, w.data.msgID = X) : Inv { s with inbound := .get X v } :=
  ⟨h.off, h.unique, h.framed, h.owned, h.live, h.deliveredOwned,
    fun Y hY => .inl (h.cleared_of_not_busy (by simp [hidle, Inbound.busyWith]) Y hY),
    fun Y hY => by simp [Inbound.busyWith] at hY, h.wire,
    fun Y v' hY => by simp at hY; exact hY.1 ▸ hw, fun _ _ _ hY => by simp at hY⟩

/-- The lookup finds no slot: the inbound path is idle again and nothing else moved. -/
theorem miss (h : Inv s) (hget : s.inbound = .get X v) : Inv { s with inbound := .idle } :=
  ⟨h.off, h.unique, h.framed, h.owned, h.live, h.deliveredOwned,
    fun Y hY => .inl (h.cleared_of_not_busy (by simp [hget, Inbound.busyWith]) Y hY),
    fun Y hY => by simp [Inbound.busyWith] at hY, h.wire, fun _ _ hY => by simp at hY,
    fun _ _ _ hY => by simp at hY⟩

/-- **The lookup finds a slot**: it is the channel the call holding `X` got back. -/
theorem hit (h : Inv s) (hget : s.inbound = .get X v) {ch : Chan}
    (hrc : s.session.responseChannels X = some ch) :
    Inv { s with inbound := .send X v ch, delivered := s.delivered ++ [X] } := by
  have hnb : ∀ Y, s.inbound.busyWith Y = false := by simp [hget, Inbound.busyWith]
  obtain ⟨w, hw, rfl⟩ := h.getting X v hget
  obtain ⟨j, d, hd, hdX, hret⟩ := h.wire w hw
  obtain ⟨ch', hch'⟩ := Option.isSome_iff_exists.mp hret
  obtain ⟨k, e, he, heX, -, hnn⟩ := h.owned _ ch hrc
  obtain rfl := h.unique j k d e _ hd he hdX heX
  obtain rfl := Option.some.inj (hd.symm.trans he)
  have hfresh : w.data.msgID ∉ s.delivered := fun hX => by
    simp [h.cleared_of_not_busy hnb _ hX] at hrc
  have hch : ch' = ch := Option.some.inj <| hrc ▸ (h.live j d _ ch' hd hdX hnn
    (Pc.registered_of_returned hch') (Pc.resp_of_returned hch') hfresh).symm
  refine ⟨h.off, h.unique, h.framed, h.owned, fun i c Y ch hc hY hnn hreg hresp hdel => ?_,
    fun Y hY => ?_, fun Y hY => ?_, fun Y hY => ?_, h.wire, fun _ _ hY => by simp at hY,
    fun Y v' ch'' hY => ?_⟩
  · exact h.live i c Y ch hc hY hnn hreg hresp (fun hm => hdel (List.mem_append_left _ hm))
  · rcases List.mem_append.mp hY with hY | hY
    · exact h.deliveredOwned Y hY
    · obtain rfl := List.mem_singleton.mp hY
      obtain ⟨k, e, he, heX, hreg, -⟩ := h.owned _ ch hrc
      exact ⟨k, e, he, heX, hreg⟩
  · rcases List.mem_append.mp hY with hY | hY
    · exact .inl (h.cleared_of_not_busy hnb Y hY)
    · obtain rfl := List.mem_singleton.mp hY
      exact .inr (by simp [Inbound.busyWith])
  · simp only [Inbound.busyWith, beq_iff_eq] at hY
    simp [hY]
  · simp only [Inbound.send.injEq] at hY
    obtain ⟨rfl, -, rfl⟩ := hY
    exact ⟨j, d, hd, hdX, hch ▸ hch'⟩

/-- `v <- data`: only the channel moves. -/
theorem send (h : Inv s) {ch : Chan} (hsend : s.inbound = .send X v ch) :
    Inv { s with
      session := { s.session with channels := push s.session.channels ch v }
      inbound := .dropChannel X } :=
  have hX : X ∈ s.delivered := h.busy X (by simp [hsend, Inbound.busyWith])
  ⟨h.off, h.unique, h.framed, h.owned, h.live, h.deliveredOwned,
    fun Y hY => by
      rcases h.cleared Y hY with hY | hY
      · exact .inl hY
      · simp only [hsend, Inbound.busyWith] at hY; simp [Inbound.busyWith, hY],
    fun Y hY => by simp only [Inbound.busyWith, beq_iff_eq] at hY; exact hY ▸ hX,
    h.wire, fun _ _ hY => by simp at hY, fun _ _ _ hY => by simp at hY⟩

/-- `m.responseChannels.Delete(msgID)`: the delivered ID loses its slot. -/
theorem dropChannel (h : Inv s) (hdrop : s.inbound = .dropChannel X) :
    Inv { s with
      session := { s.session with
        responseChannels := Function.update s.session.responseChannels X none }
      inbound := .dropTypes X } := by
  have hX : X ∈ s.delivered := h.busy X (by simp [hdrop, Inbound.busyWith])
  refine ⟨h.off, h.unique, h.framed, fun Y ch hY => ?_,
    fun i c Y ch hc hY hnn hreg hresp hdel => ?_, h.deliveredOwned, fun Y hY => ?_,
    fun Y hY => by simp [Inbound.busyWith] at hY, h.wire, fun _ _ hY => by simp at hY,
    fun _ _ _ hY => by simp at hY⟩
  · by_cases hYX : Y = X
    · subst hYX; simp at hY
    · exact h.owned Y ch (by simpa [Function.update_noteq hYX] using hY)
  · have hYX : Y ≠ X := fun e => hdel (e ▸ hX)
    simpa [Function.update_noteq hYX] using h.live i c Y ch hc hY hnn hreg hresp hdel
  · left
    by_cases hYX : Y = X
    · subst hYX; simp
    · rcases h.cleared Y hY with hY | hY
      · simpa [Function.update_noteq hYX] using hY
      · simp [hdrop, Inbound.busyWith, Ne.symm hYX] at hY

/-- `m.expectedTypes.Delete(msgID)`: the inbound path is idle again. -/
theorem dropTypes (h : Inv s) (hdrop : s.inbound = .dropTypes X) :
    Inv { s with
      session := { s.session with
        expectedTypes := Function.update s.session.expectedTypes X none }
      inbound := .idle } :=
  ⟨h.off, h.unique, h.framed, h.owned, h.live, h.deliveredOwned,
    fun Y hY => .inl (h.cleared_of_not_busy (by simp [hdrop, Inbound.busyWith]) Y hY),
    fun Y hY => by simp [Inbound.busyWith] at hY, h.wire, fun _ _ hY => by simp at hY,
    fun _ _ _ hY => by simp at hY⟩

end Inbound

/-- The nil-transport check and `WriteMsg`: the call returns, and an accepted frame
carries the ID of a call that got its channel back. -/
theorem write (h : Inv s) {i : Nat} {c : Caller} (hi : s.callers[i]? = some c) {X : Int}
    {resp : Chan} {data : Frame} {seqNo : BitVec 32} (hpc : c.pc = .write X resp data seqNo)
    (writeOk : Bool) :
    let r := writeFrame s.session ⟨data, c.request.requireToAck, seqNo⟩ writeOk resp
    Inv { s with
      session := r.1
      callers := s.callers.set i { c with pc := .returned (some X) r.2 } } := by
  have hfr : data.msgID = X := by simpa [hpc, Pc.Framed] using h.framed i c hi
  intro r
  have hf : c.Follows { c with pc := .returned (some X) r.2 } := by
    refine ⟨by simp [hpc, Pc.msgID?], rfl, by simp [hpc, Pc.registered], fun ch hch _ => ?_,
      by simp [hpc, Pc.returned?], fun _ => by simp [Pc.Framed]⟩
    simp only [r, writeFrame_eq] at hch
    split_ifs at hch <;> simp_all [Pc.resp?]
  refine h.set hi hf (by simp [r, writeFrame_eq]) (by simp [r, writeFrame_eq]) ?_
  cases ht : s.session.transport <;> cases writeOk <;>
    simp [r, writeFrame_eq, ht, Pc.msgID?, Pc.returned?, hfr]

/-- **Every step the discipline admits keeps the invariant.** -/
theorem next (h : Inv s) {ℓ : Label} {s' : Sys} (hℓ : delivery s ℓ = true)
    (hn : Network.next s ℓ = some s') : Inv s' := by
  cases ℓ with
  | spawn request hints =>
      simp only [Network.next, Option.some.injEq] at hn
      exact hn ▸ h.spawn request hints
  | caller i =>
      obtain ⟨c, m, c', hi, hstep, rfl⟩ := next_caller hn
      rcases Caller.step_cases hstep with ⟨msg, X, resp, hpc, rfl, rfl⟩ | ⟨hf, hrc, hwire, hoff⟩
      · exact (h.register hi hpc).congr rfl rfl rfl rfl
      · exact (h.set hi hf hrc hoff (.inl hwire)).congr rfl rfl rfl rfl
  | genId i X =>
      obtain ⟨c, msg, hi, hpc, -, rfl⟩ := next_genId hn
      simp only [delivery, List.all_eq_true, bne_iff_ne, ne_eq] at hℓ
      exact h.genId hi hpc hℓ
  | write i writeOk =>
      obtain ⟨c, X, resp, data, seqNo, hi, hpc, rfl⟩ := next_write hn
      exact h.write hi hpc writeOk
  | reply X v =>
      simp only [delivery, List.any_eq_true, beq_iff_eq] at hℓ
      simp only [Network.next] at hn
      split at hn <;> simp only [Option.some.injEq, reduceCtorEq] at hn
      exact hn ▸ h.reply ‹_› hℓ
  | inbound =>
      simp only [Network.next] at hn
      split at hn
      · cases hn
      · split at hn <;> simp only [Option.some.injEq] at hn <;> subst hn
        · exact h.miss ‹_›
        · exact h.hit ‹_› ‹_›
      all_goals simp only [Option.some.injEq] at hn; subst hn
      · exact h.send ‹_›
      · exact h.dropChannel ‹_›
      · exact h.dropTypes ‹_›
  | null j =>
      simp only [Network.next] at hn
      split at hn <;> simp only [Option.some.injEq, reduceCtorEq] at hn
      exact hn ▸ h.session rfl rfl rfl
  | setEncrypted b =>
      simp only [Network.next, Option.some.injEq] at hn
      exact hn ▸ h.session rfl rfl rfl
  | setServiceMode b => simp [delivery] at hℓ

theorem reachable {m : Session} (hm : m.Fresh) {s : Sys}
    (hs : Reachable delivery (Sys.start m) s) : Inv s := by
  induction hs with
  | init => exact start hm
  | step ℓ _ hℓ hn ih => exact ih.next hℓ hn

end Inv

/-! ## The delivery contract -/

/-- **A reply reaches the call that asked for it, once.** Outside service mode, with
replies only to accepted frames and no ID issued twice, take the non-nullable call that
holds `X`. The first lookup of `X` (no earlier lookup found a slot) finds the channel
`sendPacket` returned to that call; the send that follows puts `v` on that channel and on
no other; every later lookup finds nothing, so the inbound path goes back to idle with
nothing else changed, as `writeRPCResponse` returns its error. -/
theorem reply_reaches_its_caller {m : Session} (hm : m.Fresh) {s : Sys}
    (hs : Reachable delivery (Sys.start m) s) {i : Nat} {c : Caller} {X : Int}
    (hc : s.callers[i]? = some c) (hX : c.pc.msgID? = some X)
    (hnn : isNullableResponse c.request = false) :
    (∀ v, s.inbound = .get X v → X ∉ s.delivered → ∃ ch, c.pc.returned? = some ch ∧
      s.session.responseChannels X = some ch ∧
      next s .inbound = some { s with inbound := .send X v ch, delivered := s.delivered ++ [X] }) ∧
    (∀ v ch, s.inbound = .send X v ch → c.pc.returned? = some ch ∧
      ∃ s', next s .inbound = some s' ∧ s'.session.channels ch = s.session.channels ch ++ [v] ∧
        ∀ ch', ch' ≠ ch → s'.session.channels ch' = s.session.channels ch') ∧
    (∀ v, s.inbound = .get X v → X ∈ s.delivered →
      next s .inbound = some { s with inbound := .idle } ∧
      writeRPCResponse s.session X v = (s.session, .error (noResponseChannel X))) := by
  have h := Inv.reachable hm hs
  have hown : ∀ (j : Nat) (d : Caller), s.callers[j]? = some d → d.pc.msgID? = some X → d = c :=
    fun j d hd hdX => by
      obtain rfl := h.unique j i d c X hd hc hdX hX
      exact Option.some.inj (hd.symm.trans hc)
  refine ⟨fun v hget hfresh => ?_, fun v ch hsend => ?_, fun v hget hdel => ?_⟩
  · obtain ⟨w, hw, rfl⟩ := h.getting X v hget
    obtain ⟨j, d, hd, hdX, hret⟩ := h.wire w hw
    obtain rfl := hown j d hd hdX
    obtain ⟨ch, hch⟩ := Option.isSome_iff_exists.mp hret
    have hrc := h.live i d _ ch hc hX hnn (Pc.registered_of_returned hch)
      (Pc.resp_of_returned hch) hfresh
    exact ⟨ch, hch, hrc, by simp [next, hget, hrc]⟩
  · obtain ⟨j, d, hd, hdX, hret⟩ := h.sending X v ch hsend
    obtain rfl := hown j d hd hdX
    refine ⟨hret, { s with
      session := { s.session with channels := push s.session.channels ch v }
      inbound := .dropChannel X }, by simp [next, hsend], by simp [push], fun ch' hne => ?_⟩
    simp [push, Function.update_noteq hne]
  · have hnone := h.cleared_of_not_busy (by simp [hget, Inbound.busyWith]) X hdel
    exact ⟨by simp [next, hget, hnone], writeRPCResponse_of_none _ _ _ hnone⟩

/-- One `req_pq_multi` written and answered: its reply is in the inbound path. -/
theorem reply_reaches_reqPQ :
    handshakeSession.Fresh ∧ ∃ s, Reachable delivery (Sys.start handshakeSession) s ∧
      s.inbound = .get 1 (.object 7) ∧ s.callers[0]? = some ⟨reqPQ, [], .returned (some 1) (.ok 1), some 2⟩ ∧
      (∀ v, s.inbound = .get 1 v → 1 ∉ s.delivered → ∃ ch,
        Pc.returned? (.returned (some 1) (.ok 1)) = some ch ∧
        s.session.responseChannels 1 = some ch ∧
        next s .inbound = some { s with inbound := .send 1 v ch, delivered := s.delivered ++ [1] }) ∧
      (∀ v ch, s.inbound = .send 1 v ch → Pc.returned? (.returned (some 1) (.ok 1)) = some ch ∧
        ∃ s', next s .inbound = some s' ∧ s'.session.channels ch = s.session.channels ch ++ [v] ∧
          ∀ ch', ch' ≠ ch → s'.session.channels ch' = s.session.channels ch') ∧
      (∀ v, s.inbound = .get 1 v → 1 ∈ s.delivered →
        next s .inbound = some { s with inbound := .idle } ∧
        writeRPCResponse s.session 1 v = (s.session, .error (noResponseChannel 1))) := by
  have hm : handshakeSession.Fresh := ⟨rfl, fun _ => rfl, rfl⟩
  have : ∃ s, Reachable delivery (Sys.start handshakeSession) s ∧ s.inbound = .get 1 (.object 7) ∧
      s.callers[0]? = some ⟨reqPQ, [], .returned (some 1) (.ok 1), some 2⟩ :=
    reachable_of_schedule ([.spawn reqPQ [], .caller 0, .genId 0 1] ++ List.replicate 7 (.caller 0) ++
      [.write 0 true, .reply 1 (.object 7)]) (by decide)
  obtain ⟨s, hs, hget, hc⟩ := this
  exact ⟨hm, s, hs, hget, hc, reply_reaches_its_caller hm hs hc rfl rfl⟩

end Gogram.Network
