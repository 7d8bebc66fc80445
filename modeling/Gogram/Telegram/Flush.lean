/-
# Telegram.Flush — the journal written on a timer

`startCacheFileUpdater` runs `loadFromFile`, starts `writeOnKill`, and arms a timer that
runs `flushToFile` after 80 seconds. `flushToFile` marshals the cache, creates
`cache.journal`, writes the bytes and closes the file, and only then arms the next timer;
a step that fails logs its error and returns before that. `json.Marshal` cannot fail on a
`CACHE` (what it exports is `int64` maps), so the three I/O steps are the ones that can.
`writeOnKill` waits for SIGINT or SIGTERM and runs `flushToFile` once more.

`Journaling` counts the armed timers and holds the file; a run is any sequence of timer
fires and the one signal, each flush with any answer of the file system and any cache.

* `flushToFile_rearmed`: a flush arms the next timer exactly when create, write and close
  all succeed;
* `run_armed`: along every run, armed timers plus timers fired is one plus the flushes that
  succeeded;
* `failed_flush_stops_journaling`: a first flush that fails at any step leaves no timer
  armed, and no periodic flush runs again.
-/
import Gogram.Telegram.Journal

namespace Gogram.Telegram

set_option autoImplicit false

/-! ## One flush -/

/-- How the file system answers one `flushToFile`. -/
structure FlushOutcome where
  /-- `os.Create("cache.journal")` succeeds, truncating the file -/
  createOk : Bool
  /-- `io.WriteString` fails after writing this many bytes; `none` when it writes them all -/
  shortWrite : Option Nat
  /-- `file.Close()` succeeds -/
  closeOk : Bool
  deriving DecidableEq, Repr

/-- Every step of the flush succeeds. -/
def FlushOutcome.ok (out : FlushOutcome) : Bool := out.createOk && out.shortWrite.isNone && out.closeOk

/-- What one `flushToFile` leaves: `cache.journal`, the error it logged, and whether it ran
`go time.AfterFunc(80*time.Second, c.flushToFile)`. -/
structure Flushed where
  journal : Option (List Char)
  logged : Option String
  rearmed : Bool
  deriving DecidableEq, Repr

/-- `flushToFile()` on the cache `c`, with `cache.journal` holding `journal`. -/
def flushToFile (c : Cache) (journal : Option (List Char)) (out : FlushOutcome) : Flushed :=
  let data := journalOf c
  if out.createOk then
    match out.shortWrite with
    | some n => ⟨some (data.take n), some "Error while writing cache.journal: ", false⟩
    | none =>
        if out.closeOk then ⟨some data, none, true⟩
        else ⟨some data, some "Error while closing cache.journal: ", false⟩
  else ⟨journal, some "Error while creating cache.journal: ", false⟩

/-- **A flush arms the next timer exactly when create, write and close all succeed.** -/
theorem flushToFile_rearmed (c : Cache) (journal : Option (List Char)) (out : FlushOutcome) :
    (flushToFile c journal out).rearmed = out.ok := by
  obtain ⟨_ | _, _ | n, _ | _⟩ := out <;> rfl

/-! ## The timers -/

/-- The background persistence: timers armed, `writeOnKill`, and `cache.journal`. -/
structure Journaling where
  /-- timers armed by `time.AfterFunc(80*time.Second, c.flushToFile)` that have not fired -/
  armed : Nat
  /-- `writeOnKill` still waits for SIGINT or SIGTERM -/
  waiting : Bool
  /-- `cache.journal`, `none` while it does not exist -/
  journal : Option (List Char)
  deriving DecidableEq, Repr

/-- One flush of a run, with the cache it marshals and the file system's answers. -/
inductive JournalEvent where
  /-- an armed timer fires and runs `flushToFile` -/
  | fire (c : Cache) (out : FlushOutcome)
  /-- the signal reaches `writeOnKill`, which runs `flushToFile` -/
  | signal (c : Cache) (out : FlushOutcome)

def JournalEvent.outcome : JournalEvent → FlushOutcome
  | .fire _ out | .signal _ out => out

def JournalEvent.isFire : JournalEvent → Bool
  | .fire .. => true
  | .signal .. => false

/-- One event: a fire needs an armed timer, the signal comes once. -/
def Journaling.step (s : Journaling) : JournalEvent → Option Journaling
  | .fire c out =>
      if 0 < s.armed then
        let r := flushToFile c s.journal out
        some { s with armed := s.armed - 1 + (if r.rearmed then 1 else 0), journal := r.journal }
      else none
  | .signal c out =>
      if s.waiting then
        let r := flushToFile c s.journal out
        some { armed := s.armed + (if r.rearmed then 1 else 0), waiting := false, journal := r.journal }
      else none

def Journaling.run (s : Journaling) : List JournalEvent → Option Journaling
  | [] => some s
  | e :: es => (s.step e).bind fun s' => s'.run es

/-- `startCacheFileUpdater()`: `loadFromFile` into the cache, `writeOnKill` waiting, and
one timer armed. -/
def startCacheFileUpdater (c : Cache) (journal : Option (List Char)) : Cache × Journaling :=
  (loadFromFile c journal, ⟨1, true, journal⟩)

/-- **What one event does to the armed timers**: a fire takes one and a signal none, and
the flush gives one back when it succeeds. -/
theorem step_armed {s s' : Journaling} {e : JournalEvent} (h : s.step e = some s') :
    s'.armed + (if e.isFire then 1 else 0) = s.armed + (if e.outcome.ok then 1 else 0) := by
  cases e with
  | fire c out =>
    simp only [Journaling.step, Option.ite_none_right_eq_some, Option.some.injEq] at h
    obtain ⟨_, rfl⟩ := h
    simp only [flushToFile_rearmed, JournalEvent.isFire, JournalEvent.outcome, if_true]
    omega
  | signal c out =>
    simp only [Journaling.step, Option.ite_none_right_eq_some, Option.some.injEq] at h
    obtain ⟨_, rfl⟩ := h
    simp only [flushToFile_rearmed, JournalEvent.isFire, JournalEvent.outcome, Bool.false_eq_true,
      if_false, Nat.add_zero]

/-- **Along every run, armed timers plus timers fired is what there was plus the flushes
that succeeded.** -/
theorem run_armed : ∀ {s s' : Journaling} (es : List JournalEvent), s.run es = some s' →
    s'.armed + (es.filter (·.isFire)).length = s.armed + (es.filter (·.outcome.ok)).length
  | s, s', [], h => by simp only [Journaling.run, Option.some.injEq] at h; subst h; rfl
  | s, s', e :: es, h => by
    obtain ⟨t, ht, hrun⟩ := Option.bind_eq_some.mp h
    have hstep := step_armed ht
    have ih := run_armed es hrun
    simp only [List.filter_cons]
    split <;> split <;> simp only [List.length_cons, Bool.false_eq_true, ↓reduceIte, *] at hstep ⊢ <;> omega

/-- While every flush succeeds, a timer stays armed: periodic journaling goes on. -/
theorem armed_of_all_ok (c : Cache) (journal : Option (List Char)) {s' : Journaling}
    {es : List JournalEvent} (h : (startCacheFileUpdater c journal).2.run es = some s')
    (hok : ∀ e ∈ es, e.outcome.ok = true) : 0 < s'.armed := by
  have harm := run_armed es h
  have hall : es.filter (·.outcome.ok) = es := List.filter_eq_self.mpr hok
  have hle := (List.filter_sublist (p := fun e : JournalEvent => e.isFire) es).length_le
  simp only [startCacheFileUpdater, hall] at harm
  omega

theorem journaling_goes_on :
    (startCacheFileUpdater newCache none).2.run [.fire newCache ⟨true, none, true⟩] =
        some ⟨1, true, some (journalOf newCache)⟩ ∧
      (∀ e ∈ [JournalEvent.fire newCache ⟨true, none, true⟩], e.outcome.ok = true) ∧
      0 < (⟨1, true, some (journalOf newCache)⟩ : Journaling).armed :=
  ⟨rfl, by decide, @armed_of_all_ok newCache none ⟨1, true, some (journalOf newCache)⟩
    [.fire newCache ⟨true, none, true⟩] rfl (by decide)⟩

/-! ## Poles -/

/-- **One failed flush ends periodic journaling.** After `startCacheFileUpdater`, a first
timer whose flush fails at any step (`os.Create`, the write, or `Close`) returns without
arming the next one: no timer is armed, and no periodic flush can run again. -/
theorem failed_flush_stops_journaling (c₀ : Cache) (journal : Option (List Char)) (c : Cache)
    {out : FlushOutcome} (hfail : out.ok = false) :
    ∃ s, (startCacheFileUpdater c₀ journal).2.step (.fire c out) = some s ∧ s.armed = 0 ∧
      ∀ c' out', s.step (.fire c' out') = none := by
  refine ⟨_, rfl, by simp [startCacheFileUpdater, flushToFile_rearmed, hfail], fun c' out' => ?_⟩
  simp [startCacheFileUpdater, Journaling.step, flushToFile_rearmed, hfail]

theorem create_failure_stops_journaling :
    FlushOutcome.ok ⟨false, none, true⟩ = false ∧
    ∃ s, (startCacheFileUpdater newCache none).2.step (.fire newCache ⟨false, none, true⟩) = some s ∧
      s.armed = 0 ∧ ∀ c' out', s.step (.fire c' out') = none :=
  ⟨rfl, failed_flush_stops_journaling newCache none newCache rfl⟩

end Gogram.Telegram
