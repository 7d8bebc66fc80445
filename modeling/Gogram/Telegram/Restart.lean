/-
# Telegram.Restart — what a restart reads from the journal a run left behind

A flush that fails in `io.WriteString` leaves `cache.journal` holding a prefix of what
`json.Marshal` wrote; one that fails in `os.Create` leaves the file as it was. The next
process builds `NewCache()` and runs `startCacheFileUpdater`, whose `loadFromFile` reads
the file. `json.Unmarshal` checks the whole input before it decodes anything, and a
written journal cut short never closes its outer object, so a torn journal is rejected
whole: the restart never sees part of an index.

* `loadFromFile_torn`, `torn_journal_is_skipped`: a journal cut at any byte before its end
  changes nothing;
* `run_journal`: after any run of flushes, with any file-system failures, the file holds
  what it held at the start or a prefix of the journal of a cache one of the flushes wrote;
* `restart_loads_a_flushed_index`: so the next start loads what the old file loaded, or
  nothing, or exactly the index of a cache some flush of the run wrote.
-/
import Gogram.Telegram.Flush

namespace Gogram.Telegram

set_option autoImplicit false

/-! ## What the encoders write, cut short -/

theorem written_encodePeerMap (m : GoMap Int64) : Written (encodePeerMap m) (peerMapJson m) := by
  have h := written_objectText ((sortedEntries m).map fun e =>
      (formatInt e.1.toInt, formatInt e.2.toInt, Json.number (formatInt e.2.toInt))) (by
    simp only [List.mem_map]
    rintro _ ⟨e, -, rfl⟩
    exact ⟨formatInt_plain _, written_formatInt _⟩)
  simpa [encodePeerMap, peerMapJson, Function.comp_def] using h

theorem encodedMember_written {ip : InputPeerCache} {f : IndexField} {x : List Char × List Char × Json}
    (h : encodedMember ip f = some x) : Plain x.1 ∧ Written x.2.1 x.2.2 := by
  unfold encodedMember at h
  split at h
  · split at h
    · cases h
    · cases h
      exact ⟨plain_name f, written_encodePeerMap _⟩
  · cases h

theorem written_encodeIndex (ip : InputPeerCache) : Written (encodeIndex ip) (indexJson ip) := by
  have h := written_objectText ([IndexField.channels, .users, .chats].filterMap (encodedMember ip))
    fun x hx => by
      obtain ⟨f, -, hf⟩ := List.mem_filterMap.mp hx
      exact encodedMember_written hf
  rwa [List.map_filterMap, List.map_filterMap, ← encodeField_eq, ← encodeIndex, ← indexJson] at h

/-- The journal is a written object. -/
theorem journalOf_written (c : Cache) :
    ∃ L : List (List Char × List Char × Json), (∀ x ∈ L, Plain x.1 ∧ Written x.2.1 x.2.2) ∧
      journalOf c = objectText (L.map fun x => (x.1, x.2.1)) := by
  unfold journalOf
  split
  · exact ⟨[], by simp, rfl⟩
  · rename_i ip _
    refine ⟨[("input_peers".toList, encodeIndex ip, indexJson ip)], fun x hx => ?_, rfl⟩
    rw [List.mem_singleton.mp hx]
    exact ⟨plain_input_peers, written_encodeIndex ip⟩

/-- **A torn journal is never half-loaded.** `loadFromFile` of the journal of any cache,
cut at any byte before its end, leaves the cache it loads into as it was: an empty file
is skipped, and any other prefix fails `checkValid` before anything is decoded. -/
theorem loadFromFile_torn (c c' : Cache) {n : Nat} (hn : n < (journalOf c).length) :
    loadFromFile c' (some ((journalOf c).take n)) = c' := by
  obtain ⟨L, hL, hj⟩ := journalOf_written c
  rcases Nat.eq_zero_or_pos n with rfl | hpos
  · rfl
  have hcut : parseJson ((journalOf c).take n) = none := by
    rw [hj] at hn ⊢
    refine parseJson_objectText_cut L hL (List.take_prefix _ _) fun e => ?_
    have := congrArg List.length e
    rw [List.length_take] at this
    omega
  obtain ⟨a, r, har⟩ := List.exists_cons_of_ne_nil (List.ne_nil_of_length_pos
    (show 0 < ((journalOf c).take n).length by rw [List.length_take]; omega))
  rw [har] at hcut ⊢
  simp only [loadFromFile, hcut]

/-- **A torn journal is skipped at start-up.** `startCacheFileUpdater` on a file that holds
the journal of any cache cut at any byte before its end loads nothing into the cache. -/
theorem torn_journal_is_skipped (c c' : Cache) {n : Nat} (hn : n < (journalOf c).length) :
    (startCacheFileUpdater c' (some ((journalOf c).take n))).1 = c' :=
  loadFromFile_torn c c' hn

theorem torn_journal_of_newCache :
    3 < (journalOf newCache).length ∧
      (startCacheFileUpdater newCache (some ((journalOf newCache).take 3))).1 = newCache :=
  ⟨by decide, torn_journal_is_skipped newCache newCache (by decide)⟩

/-- Whatever prefix of a journal a flush left, a fresh cache loads nothing from it or
exactly the index of the cache it came from. -/
theorem loadFromFile_take (c : Cache) (n : Nat) :
    loadFromFile newCache (some ((journalOf c).take n)) = newCache ∨
      ∃ ip, loadFromFile newCache (some ((journalOf c).take n)) = { newCache with inputPeers := some ip } ∧
        ip.Restores (c.inputPeers.getD emptyIndex) := by
  rcases Nat.lt_or_ge n (journalOf c).length with hn | hn
  · exact .inl (loadFromFile_torn c newCache hn)
  · rw [List.take_of_length_le hn]
    exact .inr (loadFromFile_journalOf c)

/-! ## The file along a run -/

/-- The cache a flush of the run marshals. -/
def JournalEvent.cache : JournalEvent → Cache
  | .fire c _ | .signal c _ => c

/-- A flush leaves the file as it was (`os.Create` failed) or holds a prefix of the journal
of the cache it marshalled, the whole of it when the write went through. -/
theorem flushToFile_journal (c : Cache) (journal : Option (List Char)) (out : FlushOutcome) :
    (flushToFile c journal out).journal = journal ∨
      ∃ n, (flushToFile c journal out).journal = some ((journalOf c).take n) := by
  unfold flushToFile
  split
  · split
    · exact .inr ⟨_, rfl⟩
    · exact .inr ⟨(journalOf c).length, by split <;> simp⟩
  · exact .inl rfl

theorem step_journal {s s' : Journaling} {e : JournalEvent} (h : s.step e = some s') :
    s'.journal = s.journal ∨ ∃ n, s'.journal = some ((journalOf e.cache).take n) := by
  cases e with
  | fire c out =>
    simp only [Journaling.step, Option.ite_none_right_eq_some, Option.some.injEq] at h
    obtain ⟨_, rfl⟩ := h
    exact flushToFile_journal c s.journal out
  | signal c out =>
    simp only [Journaling.step, Option.ite_none_right_eq_some, Option.some.injEq] at h
    obtain ⟨_, rfl⟩ := h
    exact flushToFile_journal c s.journal out

/-- **What a run leaves in `cache.journal`**: what was there before the run, or a prefix of
the journal of a cache that one of its flushes marshalled. -/
theorem run_journal : ∀ {s s' : Journaling} (es : List JournalEvent), s.run es = some s' →
    s'.journal = s.journal ∨ ∃ e ∈ es, ∃ n, s'.journal = some ((journalOf e.cache).take n)
  | s, s', [], h => by
    simp only [Journaling.run, Option.some.injEq] at h
    exact .inl (by rw [h])
  | s, s', e :: es, h => by
    obtain ⟨t, ht, hrun⟩ := Option.bind_eq_some.mp h
    rcases run_journal es hrun with hj | ⟨e', he', n, hj⟩
    · rcases step_journal ht with hj' | ⟨n, hj'⟩
      · exact .inl (hj.trans hj')
      · exact .inr ⟨e, .head _, n, hj.trans hj'⟩
    · exact .inr ⟨e', .tail _ he', n, hj⟩

/-- **A restart never loads part of an index.** Take any run of timer fires and the
signal after `startCacheFileUpdater`, each flush with any cache and any failure of
`os.Create`, the write or `Close`. A new process that starts from `NewCache()` and runs
`startCacheFileUpdater` on the file the run left loads what it would have loaded from the
file the run started with, or nothing, or exactly the index of a cache one of the run's
flushes marshalled. -/
theorem restart_loads_a_flushed_index (c₀ : Cache) (journal : Option (List Char))
    {es : List JournalEvent} {s' : Journaling}
    (h : (startCacheFileUpdater c₀ journal).2.run es = some s') :
    (startCacheFileUpdater newCache s'.journal).1 = (startCacheFileUpdater newCache journal).1 ∨
      (startCacheFileUpdater newCache s'.journal).1 = newCache ∨
      ∃ e ∈ es, ∃ ip, (startCacheFileUpdater newCache s'.journal).1 = { newCache with inputPeers := some ip } ∧
        ip.Restores (e.cache.inputPeers.getD emptyIndex) := by
  rcases run_journal es h with hj | ⟨e, he, n, hj⟩
  · exact .inl (by rw [hj]; rfl)
  · rcases loadFromFile_take e.cache n with hl | ⟨ip, hl, hres⟩
    · exact .inr (.inl (by rw [startCacheFileUpdater, hj, hl]))
    · exact .inr (.inr ⟨e, he, ip, by rw [startCacheFileUpdater, hj, hl], hres⟩)

/-! ## Poles -/

/-- A first flush of a fresh cache that writes 3 bytes and fails. -/
theorem restart_after_short_write :
    (startCacheFileUpdater newCache none).2.run [.fire newCache ⟨true, some 3, true⟩] =
      some ⟨0, true, some ((journalOf newCache).take 3)⟩ ∧
    ((startCacheFileUpdater newCache (some ((journalOf newCache).take 3))).1 =
        (startCacheFileUpdater newCache none).1 ∨
      (startCacheFileUpdater newCache (some ((journalOf newCache).take 3))).1 = newCache ∨
      ∃ e ∈ [JournalEvent.fire newCache ⟨true, some 3, true⟩], ∃ ip,
        (startCacheFileUpdater newCache (some ((journalOf newCache).take 3))).1 =
          { newCache with inputPeers := some ip } ∧ ip.Restores (e.cache.inputPeers.getD emptyIndex)) :=
  ⟨rfl, @restart_loads_a_flushed_index newCache none [.fire newCache ⟨true, some 3, true⟩]
    ⟨0, true, some ((journalOf newCache).take 3)⟩ rfl⟩

end Gogram.Telegram
