/-
# Telegram.Chunks — `genByteChunks`, the upload's chunk loop

`genByteChunks(data, chunkSize, ch)` walks `data` with `i := 0; i < len(data);
i += chunkSize`, sends `data[i:end]` with `end` clamped to `len(data)`, and closes `ch`.
Go's `int` is 64 bits here: `wrapInt` is its addition, and `slice` panics outside
`0 ≤ low ≤ high ≤ len`. The loop runs on `fuel`, so a run that never ends is `none`;
`chunkTrace` is the same loop seen after `fuel` iterations, with what it has sent so far.

* `genByteChunks_chunks`: for `chunkSize > 0` with `len(data) + chunkSize` an `int`, the
  loop ends for every fuel above `⌈len/chunkSize⌉`, after sending `⌈len/chunkSize⌉`
  chunks that make up `data`, none empty, all full but the last;
* `genByteChunks_zero_never_closes`: `getAppropriatedPartSize` returns 0 for files of
  2097152000 bytes or more, and with that size the loop on a nonempty `data` sends an empty
  chunk at every iteration and never stops (`chunkTrace`, what has been sent so far);
* `upload_parts`: below that size the part size it picks cuts every file into at most 8000
  parts, and the loop closes.
-/
import Gogram.Telegram.Cache

namespace Gogram.Telegram

set_option autoImplicit false

/-! ## Go `int` and slices -/

/-- The largest Go `int` on the 64-bit targets. -/
def maxInt : Int := 2 ^ 63 - 1

/-- Go `int` addition: the sum wraps to 64 bits, two's complement. -/
def wrapInt (x : Int) : Int := (x + 2 ^ 63) % 2 ^ 64 - 2 ^ 63

theorem wrapInt_of_le {x : Int} (h1 : -2 ^ 63 ≤ x) (h2 : x ≤ maxInt) : wrapInt x = x := by
  unfold wrapInt maxInt at *
  omega

/-- Go's panic for a slice expression out of range. -/
def sliceOutOfRange (low high : Int) : Panic :=
  ⟨"runtime error: slice bounds out of range [" ++ toString low ++ ":" ++ toString high ++ "]"⟩

/-- `s[low:high]`. Go checks `high` against the capacity; the loop below clamps `high` to
`len(s)` first, so the length is the bound it meets. -/
def slice {α : Type} (s : List α) (low high : Int) : Except Panic (List α) :=
  if 0 ≤ low ∧ low ≤ high ∧ high ≤ s.length then .ok ((s.drop low.toNat).take (high - low).toNat)
  else .error (sliceOutOfRange low high)

theorem slice_of_le {α : Type} {s : List α} {low high : Nat} (h1 : low ≤ high) (h2 : high ≤ s.length) :
    slice s low high = .ok ((s.drop low).take (high - low)) := by
  rw [slice, if_pos (by omega)]
  congr
  omega

/-! ## The loop -/

/-- How `genByteChunks` stops: `close(ch)` after the loop, or a panic inside it. -/
inductive ChunksEnd where
  | closed
  | panicked (p : Panic)
  deriving DecidableEq, Repr

/-- The loop from offset `i`, for at most `fuel` iterations: the chunks sent on `ch`, in
order, and how it stops; `none` when the fuel runs out first. -/
def chunkLoop (data : List UInt8) (chunkSize : Int) : Nat → Int → Option (List (List UInt8) × ChunksEnd)
  | 0, _ => none
  | fuel + 1, i =>
      if i < data.length then
        let end' := if wrapInt (i + chunkSize) > data.length then (data.length : Int)
          else wrapInt (i + chunkSize)
        match slice data i end' with
        | .error p => some ([], .panicked p)
        | .ok chunk =>
            (chunkLoop data chunkSize fuel (wrapInt (i + chunkSize))).map fun r => (chunk :: r.1, r.2)
      else some ([], .closed)

/-- `genByteChunks(data, chunkSize, ch)`. -/
def genByteChunks (data : List UInt8) (chunkSize : Int) (fuel : Nat) :
    Option (List (List UInt8) × ChunksEnd) :=
  chunkLoop data chunkSize fuel 0

/-- What the loop from offset `i` has sent on `ch` after at most `fuel` iterations, in
order, and how it stopped, if it has. -/
def chunkTrace (data : List UInt8) (chunkSize : Int) :
    Nat → Int → List (List UInt8) × Option ChunksEnd
  | 0, _ => ([], none)
  | fuel + 1, i =>
      if i < data.length then
        let end' := if wrapInt (i + chunkSize) > data.length then (data.length : Int)
          else wrapInt (i + chunkSize)
        match slice data i end' with
        | .error p => ([], some (.panicked p))
        | .ok chunk =>
            let r := chunkTrace data chunkSize fuel (wrapInt (i + chunkSize))
            (chunk :: r.1, r.2)
      else ([], some .closed)

/-- The loop returns what it has sent once it has stopped, and `none` before. -/
theorem chunkLoop_eq_chunkTrace (data : List UInt8) (chunkSize : Int) :
    ∀ (fuel : Nat) (i : Int), chunkLoop data chunkSize fuel i =
      (chunkTrace data chunkSize fuel i).2.map fun e => ((chunkTrace data chunkSize fuel i).1, e)
  | 0, _ => rfl
  | fuel + 1, i => by
    rw [chunkLoop, chunkTrace]
    split
    · dsimp only
      generalize (if wrapInt (i + chunkSize) > data.length then (data.length : Int)
        else wrapInt (i + chunkSize)) = e
      cases slice data i e with
      | error p => rfl
      | ok chunk =>
        rw [chunkLoop_eq_chunkTrace data chunkSize fuel]
        cases (chunkTrace data chunkSize fuel (wrapInt (i + chunkSize))).2 <;> rfl
    · rfl

/-- More fuel changes nothing once the loop has stopped. -/
theorem chunkLoop_succ {data : List UInt8} {chunkSize : Int} :
    ∀ {fuel : Nat} {i : Int} {r : List (List UInt8) × ChunksEnd},
      chunkLoop data chunkSize fuel i = some r → chunkLoop data chunkSize (fuel + 1) i = some r
  | 0, _, _, h => by simp [chunkLoop] at h
  | fuel + 1, i, r, h => by
    rw [chunkLoop] at h ⊢
    split at h
    · rw [if_pos ‹_›]
      simp only at h ⊢
      cases hs : slice data i (if wrapInt (i + chunkSize) > data.length then (data.length : Int)
          else wrapInt (i + chunkSize)) with
      | error p => simpa only [hs] using h
      | ok chunk =>
        simp only [hs] at h ⊢
        obtain ⟨r', hr', rfl⟩ := Option.map_eq_some'.mp h
        rw [chunkLoop_succ hr']
        rfl
    · rw [if_neg ‹_›]
      exact h

theorem chunkLoop_mono {data : List UInt8} {chunkSize : Int} {fuel fuel' : Nat} (hle : fuel ≤ fuel')
    {i : Int} {r : List (List UInt8) × ChunksEnd} (h : chunkLoop data chunkSize fuel i = some r) :
    chunkLoop data chunkSize fuel' i = some r := by
  induction hle with
  | refl => exact h
  | step _ ih => exact chunkLoop_succ ih

/-- One iteration below `len(data)`, with no wrap: the chunk is the next `chunkSize`
bytes, or what is left. -/
theorem chunkLoop_step (data : List UInt8) {n k : Nat} (hk : k < data.length)
    (hrange : data.length + n ≤ maxInt) (fuel : Nat) :
    chunkLoop data n (fuel + 1) k =
      (chunkLoop data n fuel (k + n : Nat)).map fun r => ((data.drop k).take n :: r.1, r.2) := by
  have hw : wrapInt (k + n) = (k + n : Nat) := by
    rw [wrapInt_of_le (by omega) (by omega)]
    push_cast
    rfl
  have hend : (if ((k + n : Nat) : Int) > data.length then (data.length : Int) else (k + n : Nat)) =
      (min (k + n) data.length : Nat) := by
    split <;> omega
  have htake : (data.drop k).take (min (k + n) data.length - k) = (data.drop k).take n := by
    rw [List.take_eq_take, List.length_drop]
    omega
  rw [chunkLoop, if_pos (by exact_mod_cast hk)]
  simp only [hw, hend, slice_of_le (by omega : k ≤ min (k + n) data.length) (min_le_right _ _), htake]

theorem chunkLoop_done (data : List UInt8) (chunkSize : Int) {k : Nat} (hk : data.length ≤ k)
    (fuel : Nat) : chunkLoop data chunkSize (fuel + 1) k = some ([], .closed) := by
  rw [chunkLoop, if_neg (by exact_mod_cast not_lt.mpr hk)]

/-! ## What the loop sends -/

/-- `chunks` is `d` cut into pieces of `n`: in order they make up `d`, there are
`⌈len d / n⌉` of them, none is empty, and all but the last have `n` elements. -/
structure Chunked {α : Type} (n : Nat) (d : List α) (chunks : List (List α)) : Prop where
  flatten : chunks.flatten = d
  count : chunks.length = (d.length + n - 1) / n
  nonempty : ∀ c ∈ chunks, c ≠ []
  full : ∀ c ∈ chunks.dropLast, c.length = n
  short : ∀ c ∈ chunks.getLast?, c.length ≤ n

/-- `⌈L/n⌉` is one more than the count of what is left after the first `n`. -/
theorem ceil_div_step {n L : Nat} (hn : 0 < n) (hL : 0 < L) :
    (L + n - 1) / n = (L - n + n - 1) / n + 1 := by
  rcases Nat.lt_or_ge n L with h | h
  · rw [show L + n - 1 = (L - n + n - 1) + n by omega, Nat.add_div_right _ hn]
  · rw [show L - n + n - 1 = n - 1 by omega, Nat.div_eq_of_lt (by omega : n - 1 < n)]
    exact Nat.div_eq_of_lt_le (by omega) (by omega)

theorem Chunked.nil {α : Type} {n : Nat} (hn : 0 < n) : Chunked n ([] : List α) [] :=
  ⟨rfl, by simp [Nat.div_eq_of_lt (by omega : n - 1 < n)], by simp, by simp, by simp⟩

theorem Chunked.cons {α : Type} {n : Nat} (hn : 0 < n) {d : List α} (hd : d ≠ [])
    {rest : List (List α)} (h : Chunked n (d.drop n) rest) : Chunked n d (d.take n :: rest) := by
  have hlen : 0 < d.length := List.length_pos.mpr hd
  have hrest : rest ≠ [] → n < d.length := fun hr => by
    obtain ⟨c, hc⟩ := List.exists_mem_of_ne_nil rest hr
    have := List.length_pos.mpr (h.nonempty c hc)
    have hsub : c.length ≤ (rest.flatten).length := (List.sublist_flatten_of_mem hc).length_le
    rw [h.flatten, List.length_drop] at hsub
    omega
  refine ⟨by rw [List.flatten_cons, h.flatten, List.take_append_drop], ?_, ?_, ?_, ?_⟩
  · rw [List.length_cons, h.count, List.length_drop, ceil_div_step hn hlen]
  · rintro c (_ | ⟨_, hc⟩)
    · exact List.ne_nil_of_length_pos (by simp; omega)
    · exact h.nonempty c hc
  · cases rest with
    | nil => simp
    | cons c cs =>
      rintro x (_ | ⟨_, hx⟩)
      · simpa using (hrest (List.cons_ne_nil _ _)).le
      · exact h.full x hx
  · cases rest with
    | nil => simp
    | cons c cs => exact h.short

/-- **The loop from offset `k` sends `data` from `k` on, cut into chunks**, and closes `ch`,
given one iteration more than it has chunks to send. -/
theorem chunkLoop_chunked (data : List UInt8) {n : Nat} (hn : 0 < n)
    (hrange : data.length + n ≤ maxInt) :
    ∀ (fuel k : Nat), data.length - k + n ≤ fuel * n →
      ∃ chunks, chunkLoop data n fuel k = some (chunks, .closed) ∧ Chunked n (data.drop k) chunks
  | 0, k, h => by simp at h; omega
  | fuel + 1, k, h => by
    rcases Nat.lt_or_ge k data.length with hk | hk
    · have hF : n ≤ fuel * n := by
        rcases Nat.eq_zero_or_pos fuel with rfl | hf
        · simp [Nat.succ_mul] at h; omega
        · exact Nat.le_mul_of_pos_left n hf
      obtain ⟨chunks, hc, hch⟩ := chunkLoop_chunked data hn hrange fuel (k + n) (by
        rw [Nat.succ_mul] at h
        omega)
      refine ⟨_, by rw [chunkLoop_step data hk hrange, hc]; rfl, ?_⟩
      exact .cons hn (by simpa using hk) (by rwa [List.drop_drop])
    · refine ⟨[], chunkLoop_done data n hk fuel, ?_⟩
      rw [List.drop_eq_nil_of_le hk]
      exact .nil hn

/-- **`genByteChunks` ends and sends `data` in chunks.** For every `chunkSize > 0` with
`len(data) + chunkSize` within `int`, every fuel above `⌈len(data)/chunkSize⌉` runs the loop
to `close(ch)`, after `⌈len(data)/chunkSize⌉` chunks that make up `data` in order; none is
empty, all but the last have `chunkSize` bytes, and the last has 1 to `chunkSize`. -/
theorem genByteChunks_chunks (data : List UInt8) {chunkSize : Int} (hpos : 0 < chunkSize)
    (hrange : data.length + chunkSize ≤ maxInt) :
    ∃ chunks : List (List UInt8),
      (∀ fuel : Nat, (data.length + chunkSize - 1) / chunkSize < fuel →
        genByteChunks data chunkSize fuel = some (chunks, .closed)) ∧
      (chunks.length : Int) = (data.length + chunkSize - 1) / chunkSize ∧
      chunks.flatten = data ∧ (∀ c ∈ chunks, c ≠ []) ∧
      (∀ c ∈ chunks.dropLast, (c.length : Int) = chunkSize) ∧
      (∀ c ∈ chunks.getLast?, 1 ≤ c.length ∧ (c.length : Int) ≤ chunkSize) := by
  obtain ⟨n, rfl⟩ : ∃ n : Nat, chunkSize = n := ⟨chunkSize.toNat, by omega⟩
  have hn : 0 < n := by exact_mod_cast hpos
  have hrange' : data.length + n ≤ maxInt := by exact_mod_cast hrange
  have hceil : ((data.length + n - 1) / n : Nat) = ((data.length + n - 1 : Int) / n) := by
    push_cast
    congr 1
    omega
  obtain ⟨chunks, hc, hch⟩ := chunkLoop_chunked data hn hrange' ((data.length + n - 1) / n + 1) 0
    (by
      have := Nat.lt_div_mul_add (a := data.length + n - 1) hn
      rw [Nat.succ_mul]
      omega)
  rw [List.drop_zero] at hch
  refine ⟨chunks, fun fuel hfuel => chunkLoop_mono (by rw [← hceil] at hfuel; omega) hc,
    by rw [hch.count, hceil], hch.flatten, hch.nonempty, fun c hc => by simp [hch.full c hc],
    fun c hc => ⟨List.length_pos.mpr (hch.nonempty c (List.mem_of_mem_getLast? hc)),
      by exact_mod_cast hch.short c hc⟩⟩

theorem genByteChunks_five_by_two :
    (0 : Int) < 2 ∧ (([1, 2, 3, 4, 5] : List UInt8).length + (2 : Int) ≤ maxInt) ∧
    ∃ chunks : List (List UInt8),
      (∀ fuel : Nat, (([1, 2, 3, 4, 5] : List UInt8).length + (2 : Int) - 1) / 2 < fuel →
        genByteChunks [1, 2, 3, 4, 5] 2 fuel = some (chunks, .closed)) ∧
      (chunks.length : Int) = (([1, 2, 3, 4, 5] : List UInt8).length + (2 : Int) - 1) / 2 ∧
      chunks.flatten = [1, 2, 3, 4, 5] ∧ (∀ c ∈ chunks, c ≠ []) ∧
      (∀ c ∈ chunks.dropLast, (c.length : Int) = 2) ∧
      (∀ c ∈ chunks.getLast?, 1 ≤ c.length ∧ (c.length : Int) ≤ 2) :=
  ⟨by decide, by decide, genByteChunks_chunks [1, 2, 3, 4, 5] (by decide) (by decide)⟩

example : genByteChunks [1, 2, 3, 4, 5] 2 4 = some ([[1, 2], [3, 4], [5]], .closed) := by decide

/-! ## A chunk size of zero -/

/-- `getAppropriatedPartSize(fileSize)`. -/
def getAppropriatedPartSize (fileSize : Int) : Int :=
  if fileSize < 104857600 then 128 * 1024
  else if fileSize < 786432000 then 256 * 1024
  else if fileSize < 2097152000 then 256 * 1024
  else 0

theorem getAppropriatedPartSize_eq_zero (fileSize : Int) :
    getAppropriatedPartSize fileSize = 0 ↔ 2097152000 ≤ fileSize := by
  unfold getAppropriatedPartSize
  split_ifs <;> omega

/-- With `chunkSize = 0` every iteration sends the empty slice `data[0:0]` and stays at
offset 0. -/
theorem chunkTrace_zero (data : List UInt8) (hd : data ≠ []) :
    ∀ fuel, chunkTrace data 0 fuel 0 = (List.replicate fuel [], none)
  | 0 => rfl
  | fuel + 1 => by
    have hlen : (0 : Int) < data.length := by exact_mod_cast List.length_pos.mpr hd
    have hw : wrapInt (0 + 0) = 0 := rfl
    rw [chunkTrace, if_pos hlen]
    simp only [hw, if_neg (not_lt.mpr hlen.le), slice_of_le (s := data) (le_refl 0) (Nat.zero_le _),
      chunkTrace_zero data hd fuel]
    rfl

/-- **A chunk size of zero never finishes.** For every file of 2097152000 bytes or more
`getAppropriatedPartSize` returns 0, and with that size the loop on a nonempty `data`
sends an empty chunk at every iteration and never stops: after `n` iterations it has sent
`n` empty chunks, has neither closed `ch` nor panicked, and `genByteChunks` has no result
on any fuel. -/
theorem genByteChunks_zero_never_closes (data : List UInt8) (hd : data ≠ []) {fileSize : Int}
    (hsize : 2097152000 ≤ fileSize) :
    getAppropriatedPartSize fileSize = 0 ∧
      ∀ fuel, chunkTrace data (getAppropriatedPartSize fileSize) fuel 0 = (List.replicate fuel [], none) ∧
        genByteChunks data (getAppropriatedPartSize fileSize) fuel = none := by
  have h0 := (getAppropriatedPartSize_eq_zero fileSize).mpr hsize
  refine ⟨h0, fun fuel => ⟨h0 ▸ chunkTrace_zero data hd fuel, ?_⟩⟩
  rw [genByteChunks, chunkLoop_eq_chunkTrace, h0, chunkTrace_zero data hd fuel]
  rfl

theorem two_gigabyte_upload_never_closes :
    ([0] : List UInt8) ≠ [] ∧ (2097152000 : Int) ≤ 2097152000 ∧
      getAppropriatedPartSize 2097152000 = 0 ∧
      ∀ fuel, chunkTrace [0] (getAppropriatedPartSize 2097152000) fuel 0 = (List.replicate fuel [], none) ∧
        genByteChunks [0] (getAppropriatedPartSize 2097152000) fuel = none :=
  ⟨by decide, le_refl _, genByteChunks_zero_never_closes [0] (by decide) (le_refl _)⟩

/-! ## The upload's parts -/

/-- A loop whose chunk count is at most `k` closes on every fuel above `k`. -/
theorem genByteChunks_of_count (data : List UInt8) {n : Nat} (hn : 0 < n) (hrange : data.length + n ≤ maxInt)
    {k : Nat} (hk : (data.length + n - 1) / n ≤ k) :
    ∃ chunks, (∀ fuel, k < fuel → genByteChunks data n fuel = some (chunks, .closed)) ∧
      Chunked n data chunks := by
  have hq := Nat.lt_div_mul_add (a := data.length + n - 1) hn
  have hkn := Nat.mul_le_mul_right n hk
  obtain ⟨chunks, hc, hch⟩ := chunkLoop_chunked data hn hrange (k + 1) 0 (by rw [Nat.succ_mul]; omega)
  rw [List.drop_zero] at hch
  exact ⟨chunks, fun fuel hfuel => chunkLoop_mono (by omega) hc, hch⟩

theorem getAppropriatedPartSize_small {fileSize : Int} (h : fileSize < 104857600) :
    getAppropriatedPartSize fileSize = (131072 : Nat) := by
  rw [getAppropriatedPartSize, if_pos h]
  rfl

theorem getAppropriatedPartSize_large {fileSize : Int} (h1 : 104857600 ≤ fileSize) (h2 : fileSize < 2097152000) :
    getAppropriatedPartSize fileSize = (262144 : Nat) := by
  unfold getAppropriatedPartSize
  split_ifs <;> omega

/-- **Every file below 2097152000 bytes goes up in at most 8000 parts.** With the part size
`getAppropriatedPartSize` picks for its length, `genByteChunks` closes on every fuel above
8000, after sending the file in order, every part but the last of the part size; there are
at most 800 parts below 104857600 bytes, 3000 below 786432000 bytes and 8000 below
2097152000. -/
theorem upload_parts (data : List UInt8) (hsize : data.length < 2097152000) :
    ∃ chunks : List (List UInt8),
      (∀ fuel : Nat, 8000 < fuel →
        genByteChunks data (getAppropriatedPartSize data.length) fuel = some (chunks, .closed)) ∧
      chunks.flatten = data ∧
      (∀ c ∈ chunks.dropLast, (c.length : Int) = getAppropriatedPartSize data.length) ∧
      chunks.length ≤ 8000 ∧ (data.length < 786432000 → chunks.length ≤ 3000) ∧
      (data.length < 104857600 → chunks.length ≤ 800) := by
  have hmax : (2097152000 : Int) + 262144 ≤ maxInt := by decide
  rcases Nat.lt_or_ge data.length 104857600 with h1 | h1
  · have hp := getAppropriatedPartSize_small (show (data.length : Int) < 104857600 by exact_mod_cast h1)
    obtain ⟨chunks, hrun, hch⟩ := genByteChunks_of_count data (n := 131072) (by decide)
      (by push_cast; omega) (k := 800) (by omega)
    have hcount := hch.count
    refine ⟨chunks, fun fuel hf => hp ▸ hrun fuel (by omega), hch.flatten,
      fun c hc => by rw [hp, hch.full c hc], by omega, fun _ => by omega, fun _ => by omega⟩
  · have hp := getAppropriatedPartSize_large (show 104857600 ≤ (data.length : Int) by exact_mod_cast h1)
      (by exact_mod_cast hsize)
    obtain ⟨chunks, hrun, hch⟩ := genByteChunks_of_count data (n := 262144) (by decide)
      (by push_cast; omega) (k := 8000) (by omega)
    have hcount := hch.count
    refine ⟨chunks, fun fuel hf => hp ▸ hrun fuel hf, hch.flatten,
      fun c hc => by rw [hp, hch.full c hc], by omega, fun _ => by omega, fun h => absurd h1 (by omega)⟩

theorem one_byte_upload :
    ([7] : List UInt8).length < 2097152000 ∧
      ∃ chunks : List (List UInt8),
        (∀ fuel : Nat, 8000 < fuel →
          genByteChunks [7] (getAppropriatedPartSize ([7] : List UInt8).length) fuel = some (chunks, .closed)) ∧
        chunks.flatten = [7] ∧
        (∀ c ∈ chunks.dropLast, (c.length : Int) = getAppropriatedPartSize ([7] : List UInt8).length) ∧
        chunks.length ≤ 8000 ∧ (([7] : List UInt8).length < 786432000 → chunks.length ≤ 3000) ∧
        (([7] : List UInt8).length < 104857600 → chunks.length ≤ 800) :=
  ⟨by decide, upload_parts [7] (by decide)⟩

end Gogram.Telegram
