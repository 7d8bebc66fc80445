/-
# Telegram.CacheRun — the cache from `NewCache`, operation after operation

The operations that change the cache are the three upserts, `UpdatePeersToCache`,
`ImportJSON` with any bytes and `loadFromFile` with any journal. `CacheOp.apply` runs one
(an upsert may panic; `ImportJSON` returns its error to the caller, and the cache keeps
what was decoded), and `runOps` runs a list of them in order.

The upserts need the cover of `Cache.Covered`: the index and its three maps present, every
record's ID a key of the matching index map. Decoding only adds keys to a map it merges
into, so an import keeps the cover; what takes it away is a JSON `null`, which
`encoding/json` stores as a nil map or a nil pointer. A member names a field as `foldEq`
matches it, up to Unicode simple case folding, so `{"uſers":null}` is such a `null` too.

* `decodeIndex_grows`: decoding a value with no `null` for a map keeps every map of the
  index, with every key it had;
* `apply_covered`, `runOps_covered`: an operation whose input holds no such `null` keeps the
  cover and does not panic, and so does a run of them;
* `null_import_drops_index`: with the `null`, the cover is lost after one import, and the
  next upsert panics.
-/
import Gogram.Telegram.Journal

namespace Gogram.Telegram

set_option autoImplicit false

/-- An operation on the cache, with its input. -/
inductive CacheOp where
  | updateUser (user : UserObj)
  | updateChannel (channel : Channel)
  | updateChat (chat : ChatObj)
  | updatePeersToCache (u : List User) (c : List Chat)
  | importJSON (data : List Char)
  | loadFromFile (journal : Option (List Char))

/-- One operation. -/
def CacheOp.apply (c : Cache) : CacheOp → Except Panic Cache
  | .updateUser user => Gogram.Telegram.updateUser c user
  | .updateChannel channel => Gogram.Telegram.updateChannel c channel
  | .updateChat chat => Gogram.Telegram.updateChat c chat
  | .updatePeersToCache u cs => Gogram.Telegram.updatePeersToCache c u cs
  | .importJSON data => .ok (Gogram.Telegram.importJSON c data).1
  | .loadFromFile journal => .ok (Gogram.Telegram.loadFromFile c journal)

/-- A run of operations in order, stopped by the first panic. -/
def runOps (c : Cache) (ops : List CacheOp) : Except Panic Cache :=
  ops.foldlM CacheOp.apply c

/-! ## Where a `null` takes a map away -/

def Json.isNull : Json → Bool
  | .null => true
  | _ => false

/-- An `InputPeerCache` value with `null` for one of its maps. -/
def nullsIndex : Json → Bool
  | .object kvs => kvs.any fun kv => (indexField kv.1).isSome && kv.2.isNull
  | _ => false

example : nullsIndex (.object [("u\u017Fers".toList, .null)]) = true := by decide

/-- A `CACHE` value with `null` for `input_peers`, or for one of its maps. -/
def nullsCache : Json → Bool
  | .object kvs => kvs.any fun kv => foldEq kv.1 "input_peers" && (kv.2.isNull || nullsIndex kv.2)
  | _ => false

/-- The input of an operation holds no `null` that takes a map or the index away. -/
def CacheOp.nullFree : CacheOp → Bool
  | .importJSON data =>
      match parseJson data with
      | some v => !nullsIndex v
      | none => true
  | .loadFromFile (some data) =>
      match parseJson data with
      | some v => !nullsCache v
      | none => true
  | _ => true

/-! ## Decoding only adds keys -/

/-- `ip'` keeps every map of `ip`, with every key it had. -/
def InputPeerCache.Grows (ip ip' : InputPeerCache) : Prop :=
  ∀ f m, ip.get f = some m → ∃ m', ip'.get f = some m' ∧ ∀ k ∈ m, k ∈ m'

theorem InputPeerCache.Grows.refl (ip : InputPeerCache) : ip.Grows ip :=
  fun _ m hm => ⟨m, hm, fun _ => id⟩

theorem InputPeerCache.Grows.trans {ip₁ ip₂ ip₃ : InputPeerCache} (h₁ : ip₁.Grows ip₂)
    (h₂ : ip₂.Grows ip₃) : ip₁.Grows ip₃ := by
  intro f m hm
  obtain ⟨m₂, hm₂, hk₂⟩ := h₁ f m hm
  obtain ⟨m₃, hm₃, hk₃⟩ := h₂ f m₂ hm₂
  exact ⟨m₃, hm₃, fun k hk => hk₃ k (hk₂ k hk)⟩

theorem mem_foldl_decodeEntry (field : List String) :
    ∀ (kvs : List (List Char × Json)) (acc : GoMap Int64 × List UnmarshalTypeError) {k : Int64},
      k ∈ acc.1 → k ∈ (kvs.foldl (decodeEntry field) acc).1
  | [], _, _, h => h
  | kv :: kvs, acc, k, h => by
    refine mem_foldl_decodeEntry field kvs _ ?_
    unfold decodeEntry
    split
    · exact (AList.mem_insert _).mpr (.inr h)
    · exact h

/-- A map field decoded from anything but `null` stays, with every key it had. -/
theorem decodePeerMap_grows (field : List String) (m : GoMap Int64) {v : Json}
    (hv : v.isNull = false) :
    ∃ m', (decodePeerMap field (some m) v).1 = some m' ∧ ∀ k ∈ m, k ∈ m' := by
  cases v with
  | null => cases hv
  | object kvs => exact ⟨_, rfl, fun k hk => mem_foldl_decodeEntry field kvs _ hk⟩
  | bool _ | number _ | string _ | array _ => exact ⟨m, rfl, fun _ => id⟩

theorem decodeIndexMember_grows (path : List String) (acc : InputPeerCache × List UnmarshalTypeError)
    (kv : List Char × Json) (hkv : ((indexField kv.1).isSome && kv.2.isNull) = false) :
    acc.1.Grows (decodeIndexMember path acc kv).1 := by
  unfold decodeIndexMember
  split
  · rename_i f hf
    rw [hf, Option.isSome_some, Bool.true_and] at hkv
    intro g m hm
    rw [get_set]
    split
    · subst g
      exact decodePeerMap_grows _ m hkv |>.imp fun m' h => ⟨by rw [← h.1, hm], h.2⟩
    · exact ⟨m, hm, fun _ => id⟩
  · exact .refl _

theorem foldl_decodeIndexMember_grows (path : List String) :
    ∀ (kvs : List (List Char × Json)) (acc : InputPeerCache × List UnmarshalTypeError),
      (kvs.any fun kv => (indexField kv.1).isSome && kv.2.isNull) = false →
      acc.1.Grows (kvs.foldl (decodeIndexMember path) acc).1
  | [], acc, _ => .refl _
  | kv :: kvs, acc, h => by
    rw [List.any_cons, Bool.or_eq_false_iff] at h
    exact (decodeIndexMember_grows path acc kv h.1).trans
      (foldl_decodeIndexMember_grows path kvs _ h.2)

/-- **Decoding a value with no `null` for a map keeps every map of the index**, with every
key it had. -/
theorem decodeIndex_grows (path : List String) (ip : InputPeerCache) {v : Json}
    (hv : nullsIndex v = false) : ip.Grows (decodeIndex path ip v).1 := by
  cases v with
  | object kvs => exact foldl_decodeIndexMember_grows path kvs (ip, []) hv
  | null | bool _ | number _ | string _ | array _ => exact .refl _

/-! ## The cover over a run -/

theorem covered_of_grows {c : Cache} (h : c.Covered) {ip ip' : InputPeerCache}
    (hip : c.inputPeers = some ip) (hg : ip.Grows ip') : { c with inputPeers := some ip' }.Covered := by
  obtain ⟨chs, us, cts, hc, hch, hu, hct⟩ := h
  rw [hc, Option.some.injEq] at hip
  subst hip
  obtain ⟨chs', hchs, hkch⟩ := hg .channels chs rfl
  obtain ⟨us', hus, hku⟩ := hg .users us rfl
  obtain ⟨cts', hcts, hkct⟩ := hg .chats cts rfl
  refine ⟨chs', us', cts', ?_, fun k hk => hkch k (hch k hk), fun k hk => hku k (hu k hk),
    fun k hk => hkct k (hct k hk)⟩
  cases ip'
  simp_all [InputPeerCache.get]

theorem importJSON_covered {c : Cache} (h : c.Covered) {data : List Char}
    (hnull : (CacheOp.importJSON data).nullFree = true) : (importJSON c data).1.Covered := by
  obtain ⟨chs, us, cts, hc, -⟩ := id h
  cases hp : parseJson data with
  | none => simp [importJSON, hp, h]
  | some v =>
    simp only [CacheOp.nullFree, hp, Bool.not_eq_true'] at hnull
    rw [importJSON_of_parse hc hp]
    exact covered_of_grows h hc (decodeIndex_grows [] _ hnull)

theorem decodeCacheMember_covered (acc : Cache × List UnmarshalTypeError) (kv : List Char × Json)
    (h : acc.1.Covered) (hkv : (foldEq kv.1 "input_peers" && (kv.2.isNull || nullsIndex kv.2)) = false) :
    (decodeCacheMember acc kv).1.Covered := by
  obtain ⟨key, v⟩ := kv
  unfold decodeCacheMember
  split
  · rename_i hkey
    rw [hkey, Bool.true_and, Bool.or_eq_false_iff] at hkv
    obtain ⟨chs, us, cts, hc, -⟩ := id h
    cases v with
    | null => cases hkv.1
    | _ =>
      simp only [hc, Option.getD_some]
      exact covered_of_grows h hc (decodeIndex_grows _ _ hkv.2)
  · exact h

theorem foldl_decodeCacheMember_covered :
    ∀ (kvs : List (List Char × Json)) (acc : Cache × List UnmarshalTypeError), acc.1.Covered →
      (kvs.any fun kv => foldEq kv.1 "input_peers" && (kv.2.isNull || nullsIndex kv.2)) = false →
      (kvs.foldl decodeCacheMember acc).1.Covered
  | [], _, h, _ => h
  | kv :: kvs, acc, h, hany => by
    rw [List.any_cons, Bool.or_eq_false_iff] at hany
    exact foldl_decodeCacheMember_covered kvs _ (decodeCacheMember_covered acc kv h hany.1) hany.2

theorem loadFromFile_covered {c : Cache} (h : c.Covered) {journal : Option (List Char)}
    (hnull : (CacheOp.loadFromFile journal).nullFree = true) : (loadFromFile c journal).Covered := by
  rcases journal with _ | _ | ⟨a, data⟩
  · exact h
  · exact h
  cases hp : parseJson (a :: data) with
  | none => simp [loadFromFile, hp, h]
  | some v =>
    simp only [CacheOp.nullFree, hp, Bool.not_eq_true'] at hnull
    rw [loadFromFile_of_parse c (List.cons_ne_nil a data) hp]
    cases v with
    | object kvs => exact foldl_decodeCacheMember_covered kvs (c, []) h hnull
    | null | bool _ | number _ | string _ | array _ => exact h

/-- One operation whose input holds no `null` for a map or the index keeps the cover, and
does not panic. -/
theorem apply_covered {c : Cache} (h : c.Covered) {op : CacheOp} (hop : op.nullFree = true) :
    ∃ c', op.apply c = .ok c' ∧ c'.Covered := by
  cases op with
  | updateUser user => exact updateUser_covered h user
  | updateChannel channel => exact updateChannel_covered h channel
  | updateChat chat => exact updateChat_covered h chat
  | updatePeersToCache u cs => exact updatePeersToCache_covered h u cs
  | importJSON data => exact ⟨_, rfl, importJSON_covered h hop⟩
  | loadFromFile journal => exact ⟨_, rfl, loadFromFile_covered h hop⟩

/-- **A run never panics and keeps the index covering the records**, from any covered
cache (`NewCache` is one), as long as no import reads a `null` for the index or one of its
maps. -/
theorem runOps_covered : ∀ (ops : List CacheOp) {c : Cache}, c.Covered →
    (∀ op ∈ ops, op.nullFree = true) → ∃ c', runOps c ops = .ok c' ∧ c'.Covered
  | [], c, h, _ => ⟨c, rfl, h⟩
  | op :: ops, c, h, hops => by
    obtain ⟨c₁, h₁, hc₁⟩ := apply_covered h (hops op (.head _))
    unfold runOps
    rw [List.foldlM_cons, h₁]
    exact runOps_covered ops hc₁ fun op hop => hops op (.tail _ hop)

theorem covered_after_two_upserts :
    newCache.Covered ∧ (∀ op ∈ [CacheOp.updateUser ⟨1, 7⟩, .updateChannel ⟨2, 9⟩], op.nullFree = true) ∧
      ∃ c', runOps newCache [.updateUser ⟨1, 7⟩, .updateChannel ⟨2, 9⟩] = .ok c' ∧ c'.Covered :=
  ⟨newCache_covered, by decide, runOps_covered _ newCache_covered (by decide)⟩

/-! ## Poles -/

/-- **A `null` in imported JSON takes the index away.** From `NewCache`, after `UpdateUser`
of user 1, `ImportJSON({"users":null})` succeeds and leaves user 1 in `users` with
`InputUsers` nil: the record has no peer handle, and every later `UpdateUser` panics on
the nil map. A journal `{"input_peers":null}` makes `loadFromFile` nil the whole index,
and every later `UpdateUser` panics on the nil pointer. -/
theorem null_import_drops_index :
    ∃ c, updateUser newCache ⟨1, 7⟩ = .ok c ∧
      importJSON c "\x7b\"users\":null\x7d".toList =
        ({ c with inputPeers := some ⟨some ∅, none, some ∅⟩ }, none) ∧
      c.users.lookup 1 = some ⟨1, 7⟩ ∧
      (∀ u, updateUser { c with inputPeers := some ⟨some ∅, none, some ∅⟩ } u = .error nilMapAssignment) ∧
      loadFromFile c (some "\x7b\"input_peers\":null\x7d".toList) = { c with inputPeers := none } ∧
      ∀ u, updateUser { c with inputPeers := none } u = .error nilDereference :=
  ⟨{ newCache with
      users := (∅ : GoMap UserObj).insert 1 ⟨1, 7⟩
      inputPeers := some ⟨some ∅, some ((∅ : GoMap Int64).insert 1 7), some ∅⟩ },
    upsert_of_some _ _ _ _ _ _ _ (show newCache.inputPeers = some emptyIndex from rfl)
      (show emptyIndex.inputUsers = some ∅ from rfl), importJSON_users_null _ rfl, AList.lookup_insert _,
    fun _ => upsert_of_nil_map _ _ _ _ _ _ _ rfl rfl, loadFromFile_input_peers_null _,
    fun _ => upsert_of_nil_index _ _ _ _ _ _ _ rfl⟩

end Gogram.Telegram
