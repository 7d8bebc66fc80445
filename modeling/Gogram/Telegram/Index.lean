/-
# Telegram.Index — the peer index as a map, over whole runs

Behind `InputPeers` the cache keeps three Go maps, each of which may be nil, behind a
pointer that may be nil. What the index is for is simpler: for each kind of peer, a
partial map from an ID to the handle last stored for it. `PeerIndex` is that map, and
`PeerIndex.apply` what each operation does to it. An upsert writes one entry;
`UpdatePeersToCache` writes the users' entries, then the chats' and channels', in order;
`ImportJSON` of what another cache's `ExportJSON` returned, and `loadFromFile` of a journal
another process's `flushToFile` wrote whole, merge that cache's index in, its entries
winning; a journal torn by a failed write changes nothing.

* `runOps_refines`: from any covered cache (`NewCache` is one), every run of these
  operations succeeds, keeps the cover, and leaves the index holding exactly what the
  abstract run computes;
* `lookups_after_run`: after such a run from `NewCache`, `GetPeerUser`, `GetPeerChannel`
  and the loops of `GetInputPeer` answer from the abstract map.
-/
import Gogram.Telegram.Lookup
import Gogram.Telegram.CacheRun
import Gogram.Telegram.Restart

namespace Gogram.Telegram

set_option autoImplicit false

/-! ## The abstract index -/

/-- What the index is for: per kind of peer, the handle stored for each ID. -/
def PeerIndex := IndexField → Int64 → Option Int64

/-- One entry stored. -/
def PeerIndex.write (σ : PeerIndex) (f : IndexField) (k v : Int64) : PeerIndex :=
  fun g j => if g = f ∧ j = k then some v else σ g j

/-- Another index merged in, its entries winning. -/
def PeerIndex.merge (σ τ : PeerIndex) : PeerIndex := fun g j => (τ g j).or (σ g j)

/-- The index a cache holds; a nil pointer holds nothing. -/
def Cache.find (c : Cache) : PeerIndex := fun f k =>
  c.inputPeers.bind fun ip => ip.find f k

theorem PeerIndex.ext {σ τ : PeerIndex} (h : ∀ g k, σ g k = τ g k) : σ = τ :=
  funext fun g => funext (h g)

/-- Merging in nothing changes nothing. -/
@[simp]
theorem PeerIndex.merge_empty (σ : PeerIndex) : σ.merge (fun _ _ => none) = σ := rfl

theorem Cache.find_of_none {c : Cache} (h : c.inputPeers = none) : c.find = fun _ _ => none :=
  PeerIndex.ext fun _ _ => by simp only [Cache.find, h, Option.none_bind]

/-- The operations of a run that the index model follows. -/
inductive IndexOp where
  | updateUser (user : UserObj)
  | updateChannel (channel : Channel)
  | updateChat (chat : ChatObj)
  | updatePeersToCache (u : List User) (c : List Chat)
  /-- `ImportJSON` of what `ExportJSON` returned on the cache `d` -/
  | importExport (d : Cache)
  /-- `loadFromFile` of the first `n` bytes `flushToFile` wrote for the cache `d` -/
  | loadJournal (d : Cache) (n : Nat)

def IndexOp.toCacheOp : IndexOp → CacheOp
  | .updateUser user => .updateUser user
  | .updateChannel channel => .updateChannel channel
  | .updateChat chat => .updateChat chat
  | .updatePeersToCache u c => .updatePeersToCache u c
  | .importExport d => .importJSON (exportJSON d)
  | .loadJournal d n => .loadFromFile (some ((journalOf d).take n))

def PeerIndex.ofUser (σ : PeerIndex) : User → PeerIndex
  | .obj user => σ.write .users user.id user.accessHash
  | .other => σ

def PeerIndex.ofChat (σ : PeerIndex) : Chat → PeerIndex
  | .obj chat => σ.write .chats chat.id chat.id
  | .channel channel => σ.write .channels channel.id channel.accessHash
  | .other => σ

/-- What an operation does to the abstract index. -/
def PeerIndex.apply (σ : PeerIndex) : IndexOp → PeerIndex
  | .updateUser user => σ.write .users user.id user.accessHash
  | .updateChannel channel => σ.write .channels channel.id channel.accessHash
  | .updateChat chat => σ.write .chats chat.id chat.id
  | .updatePeersToCache u c => c.foldl PeerIndex.ofChat (u.foldl PeerIndex.ofUser σ)
  | .importExport d => σ.merge d.find
  | .loadJournal d n => if (journalOf d).length ≤ n then σ.merge d.find else σ

/-! ## One operation -/

/-- A run of steps that each refine their abstract step, from a covered cache. -/
theorem foldlM_refines {α : Type} {f : Cache → α → Except Panic Cache} {g : PeerIndex → α → PeerIndex}
    (hf : ∀ c a, c.Covered → ∃ c', f c a = .ok c' ∧ c'.Covered ∧ c'.find = g c.find a) :
    ∀ (l : List α) (c : Cache), c.Covered →
      ∃ c', l.foldlM f c = .ok c' ∧ c'.Covered ∧ c'.find = l.foldl g c.find
  | [], c, h => ⟨c, rfl, h, rfl⟩
  | a :: l, c, h => by
    obtain ⟨c₁, h₁, hc₁, hf₁⟩ := hf c a h
    rw [List.foldlM_cons, h₁, List.foldl_cons, ← hf₁]
    exact foldlM_refines hf l c₁ hc₁

theorem find_insert {ip : InputPeerCache} {f : IndexField} {m : GoMap Int64} (hm : ip.get f = some m)
    (k v : Int64) (g : IndexField) (j : Int64) :
    (ip.set (some (m.insert k v)) f).find g j = if g = f ∧ j = k then some v else ip.find g j := by
  rw [find_set]
  by_cases hg : g = f
  · subst hg
    by_cases hj : j = k
    · subst hj
      simp
    · simp [hj, AList.lookup_insert_ne hj, InputPeerCache.find, hm]
  · simp [hg]

/-- An upsert that went through wrote one entry of the index. -/
theorem upsert_find {R : Type} (records : Cache → GoMap R) (setRecords : Cache → GoMap R → Cache)
    (f : IndexField) {c c' : Cache} {ip : InputPeerCache} {m : GoMap Int64}
    (hip : c.inputPeers = some ip) (hm : ip.get f = some m) (id hash : Int64) (r : R)
    (h : upsert records setRecords (fun ip => ip.get f) (fun ip m => ip.set (some m) f) c id hash r = .ok c') :
    c'.find = c.find.write f id hash := by
  rw [upsert_of_some _ _ _ _ _ _ _ hip hm] at h
  cases h
  refine PeerIndex.ext fun g j => ?_
  simp only [Cache.find, PeerIndex.write, hip, Option.some_bind]
  exact find_insert hm id hash g j

theorem updateUser_refines {c : Cache} (h : c.Covered) (user : UserObj) :
    ∃ c', updateUser c user = .ok c' ∧ c'.Covered ∧ c'.find = c.find.write .users user.id user.accessHash := by
  obtain ⟨c', h', hc'⟩ := updateUser_covered h user
  obtain ⟨chs, us, cts, hip, -⟩ := h
  exact ⟨c', h', hc', upsert_find _ _ .users hip rfl _ _ _ h'⟩

theorem updateChannel_refines {c : Cache} (h : c.Covered) (channel : Channel) :
    ∃ c', updateChannel c channel = .ok c' ∧ c'.Covered ∧
      c'.find = c.find.write .channels channel.id channel.accessHash := by
  obtain ⟨c', h', hc'⟩ := updateChannel_covered h channel
  obtain ⟨chs, us, cts, hip, -⟩ := h
  exact ⟨c', h', hc', upsert_find _ _ .channels hip rfl _ _ _ h'⟩

theorem updateChat_refines {c : Cache} (h : c.Covered) (chat : ChatObj) :
    ∃ c', updateChat c chat = .ok c' ∧ c'.Covered ∧ c'.find = c.find.write .chats chat.id chat.id := by
  obtain ⟨c', h', hc'⟩ := updateChat_covered h chat
  obtain ⟨chs, us, cts, hip, -⟩ := h
  exact ⟨c', h', hc', upsert_find _ _ .chats hip rfl _ _ _ h'⟩

theorem updateFromUser_refines {c : Cache} (hc : c.Covered) (a : User) :
    ∃ c', updateFromUser c a = .ok c' ∧ c'.Covered ∧ c'.find = c.find.ofUser a := by
  cases a with
  | obj user => exact updateUser_refines hc user
  | other => exact ⟨c, rfl, hc, rfl⟩

theorem updateFromChat_refines {c : Cache} (hc : c.Covered) (a : Chat) :
    ∃ c', updateFromChat c a = .ok c' ∧ c'.Covered ∧ c'.find = c.find.ofChat a := by
  cases a with
  | obj chat => exact updateChat_refines hc chat
  | channel channel => exact updateChannel_refines hc channel
  | other => exact ⟨c, rfl, hc, rfl⟩

theorem updatePeersToCache_refines {c : Cache} (h : c.Covered) (u : List User) (cs : List Chat) :
    ∃ c', updatePeersToCache c u cs = .ok c' ∧ c'.Covered ∧
      c'.find = cs.foldl PeerIndex.ofChat (u.foldl PeerIndex.ofUser c.find) := by
  obtain ⟨c₁, h₁, hc₁, hf₁⟩ := foldlM_refines (fun _ a hc => updateFromUser_refines hc a) u c h
  obtain ⟨c₂, h₂, hc₂, hf₂⟩ := foldlM_refines (fun _ a hc => updateFromChat_refines hc a) cs c₁ hc₁
  exact ⟨c₂, by rw [updatePeersToCache, h₁]; exact h₂, hc₂, by rw [hf₂, hf₁]⟩

/-! ## Merging another cache's index -/

/-- Decoding what `encodeIndex` wrote into any index merges it in, the written entries
winning, and keeps every map that was there. -/
theorem decodeIndex_merge (path : List String) (ip ip'' : InputPeerCache) :
    ∃ ip', decodeIndex path ip (indexJson ip'') = (ip', []) ∧
      (∀ g, (ip.get g).isSome → (ip'.get g).isSome) ∧
      ∀ g k, ip'.find g k = (ip''.find g k).or (ip.find g k) := by
  obtain ⟨ip', hfold, hg⟩ := foldl_decodeIndexMember path ip'' [.channels, .users, .chats] ip []
  refine ⟨ip', hfold, fun g => (hg g).1, fun g k => ?_⟩
  rw [(hg g).2 k, if_pos (by cases g <;> simp)]

theorem grows_of_merge {ip ip' : InputPeerCache} {τ : PeerIndex}
    (hsome : ∀ g, (ip.get g).isSome → (ip'.get g).isSome)
    (hfind : ∀ g k, ip'.find g k = (τ g k).or (ip.find g k)) : ip.Grows ip' := by
  intro g m hm
  obtain ⟨m', hm'⟩ := Option.isSome_iff_exists.mp (hsome g (by rw [hm]; rfl))
  refine ⟨m', hm', fun k hk => ?_⟩
  obtain ⟨v, hv⟩ := Option.isSome_iff_exists.mp (AList.lookup_isSome.mpr hk)
  have hk' := hfind g k
  rw [InputPeerCache.find, hm', InputPeerCache.find, hm, Option.some_bind, Option.some_bind, hv] at hk'
  rw [← AList.lookup_isSome, hk']
  cases τ g k <;> rfl

/-- Into a covered cache, an index decoded from another cache's written index: the cover
stays and the other index is merged in. -/
theorem merge_refines {c : Cache} (h : c.Covered) {ip : InputPeerCache} (hip : c.inputPeers = some ip)
    (path : List String) (d : Cache) {ip'' : InputPeerCache} (hd : d.inputPeers = some ip'') :
    { c with inputPeers := some (decodeIndex path ip (indexJson ip'')).1 }.Covered ∧
      Cache.find { c with inputPeers := some (decodeIndex path ip (indexJson ip'')).1 } =
        c.find.merge d.find := by
  obtain ⟨ip', hdec, hsome, hfind⟩ := decodeIndex_merge path ip ip''
  rw [hdec]
  refine ⟨covered_of_grows h hip (grows_of_merge hsome hfind), PeerIndex.ext fun g k => ?_⟩
  simp only [Cache.find, hip, hd, Option.some_bind, PeerIndex.merge, hfind]

theorem parseJson_null : parseJson "null".toList = some .null := rfl

theorem importExport_refines {c : Cache} (h : c.Covered) (d : Cache) :
    ∃ c', (CacheOp.importJSON (exportJSON d)).apply c = .ok c' ∧ c'.Covered ∧ c'.find = c.find.merge d.find := by
  obtain ⟨chs, us, cts, hip, -⟩ := id h
  unfold exportJSON
  split
  · rename_i hd
    refine ⟨c, ?_, h, by rw [Cache.find_of_none hd, PeerIndex.merge_empty]⟩
    simp only [CacheOp.apply, importJSON_of_parse hip parseJson_null, decodeIndex]
    rw [← hip]
  · rename_i ip'' hd
    obtain ⟨hcov, hfind⟩ := merge_refines h hip [] d hd
    refine ⟨_, ?_, hcov, hfind⟩
    simp only [CacheOp.apply, importJSON_of_parse hip (parseJson_encodeIndex ip'')]

theorem loadJournal_refines {c : Cache} (h : c.Covered) (d : Cache) (n : Nat) :
    ∃ c', (CacheOp.loadFromFile (some ((journalOf d).take n))).apply c = .ok c' ∧ c'.Covered ∧
      c'.find = if (journalOf d).length ≤ n then c.find.merge d.find else c.find := by
  obtain ⟨chs, us, cts, hip, -⟩ := id h
  by_cases hn : (journalOf d).length ≤ n
  · rw [if_pos hn, List.take_of_length_le hn]
    unfold journalOf
    split
    · rename_i hd
      refine ⟨c, ?_, h, by rw [Cache.find_of_none hd, PeerIndex.merge_empty]⟩
      have hp := parseJson_objectText ([] : List (List Char × List Char × Json)) (by simp)
      simp only [CacheOp.apply, loadFromFile_of_parse c (by simp [objectText]) hp]
      rfl
    · rename_i ip'' hd
      obtain ⟨hcov, hfind⟩ := merge_refines h hip ["input_peers"] d hd
      refine ⟨_, ?_, hcov, hfind⟩
      simp only [CacheOp.apply, loadFromFile_of_parse c (by simp [objectText]) (parseJson_journal ip''),
        decodeCache, List.foldl_cons, List.foldl_nil, decodeCacheMember_index, hip, Option.getD_some]
  · rw [if_neg hn]
    exact ⟨c, by simp only [CacheOp.apply, loadFromFile_torn d c (Nat.lt_of_not_le hn)], h, rfl⟩

/-! ## Whole runs -/

theorem IndexOp.refines {c : Cache} (h : c.Covered) (op : IndexOp) :
    ∃ c', op.toCacheOp.apply c = .ok c' ∧ c'.Covered ∧ c'.find = c.find.apply op := by
  cases op with
  | updateUser user => exact updateUser_refines h user
  | updateChannel channel => exact updateChannel_refines h channel
  | updateChat chat => exact updateChat_refines h chat
  | updatePeersToCache u cs => exact updatePeersToCache_refines h u cs
  | importExport d => exact importExport_refines h d
  | loadJournal d n => exact loadJournal_refines h d n

/-- **The index refines a map.** From any covered cache, a run of upserts,
`UpdatePeersToCache`, imports of other caches' exports and loads of their journals (whole
or torn) never panics, keeps the cover, and leaves the index holding, for every kind of
peer and every ID, exactly what the abstract run over `PeerIndex` computes. -/
theorem runOps_refines (ops : List IndexOp) {c : Cache} (h : c.Covered) :
    ∃ c', runOps c (ops.map IndexOp.toCacheOp) = .ok c' ∧ c'.Covered ∧
      c'.find = ops.foldl PeerIndex.apply c.find := by
  unfold runOps
  rw [List.foldlM_map]
  exact foldlM_refines (fun c op hc => IndexOp.refines hc op) ops c h

/-! ## Lookups -/

/-- A read of one index by ID: the handle, or the error `GetPeerUser` and `GetPeerChannel`
return. -/
def PeerIndex.read (σ : PeerIndex) (f : IndexField) (mk : Int64 → Int64 → InputPeer) (noun : String)
    (id : Int64) : Except String InputPeer :=
  match σ f id with
  | some hash => .ok (mk id hash)
  | none => .error ("no " ++ noun ++ " with id " ++ fmtInt id ++ " or missing from cache")

/-- A lookup by ID over all three indexes, users first, then chats, then channels. -/
def PeerIndex.lookupPeer (σ : PeerIndex) (peerID : Int64) : Except String InputPeer :=
  match σ .users peerID with
  | some hash => .ok (.user peerID hash)
  | none =>
      match σ .chats peerID with
      | some _ => .ok (.chat peerID)
      | none =>
          match σ .channels peerID with
          | some hash => .ok (.channel peerID hash)
          | none => .error ("there is no peer with id " ++ fmtInt peerID ++ " or missing from cache")

/-- The map read of a cache that has an index reads its abstract index. -/
theorem peerRead_find {c : Cache} {ip : InputPeerCache} (hip : c.inputPeers = some ip) (f : IndexField)
    (mk : Int64 → Int64 → InputPeer) (noun : String) (id : Int64) :
    peerRead (fun ip => ip.get f) mk noun c id = .ok (c.find.read f mk noun id) := by
  simp only [peerRead, Cache.index, hip, Cache.find, PeerIndex.read, Option.some_bind,
    InputPeerCache.find]
  rfl

/-- The three loops of `GetInputPeer` read the abstract index of the map they scan. -/
theorem lookupPeer_find {c : Cache} {ip : InputPeerCache} (hip : c.inputPeers = some ip) (p : Int64) :
    c.index.map (lookupPeer · p) = .ok (c.find.lookupPeer p) := by
  simp only [Cache.index, hip, lookupPeer, rangeFind_eq_lookup, Cache.find, PeerIndex.lookupPeer,
    Option.some_bind, InputPeerCache.find]
  rfl

theorem newCache_find : newCache.find = fun _ _ => none :=
  PeerIndex.ext fun g _ => by cases g <;> rfl

/-- **After any run from `NewCache`, the lookups answer from the abstract index.** Every
run of upserts, `UpdatePeersToCache`, imports and journal loads succeeds, and then
`GetPeerUser`, `GetPeerChannel` and the loops of `GetInputPeer` return, for every ID, what
reading the abstract run's map returns: the handle it holds, or the error. -/
theorem lookups_after_run (ops : List IndexOp) :
    ∃ c', runOps newCache (ops.map IndexOp.toCacheOp) = .ok c' ∧ ∀ x,
      getPeerUser c' x = .ok ((ops.foldl PeerIndex.apply fun _ _ => none).read .users .user "user" x) ∧
      getPeerChannel c' x = .ok ((ops.foldl PeerIndex.apply fun _ _ => none).read .channels .channel "channel" x) ∧
      c'.index.map (lookupPeer · x) = .ok ((ops.foldl PeerIndex.apply fun _ _ => none).lookupPeer x) := by
  obtain ⟨c', hrun, ⟨chs, us, cts, hip, -⟩, hfind⟩ :=
    foldlM_refines (fun c op hc => IndexOp.refines hc op) ops newCache newCache_covered
  rw [newCache_find] at hfind
  refine ⟨c', by rw [runOps, List.foldlM_map]; exact hrun, fun x => ?_⟩
  rw [← hfind]
  exact ⟨peerRead_find hip .users .user "user" x, peerRead_find hip .channels .channel "channel" x,
    lookupPeer_find hip x⟩

/-! ## Poles -/

/-- From `NewCache`, importing the export of `NewCache`. -/
theorem import_fresh_export_refines :
    newCache.Covered ∧ ∃ c', runOps newCache ([IndexOp.importExport newCache].map IndexOp.toCacheOp) = .ok c' ∧
      c'.Covered ∧ c'.find = [IndexOp.importExport newCache].foldl PeerIndex.apply newCache.find :=
  ⟨newCache_covered, runOps_refines [.importExport newCache] newCache_covered⟩

end Gogram.Telegram
