/-
# Telegram.Journal — the peer index written and read as JSON

`ExportJSON` marshals `InputPeers` and `ImportJSON` unmarshals into it; `flushToFile`
marshals the whole `CACHE` into `cache.journal` and `loadFromFile` unmarshals the file
into the cache. Only `InputPeers` is exported by `CACHE` (its record maps are unexported
fields), under `input_peers`, and each of its maps is omitted when empty. A map writes its
`int64` keys as quoted decimal text, sorted, and its values as numbers; reading parses
both back with `ParseInt`. Decoding follows `encoding/json`: members in order, field
names matched up to Unicode simple case folding, a JSON `null` sets a map or a pointer to
nil, an object is merged into a map that is already there, and type errors are saved while
decoding goes on.

* `foldl_decodeIndexMember`: decoding what `encodeIndex` wrote restores every written map
  entry for entry, merged into what the target held;
* `journal_round_trip`: into a fresh cache, `ImportJSON ∘ ExportJSON` and
  `loadFromFile ∘ flushToFile` both restore the index, every `int64` key and value;
* `importJSON_users_null`, `loadFromFile_input_peers_null`: `{"users":null}` nils
  `InputUsers`, and the journal `{"input_peers":null}` nils the index.
-/
import Gogram.Telegram.Cache
import Gogram.Telegram.Json

namespace Gogram.Telegram

set_option autoImplicit false

/-! ## Decoding -/

/-- The `UnmarshalTypeError`s decoding saves: the JSON value, the Go type, and the path of
struct fields. -/
structure UnmarshalTypeError where
  value : String
  goType : String
  field : List String
  deriving DecidableEq, Repr

/-- What `json.Unmarshal` returns when it fails. -/
inductive UnmarshalError where
  /-- `checkValid` rejected the input; nothing was decoded. -/
  | invalidJson
  /-- `InvalidUnmarshalError`: the target pointer is nil. -/
  | nilTarget
  /-- The first type error saved while decoding. -/
  | typeError (e : UnmarshalTypeError)
  deriving DecidableEq, Repr

def Json.kind : Json → String
  | .null => "null"
  | .bool _ => "bool"
  | .number _ => "number"
  | .string _ => "string"
  | .array _ => "array"
  | .object _ => "object"

/-- A map element: `null` leaves it zero, a number is read by `ParseInt`. -/
def decodeInt64 (field : List String) : Json → Int64 × List UnmarshalTypeError
  | .null => (0, [])
  | .number lit =>
      match parseInt lit with
      | .ok n => (BitVec.ofInt 64 n, [])
      | .error _ => (0, [⟨"number " ++ String.mk lit, "int64", field⟩])
  | v => (0, [⟨v.kind, "int64", field⟩])

/-- One member of a map: the value is decoded, then the key is read by `ParseInt`; a key
that does not read drops the member. -/
def decodeEntry (field : List String) (acc : GoMap Int64 × List UnmarshalTypeError)
    (kv : List Char × Json) : GoMap Int64 × List UnmarshalTypeError :=
  match parseInt kv.1 with
  | .ok k => (acc.1.insert (BitVec.ofInt 64 k) (decodeInt64 field kv.2).1,
      acc.2 ++ (decodeInt64 field kv.2).2)
  | .error _ => (acc.1, acc.2 ++ (decodeInt64 field kv.2).2 ++
      [⟨"number " ++ String.mk kv.1, "int64", field⟩])

/-- A `map[int64]int64` field: `null` makes it nil; an object is merged into it,
allocated when nil; anything else is a type error. -/
def decodePeerMap (field : List String) (m : Option (GoMap Int64)) :
    Json → Option (GoMap Int64) × List UnmarshalTypeError
  | .null => (none, [])
  | .object kvs =>
      let r := kvs.foldl (decodeEntry field) (m.getD ∅, [])
      (some r.1, r.2)
  | v => (m, [⟨v.kind, "map[int64]int64", field⟩])

/-- The three fields of `InputPeerCache`, by their JSON names. -/
inductive IndexField where
  | channels
  | users
  | chats
  deriving DecidableEq, Repr

def IndexField.name : IndexField → String
  | .channels => "channels"
  | .users => "users"
  | .chats => "chats"

def InputPeerCache.get (ip : InputPeerCache) : IndexField → Option (GoMap Int64)
  | .channels => ip.inputChannels
  | .users => ip.inputUsers
  | .chats => ip.inputChats

def InputPeerCache.set (ip : InputPeerCache) (m : Option (GoMap Int64)) :
    IndexField → InputPeerCache
  | .channels => { ip with inputChannels := m }
  | .users => { ip with inputUsers := m }
  | .chats => { ip with inputChats := m }

/-- `foldRune`: the least rune of `r`'s `unicode.SimpleFold` orbit, for a rune beyond
ASCII. The orbits that reach ASCII are `{K, k, U+212A}` (the Kelvin sign) and
`{S, s, U+017F}` (long s), whose least runes are `K` and `S`. Every other orbit lies beyond
ASCII: its runes are kept as they are, and like their least rune they never meet the fold
of an ASCII name. -/
def foldRune (r : Char) : Char :=
  if r = '\u212A' then 'K' else if r = '\u017F' then 'S' else r

/-- `appendFoldedName`, rune by rune: an ASCII letter to upper case, any other ASCII
character as it is, and a rune beyond ASCII to `foldRune`. -/
def foldChar (c : Char) : Char :=
  if c.toNat < 0x80 then if 'a' ≤ c ∧ c ≤ 'z' then Char.ofNat (c.toNat - 32) else c
  else foldRune c

/-- A key names a field when `foldName` of the two agree (`byFoldedName`); the exact
match `byExactName` tried first is one case of it. -/
def foldEq (key : List Char) (name : String) : Bool :=
  key.map foldChar == name.toList.map foldChar

example : foldEq "U\u017Fers".toList "users" = true ∧ foldEq "\u212Aeys".toList "keys" = true ∧
    foldEq "us\u00E9rs".toList "users" = false := by
  decide

def indexField (key : List Char) : Option IndexField :=
  [IndexField.channels, .users, .chats].find? fun f => foldEq key f.name

def decodeIndexMember (path : List String) (acc : InputPeerCache × List UnmarshalTypeError)
    (kv : List Char × Json) : InputPeerCache × List UnmarshalTypeError :=
  match indexField kv.1 with
  | some f =>
      let r := decodePeerMap (path ++ [f.name]) (acc.1.get f) kv.2
      (acc.1.set r.1 f, acc.2 ++ r.2)
  | none => acc

/-- Into an `InputPeerCache`: `null` changes nothing, an object sets the fields it names. -/
def decodeIndex (path : List String) (ip : InputPeerCache) :
    Json → InputPeerCache × List UnmarshalTypeError
  | .null => (ip, [])
  | .object kvs => kvs.foldl (decodeIndexMember path) (ip, [])
  | v => (ip, [⟨v.kind, "telegram.InputPeerCache", path⟩])

/-- `input_peers` of a `CACHE`: `null` sets the pointer nil; any other value first
allocates it when nil, then decodes into it. -/
def decodeCacheMember (acc : Cache × List UnmarshalTypeError) (kv : List Char × Json) :
    Cache × List UnmarshalTypeError :=
  if foldEq kv.1 "input_peers" then
    match kv.2 with
    | .null => ({ acc.1 with inputPeers := none }, acc.2)
    | v =>
        let r := decodeIndex ["input_peers"] (acc.1.inputPeers.getD ⟨none, none, none⟩) v
        ({ acc.1 with inputPeers := some r.1 }, acc.2 ++ r.2)
  else acc

def decodeCache (c : Cache) : Json → Cache × List UnmarshalTypeError
  | .null => (c, [])
  | .object kvs => kvs.foldl decodeCacheMember (c, [])
  | v => (c, [⟨v.kind, "telegram.CACHE", []⟩])

/-- `ImportJSON(data)`: `json.Unmarshal(data, c.InputPeers)`. -/
def importJSON (c : Cache) (data : List Char) : Cache × Option UnmarshalError :=
  match parseJson data with
  | none => (c, some .invalidJson)
  | some v =>
      match c.inputPeers with
      | none => (c, some .nilTarget)
      | some ip =>
          let r := decodeIndex [] ip v
          ({ c with inputPeers := some r.1 }, r.2.head?.map .typeError)

/-- `loadFromFile()`, given what `cache.journal` holds (`none` when it cannot be opened,
stat-ed or read): an empty file is skipped, and an `Unmarshal` error is only logged. -/
def loadFromFile (c : Cache) : Option (List Char) → Cache
  | none => c
  | some [] => c
  | some data =>
      match parseJson data with
      | none => c
      | some v => (decodeCache c v).1

/-! ## Encoding -/

/-- `strings.Compare(a, b) <= 0` on the key texts. -/
def keyLe : List Char → List Char → Bool
  | [], _ => true
  | _ :: _, [] => false
  | a :: as, b :: bs => if a = b then keyLe as bs else a < b

/-- The entries of a map in the order `encoding/json` writes them: sorted by key text. -/
def sortedEntries (m : GoMap Int64) : List (Sigma fun _ : Int64 => Int64) :=
  m.entries.mergeSort fun a b => keyLe (formatInt a.1.toInt) (formatInt b.1.toInt)

/-- `json.Marshal` of a `map[int64]int64`: keys as quoted text, values as numbers. -/
def encodePeerMap (m : GoMap Int64) : List Char :=
  objectText ((sortedEntries m).map fun e => (formatInt e.1.toInt, formatInt e.2.toInt))

/-- A field tagged `omitempty`: left out when the map is nil or empty. -/
def encodeField (ip : InputPeerCache) (f : IndexField) : Option (List Char × List Char) :=
  match ip.get f with
  | some m => if m.entries = [] then none else some (f.name.toList, encodePeerMap m)
  | none => none

/-- `json.Marshal` of an `InputPeerCache`, fields in declaration order. -/
def encodeIndex (ip : InputPeerCache) : List Char :=
  objectText ([IndexField.channels, .users, .chats].filterMap (encodeField ip))

/-- `ExportJSON()`: `json.Marshal(c.InputPeers)`; a nil pointer is `null`. -/
def exportJSON (c : Cache) : List Char :=
  match c.inputPeers with
  | none => "null".toList
  | some ip => encodeIndex ip

/-- The bytes `flushToFile` writes: `json.Marshal(c)`, where only `input_peers` is exported,
and omitted when nil. -/
def journalOf (c : Cache) : List Char :=
  objectText <| match c.inputPeers with
    | none => []
    | some ip => [("input_peers".toList, encodeIndex ip)]

/-! ## What the encoders write, as the parser reads it -/

/-- The object `encodePeerMap` writes, as the parser reads it. -/
def peerMapJson (m : GoMap Int64) : Json :=
  .object ((sortedEntries m).map fun e => (formatInt e.1.toInt, .number (formatInt e.2.toInt)))

/-- The member `encodeField` writes for a field: its name, its text, and the value the
parser reads from that text. -/
def encodedMember (ip : InputPeerCache) (f : IndexField) : Option (List Char × List Char × Json) :=
  match ip.get f with
  | some m => if m.entries = [] then none else some (f.name.toList, encodePeerMap m, peerMapJson m)
  | none => none

/-- The object `encodeIndex` writes, as the parser reads it. -/
def indexJson (ip : InputPeerCache) : Json :=
  .object ([IndexField.channels, .users, .chats].filterMap fun f =>
    (encodedMember ip f).map fun x => (x.1, x.2.2))

theorem plain_name (f : IndexField) : Plain f.name.toList := by
  unfold Plain
  cases f <;> decide

theorem plain_input_peers : Plain "input_peers".toList := by
  unfold Plain
  decide

theorem valueText_encodePeerMap (m : GoMap Int64) : ValueText (encodePeerMap m) (peerMapJson m) := by
  have h := valueText_objectText ((sortedEntries m).map fun e =>
      (formatInt e.1.toInt, formatInt e.2.toInt, Json.number (formatInt e.2.toInt))) (by
    simp only [List.mem_map]
    rintro _ ⟨e, -, rfl⟩
    exact ⟨formatInt_plain _, valueText_formatInt _⟩)
  simpa [encodePeerMap, peerMapJson, Function.comp_def] using h

theorem encodeField_eq (ip : InputPeerCache) :
    encodeField ip = fun f => (encodedMember ip f).map fun x => (x.1, x.2.1) := by
  funext f
  unfold encodeField encodedMember
  split
  · split <;> rfl
  · rfl

theorem encodedMember_sound {ip : InputPeerCache} {f : IndexField} {x : List Char × List Char × Json}
    (h : encodedMember ip f = some x) : Plain x.1 ∧ ValueText x.2.1 x.2.2 := by
  unfold encodedMember at h
  split at h
  · split at h
    · cases h
    · cases h
      exact ⟨plain_name f, valueText_encodePeerMap _⟩
  · cases h

/-- `encodeIndex` writes, and `indexJson` reads, the members of one list. -/
theorem encodeIndex_indexJson (ip : InputPeerCache) :
    ∃ L : List (List Char × List Char × Json), (∀ x ∈ L, Plain x.1 ∧ ValueText x.2.1 x.2.2) ∧
      encodeIndex ip = objectText (L.map fun x => (x.1, x.2.1)) ∧
      indexJson ip = .object (L.map fun x => (x.1, x.2.2)) := by
  refine ⟨[IndexField.channels, .users, .chats].filterMap (encodedMember ip), fun x hx => ?_, ?_, ?_⟩
  · obtain ⟨f, -, hf⟩ := List.mem_filterMap.mp hx
    exact encodedMember_sound hf
  · rw [List.map_filterMap, encodeIndex, encodeField_eq]
  · rw [List.map_filterMap, indexJson]

theorem valueText_encodeIndex (ip : InputPeerCache) : ValueText (encodeIndex ip) (indexJson ip) := by
  obtain ⟨L, hL, he, hj⟩ := encodeIndex_indexJson ip
  rw [he, hj]
  exact valueText_objectText L hL

/-- `ExportJSON`'s text passes `checkValid` and reads as `indexJson`. -/
theorem parseJson_encodeIndex (ip : InputPeerCache) : parseJson (encodeIndex ip) = some (indexJson ip) := by
  obtain ⟨L, hL, he, hj⟩ := encodeIndex_indexJson ip
  rw [he, hj]
  exact parseJson_objectText L hL

/-- The journal of a cache with an index passes `checkValid` and reads as one member. -/
theorem parseJson_journal (ip : InputPeerCache) :
    parseJson (objectText [("input_peers".toList, encodeIndex ip)]) =
      some (.object [("input_peers".toList, indexJson ip)]) :=
  parseJson_objectText [("input_peers".toList, encodeIndex ip, indexJson ip)] fun x hx => by
    rw [List.mem_singleton.mp hx]
    exact ⟨plain_input_peers, valueText_encodeIndex ip⟩

/-! ## Decoding what was written -/

/-- What an index map holds for an ID; a nil map holds nothing. -/
def InputPeerCache.find (ip : InputPeerCache) (f : IndexField) (k : Int64) : Option Int64 :=
  (ip.get f).bind fun m => m.lookup k

/-- `ip'` holds the index `ip` entry for entry, and none of its maps is nil. -/
def InputPeerCache.Restores (ip' ip : InputPeerCache) : Prop :=
  ∀ f, (ip'.get f).isSome ∧ ∀ k, ip'.find f k = ip.find f k

theorem get_set (ip : InputPeerCache) (m : Option (GoMap Int64)) (f g : IndexField) :
    (ip.set m f).get g = if g = f then m else ip.get g := by
  cases f <;> cases g <;> rfl

theorem indexField_name (f : IndexField) : indexField f.name.toList = some f := by
  cases f <;> rfl

/-- A member of a map decodes to the entry it was written from. -/
theorem decodeEntry_formatInt (field : List String) (acc : GoMap Int64 × List UnmarshalTypeError)
    (k v : Int64) :
    decodeEntry field acc (formatInt k.toInt, .number (formatInt v.toInt)) = (acc.1.insert k v, acc.2) := by
  have hk := toInt_bounds k
  have hv := toInt_bounds v
  simp [decodeEntry, decodeInt64, parseInt_formatInt _ hk.1 hk.2, parseInt_formatInt _ hv.1 hv.2,
    ofInt_toInt]

theorem foldl_decodeEntry (field : List String) :
    ∀ (es : List (Sigma fun _ : Int64 => Int64)) (m : GoMap Int64) (errs : List UnmarshalTypeError),
      (es.map fun e => (formatInt e.1.toInt, Json.number (formatInt e.2.toInt))).foldl
          (decodeEntry field) (m, errs) = (es.foldl (fun a e => a.insert e.1 e.2) m, errs)
  | [], _, _ => rfl
  | e :: es, m, errs => by
    rw [List.map_cons, List.foldl_cons, decodeEntry_formatInt, List.foldl_cons]
    exact foldl_decodeEntry field es _ errs

/-- Inserting entries with distinct keys one by one: each key finds its entry, any other key
what the map held. -/
theorem lookup_foldl_insert :
    ∀ (es : List (Sigma fun _ : Int64 => Int64)), es.NodupKeys → ∀ (m : GoMap Int64) (k : Int64),
      (es.foldl (fun a e => a.insert e.1 e.2) m).lookup k = (es.dlookup k).or (m.lookup k)
  | [], _, _, _ => rfl
  | ⟨a, b⟩ :: es, hnd, m, k => by
    rw [List.nodupKeys_cons] at hnd
    rw [List.foldl_cons, lookup_foldl_insert es hnd.2]
    by_cases hk : k = a
    · subst hk
      rw [List.dlookup_eq_none.mpr hnd.1, AList.lookup_insert, List.dlookup_cons_eq]
      rfl
    · rw [AList.lookup_insert_ne hk, List.dlookup_cons_ne _ _ hk]

theorem nodupKeys_sortedEntries (m : GoMap Int64) : (sortedEntries m).NodupKeys :=
  (List.perm_nodupKeys (List.mergeSort_perm _ _)).mpr m.nodupKeys

theorem lookup_sortedEntries (m : GoMap Int64) (k : Int64) :
    (sortedEntries m).dlookup k = m.lookup k :=
  List.perm_dlookup k (nodupKeys_sortedEntries m) m.nodupKeys (List.mergeSort_perm _ _)

/-- **A map reads back entry for entry**, merged into the map the field held. -/
theorem decodePeerMap_peerMapJson (field : List String) (m0 : Option (GoMap Int64)) (m : GoMap Int64) :
    ∃ m', decodePeerMap field m0 (peerMapJson m) = (some m', []) ∧
      ∀ k, m'.lookup k = (m.lookup k).or (m0.bind fun m0 => m0.lookup k) := by
  refine ⟨(sortedEntries m).foldl (fun a e => a.insert e.1 e.2) (m0.getD ∅),
    by simp only [decodePeerMap, peerMapJson, foldl_decodeEntry], fun k => ?_⟩
  rw [lookup_foldl_insert _ (nodupKeys_sortedEntries m), lookup_sortedEntries]
  cases m0 <;> rfl

theorem find_of_encodedMember_none {ip : InputPeerCache} {f : IndexField}
    (h : encodedMember ip f = none) (k : Int64) : ip.find f k = none := by
  unfold encodedMember at h
  unfold InputPeerCache.find
  split at h
  · split at h
    · simp [*, AList.lookup]
    · cases h
  · simp [*]

/-- One written member decodes into its field, merged with what the field held. -/
theorem decodeIndexMember_encoded (path : List String) {ip : InputPeerCache} {f : IndexField}
    {x : List Char × List Char × Json} (hx : encodedMember ip f = some x) (ip0 : InputPeerCache)
    (errs : List UnmarshalTypeError) :
    ∃ m', decodeIndexMember path (ip0, errs) (x.1, x.2.2) = (ip0.set (some m') f, errs) ∧
      ∀ k, m'.lookup k = (ip.find f k).or (ip0.find f k) := by
  unfold encodedMember at hx
  split at hx
  · rename_i m hm
    split at hx
    · cases hx
    · cases hx
      obtain ⟨m', hdec, hm'⟩ := decodePeerMap_peerMapJson (path ++ [f.name]) (ip0.get f) m
      refine ⟨m', by simp only [decodeIndexMember, indexField_name, hdec, List.append_nil], fun k => ?_⟩
      rw [hm', InputPeerCache.find, InputPeerCache.find, hm]
      rfl
  · cases hx

theorem find_set (ip : InputPeerCache) (m : Option (GoMap Int64)) (f g : IndexField) (k : Int64) :
    (ip.set m f).find g k = if g = f then m.bind fun m => m.lookup k else ip.find g k := by
  unfold InputPeerCache.find
  rw [get_set]
  split <;> rfl

/-- **Decoding the written members field by field**: no error, every map that was present
stays present, and each field listed holds what was written merged with what it held. -/
theorem foldl_decodeIndexMember (path : List String) (ip : InputPeerCache) :
    ∀ (fs : List IndexField) (ip0 : InputPeerCache) (errs : List UnmarshalTypeError),
      ∃ ip', (fs.filterMap fun f => (encodedMember ip f).map fun x => (x.1, x.2.2)).foldl
          (decodeIndexMember path) (ip0, errs) = (ip', errs) ∧
        ∀ g, ((ip0.get g).isSome → (ip'.get g).isSome) ∧
          ∀ k, ip'.find g k = (if g ∈ fs then ip.find g k else none).or (ip0.find g k)
  | [], ip0, errs => ⟨ip0, rfl, fun g => ⟨id, fun k => by simp⟩⟩
  | f :: fs, ip0, errs => by
    rw [List.filterMap_cons]
    cases hx : encodedMember ip f with
    | none =>
      obtain ⟨ip', hfold, hg⟩ := foldl_decodeIndexMember path ip fs ip0 errs
      refine ⟨ip', hfold, fun g => ⟨(hg g).1, fun k => ?_⟩⟩
      rw [(hg g).2 k]
      by_cases hgf : g = f
      · subst hgf
        simp [find_of_encodedMember_none hx k]
      · simp [hgf]
    | some x =>
      obtain ⟨m', hstep, hm'⟩ := decodeIndexMember_encoded path hx ip0 errs
      obtain ⟨ip', hfold, hg⟩ := foldl_decodeIndexMember path ip fs (ip0.set (some m') f) errs
      refine ⟨ip', by rw [Option.map_some', List.foldl_cons, hstep, hfold], fun g => ⟨fun h0 => ?_, fun k => ?_⟩⟩
      · refine (hg g).1 ?_
        rw [get_set]
        split <;> simp [h0]
      · rw [(hg g).2 k, find_set]
        by_cases hgf : g = f
        · subst hgf
          rw [if_pos rfl, Option.some_bind, hm', if_pos (List.mem_cons_self _ _)]
          split
          · rw [← Option.or_assoc, Option.or_self]
          · rfl
        · simp [hgf]

/-- Into the fresh index, what `encodeIndex` wrote decodes with no error to a copy of the
index. -/
theorem decodeIndex_indexJson (path : List String) (ip : InputPeerCache) :
    ∃ ip', decodeIndex path emptyIndex (indexJson ip) = (ip', []) ∧ ip'.Restores ip := by
  obtain ⟨ip', hfold, hg⟩ := foldl_decodeIndexMember path ip [.channels, .users, .chats] emptyIndex []
  refine ⟨ip', hfold, fun g => ⟨(hg g).1 (by cases g <;> rfl), fun k => ?_⟩⟩
  have hmem : g ∈ [IndexField.channels, .users, .chats] := by cases g <;> simp
  have hempty : emptyIndex.find g k = none := by cases g <;> rfl
  rw [(hg g).2 k, if_pos hmem, hempty, Option.or_none]

/-! ## The round trip -/

theorem importJSON_of_parse {c : Cache} {ip : InputPeerCache} (hc : c.inputPeers = some ip)
    {data : List Char} {v : Json} (h : parseJson data = some v) :
    importJSON c data = ({ c with inputPeers := some (decodeIndex [] ip v).1 },
      (decodeIndex [] ip v).2.head?.map .typeError) := by
  simp only [importJSON, h, hc]

theorem loadFromFile_of_parse (c : Cache) {data : List Char} (hne : data ≠ []) {v : Json}
    (h : parseJson data = some v) : loadFromFile c (some data) = (decodeCache c v).1 := by
  cases data with
  | nil => exact absurd rfl hne
  | cons a r => simp only [loadFromFile, h]

theorem restores_emptyIndex : emptyIndex.Restores emptyIndex :=
  fun f => ⟨by cases f <;> rfl, fun _ => rfl⟩

theorem importJSON_exportJSON (c : Cache) :
    ∃ ip, importJSON newCache (exportJSON c) = ({ newCache with inputPeers := some ip }, none) ∧
      ip.Restores (c.inputPeers.getD emptyIndex) := by
  unfold exportJSON
  split
  · next h => exact ⟨emptyIndex, rfl, by rw [h]; exact restores_emptyIndex⟩
  · next ip h =>
    obtain ⟨ip', hdec, hres⟩ := decodeIndex_indexJson [] ip
    refine ⟨ip', ?_, by rwa [h]⟩
    rw [importJSON_of_parse (show newCache.inputPeers = some emptyIndex from rfl)
      (parseJson_encodeIndex ip), hdec]
    rfl

theorem decodeCacheMember_index (acc : Cache × List UnmarshalTypeError) (ip : InputPeerCache) :
    decodeCacheMember acc ("input_peers".toList, indexJson ip) =
      let r := decodeIndex ["input_peers"] (acc.1.inputPeers.getD ⟨none, none, none⟩) (indexJson ip)
      ({ acc.1 with inputPeers := some r.1 }, acc.2 ++ r.2) := rfl

theorem loadFromFile_journalOf (c : Cache) :
    ∃ ip, loadFromFile newCache (some (journalOf c)) = { newCache with inputPeers := some ip } ∧
      ip.Restores (c.inputPeers.getD emptyIndex) := by
  unfold journalOf
  split
  · next h => exact ⟨emptyIndex, rfl, by rw [h]; exact restores_emptyIndex⟩
  · next ip h =>
    obtain ⟨ip', hdec, hres⟩ := decodeIndex_indexJson ["input_peers"] ip
    refine ⟨ip', ?_, by rwa [h]⟩
    rw [loadFromFile_of_parse newCache (by simp [objectText]) (parseJson_journal ip), decodeCache,
      List.foldl_cons, List.foldl_nil, decodeCacheMember_index]
    simp [newCache, hdec]

/-- **The journal round trip.** Into a fresh cache, `ImportJSON` of what `ExportJSON` wrote
succeeds, and `loadFromFile` of what `flushToFile` wrote, each restore the cache's index
entry for entry, every `int64` key and value, with no map left nil; nothing else of the
cache changes. A nil index is written as `null` or left out, and reads back empty. -/
theorem journal_round_trip (c : Cache) :
    (∃ ip, importJSON newCache (exportJSON c) = ({ newCache with inputPeers := some ip }, none) ∧
      ip.Restores (c.inputPeers.getD emptyIndex)) ∧
    ∃ ip, loadFromFile newCache (some (journalOf c)) = { newCache with inputPeers := some ip } ∧
      ip.Restores (c.inputPeers.getD emptyIndex) :=
  ⟨importJSON_exportJSON c, loadFromFile_journalOf c⟩

/-! ## A `null` in the input -/

/-- `ImportJSON({"users":null})` succeeds on any cache with an index, and nils
`InputUsers`. -/
theorem importJSON_users_null (c : Cache) {ip : InputPeerCache} (h : c.inputPeers = some ip) :
    importJSON c "\x7b\"users\":null\x7d".toList =
      ({ c with inputPeers := some { ip with inputUsers := none } }, none) := by
  have e : "\x7b\"users\":null\x7d".toList = objectText [(IndexField.users.name.toList, "null".toList)] :=
    rfl
  rw [e, importJSON_of_parse h (parseJson_null_member (plain_name .users))]
  rfl

/-- `loadFromFile` of the journal `{"input_peers":null}` nils the index pointer. -/
theorem loadFromFile_input_peers_null (c : Cache) :
    loadFromFile c (some "\x7b\"input_peers\":null\x7d".toList) = { c with inputPeers := none } := by
  have e : "\x7b\"input_peers\":null\x7d".toList = objectText [("input_peers".toList, "null".toList)] :=
    rfl
  rw [e, loadFromFile_of_parse c (by simp [objectText]) (parseJson_null_member plain_input_peers)]
  rfl

end Gogram.Telegram
