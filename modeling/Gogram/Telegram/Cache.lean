/-
# Telegram.Cache — the peer cache and its upserts

`CACHE` keeps three record maps (`chats`, `users`, `channels`) and, behind the pointer
`InputPeers`, the peer-handle index: three `map[int64]int64` from an ID to its access
hash (to the ID itself for chats). A Go map is an `AList` here, and a nil map or a nil
pointer is `none`: reading a nil map finds nothing, assigning into one panics, and
reading a field through a nil pointer panics. Every upsert writes its record map first
and the index second.

* `upsert_of_some`, `upsert_of_nil_map`, `upsert_of_nil_index`: what one upsert does;
* `updatePeersToCache_covered`: from a cache whose index covers its records (the index and
  its maps present, every record's ID a key of the matching index map), every
  `UpdatePeersToCache` succeeds and keeps the index covering the records.
-/
import Gogram.Telegram.Decimal
import Mathlib.Data.List.AList

namespace Gogram.Telegram

set_option autoImplicit false

/-- A Go `map[int64]V`. -/
abbrev GoMap (V : Type) := AList (fun _ : Int64 => V)

/-- `*UserObj`, by the fields the cache reads. -/
structure UserObj where
  id : Int64
  accessHash : Int64
  deriving DecidableEq, Repr

/-- `*ChatObj`, by the fields the cache reads. -/
structure ChatObj where
  id : Int64
  deriving DecidableEq, Repr

/-- `*Channel`, by the fields the cache reads. -/
structure Channel where
  id : Int64
  accessHash : Int64
  deriving DecidableEq, Repr

/-- The `User` interface: `*UserObj`, or another implementation (`*UserEmpty`). -/
inductive User where
  | obj (user : UserObj)
  | other
  deriving DecidableEq, Repr

/-- The `Chat` interface: `*ChatObj`, `*Channel`, or another implementation. -/
inductive Chat where
  | obj (chat : ChatObj)
  | channel (channel : Channel)
  | other
  deriving DecidableEq, Repr

/-- `InputPeerCache`; a nil map is `none`. -/
structure InputPeerCache where
  inputChannels : Option (GoMap Int64)
  inputUsers : Option (GoMap Int64)
  inputChats : Option (GoMap Int64)

/-- `CACHE`, without its mutex and logger. -/
structure Cache where
  chats : GoMap ChatObj
  users : GoMap UserObj
  channels : GoMap Channel
  inputPeers : Option InputPeerCache

/-- A Go runtime panic, by its message. -/
structure Panic where
  msg : String
  deriving DecidableEq, Repr

def nilMapAssignment : Panic := ⟨"assignment to entry in nil map"⟩

def nilDereference : Panic := ⟨"runtime error: invalid memory address or nil pointer dereference"⟩

/-- `c.InputPeers`, read through the pointer. -/
def Cache.index (c : Cache) : Except Panic InputPeerCache :=
  match c.inputPeers with
  | none => .error nilDereference
  | some ip => .ok ip

/-- `m[k] = v`. -/
def mapAssign {V : Type} (m : Option (GoMap V)) (k : Int64) (v : V) : Except Panic (GoMap V) :=
  match m with
  | none => .error nilMapAssignment
  | some m => .ok (m.insert k v)

def emptyIndex : InputPeerCache := ⟨some ∅, some ∅, some ∅⟩

/-- `NewCache()`. -/
def newCache : Cache := ⟨∅, ∅, ∅, some emptyIndex⟩

/-! ## Upserts -/

/-- The one body of `UpdateUser`, `UpdateChannel` and `UpdateChat`: `records[id] = r`, then
`c.InputPeers.<index>[id] = hash`. -/
def upsert {R : Type} (records : Cache → GoMap R) (setRecords : Cache → GoMap R → Cache)
    (index : InputPeerCache → Option (GoMap Int64))
    (setIndex : InputPeerCache → GoMap Int64 → InputPeerCache)
    (c : Cache) (id hash : Int64) (r : R) : Except Panic Cache := do
  let ip ← c.index
  let m ← mapAssign (index ip) id hash
  pure { setRecords c ((records c).insert id r) with inputPeers := some (setIndex ip m) }

/-- `UpdateUser(user)`. -/
def updateUser (c : Cache) (user : UserObj) : Except Panic Cache :=
  upsert Cache.users (fun c m => { c with users := m }) InputPeerCache.inputUsers
    (fun ip m => { ip with inputUsers := some m }) c user.id user.accessHash user

/-- `UpdateChannel(channel)`. -/
def updateChannel (c : Cache) (channel : Channel) : Except Panic Cache :=
  upsert Cache.channels (fun c m => { c with channels := m }) InputPeerCache.inputChannels
    (fun ip m => { ip with inputChannels := some m }) c channel.id channel.accessHash channel

/-- `UpdateChat(chat)`: the index keeps the chat's ID in place of a hash. -/
def updateChat (c : Cache) (chat : ChatObj) : Except Panic Cache :=
  upsert Cache.chats (fun c m => { c with chats := m }) InputPeerCache.inputChats
    (fun ip m => { ip with inputChats := some m }) c chat.id chat.id chat

def updateFromUser (c : Cache) : User → Except Panic Cache
  | .obj user => updateUser c user
  | .other => pure c

def updateFromChat (c : Cache) : Chat → Except Panic Cache
  | .obj chat => updateChat c chat
  | .channel channel => updateChannel c channel
  | .other => pure c

/-- `UpdatePeersToCache(u, c)`: the users, then the chats and channels, in order. -/
def updatePeersToCache (cache : Cache) (u : List User) (c : List Chat) : Except Panic Cache := do
  let cache ← u.foldlM updateFromUser cache
  c.foldlM updateFromChat cache

section Upsert

variable {R : Type} (records : Cache → GoMap R) (setRecords : Cache → GoMap R → Cache)
  (index : InputPeerCache → Option (GoMap Int64))
  (setIndex : InputPeerCache → GoMap Int64 → InputPeerCache) (id hash : Int64) (r : R)

/-- With the index and its map there, an upsert writes both. -/
theorem upsert_of_some {c : Cache} {ip : InputPeerCache} {m : GoMap Int64}
    (hip : c.inputPeers = some ip) (hm : index ip = some m) :
    upsert records setRecords index setIndex c id hash r =
      .ok { setRecords c ((records c).insert id r) with
        inputPeers := some (setIndex ip (m.insert id hash)) } := by
  simp [upsert, Cache.index, hip, mapAssign, hm, bind, Except.bind, pure, Except.pure]

/-- With the index map nil, an upsert panics on the assignment. -/
theorem upsert_of_nil_map {c : Cache} {ip : InputPeerCache} (hip : c.inputPeers = some ip)
    (hm : index ip = none) :
    upsert records setRecords index setIndex c id hash r = .error nilMapAssignment := by
  simp [upsert, Cache.index, hip, mapAssign, hm, bind, Except.bind]

/-- With the index pointer nil, an upsert panics on the dereference. -/
theorem upsert_of_nil_index {c : Cache} (hip : c.inputPeers = none) :
    upsert records setRecords index setIndex c id hash r = .error nilDereference := by
  simp [upsert, Cache.index, hip, bind, Except.bind]

end Upsert

/-! ## The index covers the records -/

/-- What the upserts keep: the index and its three maps are there, and every record's ID is
a key of the matching index map. -/
def Cache.Covered (c : Cache) : Prop :=
  ∃ chs us cts : GoMap Int64, c.inputPeers = some ⟨some chs, some us, some cts⟩ ∧
    (∀ k ∈ c.channels, k ∈ chs) ∧ (∀ k ∈ c.users, k ∈ us) ∧ (∀ k ∈ c.chats, k ∈ cts)

theorem newCache_covered : newCache.Covered :=
  ⟨∅, ∅, ∅, rfl, fun k h => absurd h (AList.not_mem_empty k),
    fun k h => absurd h (AList.not_mem_empty k), fun k h => absurd h (AList.not_mem_empty k)⟩

/-- A key put into both maps: what was covered stays covered. -/
theorem mem_insert_of_covered {R : Type} {records : GoMap R} {index : GoMap Int64}
    (h : ∀ k ∈ records, k ∈ index) (id hash : Int64) (r : R) :
    ∀ k ∈ records.insert id r, k ∈ index.insert id hash := by
  intro k hk
  rw [AList.mem_insert] at hk ⊢
  exact hk.imp_right (h k)

theorem updateUser_covered {c : Cache} (h : c.Covered) (user : UserObj) :
    ∃ c', updateUser c user = .ok c' ∧ c'.Covered := by
  obtain ⟨chs, us, cts, hip, hch, hu, hct⟩ := h
  exact ⟨_, upsert_of_some _ _ _ _ _ _ _ hip rfl,
    ⟨chs, _, cts, rfl, hch, mem_insert_of_covered hu _ _ _, hct⟩⟩

theorem updateChannel_covered {c : Cache} (h : c.Covered) (channel : Channel) :
    ∃ c', updateChannel c channel = .ok c' ∧ c'.Covered := by
  obtain ⟨chs, us, cts, hip, hch, hu, hct⟩ := h
  exact ⟨_, upsert_of_some _ _ _ _ _ _ _ hip rfl,
    ⟨_, us, cts, rfl, mem_insert_of_covered hch _ _ _, hu, hct⟩⟩

theorem updateChat_covered {c : Cache} (h : c.Covered) (chat : ChatObj) :
    ∃ c', updateChat c chat = .ok c' ∧ c'.Covered := by
  obtain ⟨chs, us, cts, hip, hch, hu, hct⟩ := h
  exact ⟨_, upsert_of_some _ _ _ _ _ _ _ hip rfl,
    ⟨chs, us, _, rfl, hch, hu, mem_insert_of_covered hct _ _ _⟩⟩

/-- A run of steps that each succeed and keep the cover, from a covered cache. -/
theorem foldlM_covered {α : Type} {f : Cache → α → Except Panic Cache}
    (hf : ∀ c a, c.Covered → ∃ c', f c a = .ok c' ∧ c'.Covered) :
    ∀ (l : List α) (c : Cache), c.Covered → ∃ c', l.foldlM f c = .ok c' ∧ c'.Covered
  | [], c, h => ⟨c, rfl, h⟩
  | a :: l, c, h => by
    obtain ⟨c₁, h₁, hc₁⟩ := hf c a h
    rw [List.foldlM_cons, h₁]
    exact foldlM_covered hf l c₁ hc₁

/-- **Upserts never panic on a covered cache, and keep it covered.** -/
theorem updatePeersToCache_covered {c : Cache} (h : c.Covered) (u : List User) (cs : List Chat) :
    ∃ c', updatePeersToCache c u cs = .ok c' ∧ c'.Covered := by
  have hu : ∀ c (a : User), c.Covered → ∃ c', updateFromUser c a = .ok c' ∧ c'.Covered := by
    intro c a hc
    cases a with
    | obj user => exact updateUser_covered hc user
    | other => exact ⟨c, rfl, hc⟩
  have hch : ∀ c (a : Chat), c.Covered → ∃ c', updateFromChat c a = .ok c' ∧ c'.Covered := by
    intro c a hc
    cases a with
    | obj chat => exact updateChat_covered hc chat
    | channel channel => exact updateChannel_covered hc channel
    | other => exact ⟨c, rfl, hc⟩
  obtain ⟨c₁, h₁, hc₁⟩ := foldlM_covered hu u c h
  obtain ⟨c₂, h₂, hc₂⟩ := foldlM_covered hch cs c₁ hc₁
  exact ⟨c₂, by rw [updatePeersToCache, h₁]; exact h₂, hc₂⟩

end Gogram.Telegram
