/-
# Telegram.Lookup — from an ID to a peer handle or a record

`GetInputPeer` normalises a peer ID through its decimal text (a leading `-100` is cut off
and the rest read back with `Atoi`), then probes the user, chat and channel handles in
that order. `GetUser`, `GetChannel` and `GetChat` scan their record map and otherwise
ask the server: the user and channel paths look the handle up first and fail without a
call when there is none; the chat path calls `MessagesGetChats` straight away.

* `getInputPeer_decodes`: what `GetInputPeer` looks up, in arithmetic terms;
* `lookups_call_only_when_needed`: when each lookup calls the server.
-/
import Gogram.Telegram.Cache

namespace Gogram.Telegram

set_option autoImplicit false

/-- The `InputPeer` values `GetInputPeer` returns. -/
inductive InputPeer where
  | user (userID accessHash : Int64)
  | chat (chatID : Int64)
  | channel (channelID accessHash : Int64)
  deriving DecidableEq, Repr

structure InputUserObj where
  userID : Int64
  accessHash : Int64
  deriving DecidableEq, Repr

structure InputChannelObj where
  channelID : Int64
  accessHash : Int64
  deriving DecidableEq, Repr

/-- `for key, value := range m { if key == id { ... } }` over a map that may be nil: the
value under `id`, if any. -/
def rangeFind {V : Type} (m : Option (GoMap V)) (id : Int64) : Option V :=
  match m with
  | none => none
  | some m => (m.entries.find? (fun e => e.1 == id)).map (·.2)

/-- `%d` of an `int64`. -/
def fmtInt (x : Int64) : String := String.mk (formatInt x.toInt)

/-- The one body of `getUserPeer` and `getChannelPeer`. -/
def peerOf {P : Type} (index : InputPeerCache → Option (GoMap Int64)) (mk : Int64 → Int64 → P)
    (noun : String) (c : Cache) (id : Int64) : Except Panic (Except String P) := do
  let ip ← c.index
  pure <| match rangeFind (index ip) id with
    | some hash => .ok (mk id hash)
    | none => .error ("no " ++ noun ++ " with id " ++ fmtInt id ++ " or missing from cache")

def getUserPeer : Cache → Int64 → Except Panic (Except String InputUserObj) :=
  peerOf InputPeerCache.inputUsers InputUserObj.mk "user"

def getChannelPeer : Cache → Int64 → Except Panic (Except String InputChannelObj) :=
  peerOf InputPeerCache.inputChannels InputChannelObj.mk "channel"

/-! ## `GetInputPeer` -/

/-- The three loops of `GetInputPeer`: users, then chats, then channels. -/
def lookupPeer (ip : InputPeerCache) (peerID : Int64) : Except String InputPeer :=
  match rangeFind ip.inputUsers peerID with
  | some hash => .ok (.user peerID hash)
  | none =>
      match rangeFind ip.inputChats peerID with
      | some _ => .ok (.chat peerID)
      | none =>
          match rangeFind ip.inputChannels peerID with
          | some hash => .ok (.channel peerID hash)
          | none => .error ("there is no peer with id " ++ fmtInt peerID ++ " or missing from cache")

/-- The calls to the server the three lookups can make. -/
inductive Call where
  | usersGetUsers (users : List InputUserObj)
  | channelsGetChannels (channels : List InputChannelObj)
  | messagesGetChats (ids : List Int64)
  deriving DecidableEq, Repr

/-- `MessagesChats`: `*MessagesChatsObj` or `*MessagesChatsSlice`, by their chats. -/
inductive MessagesChats where
  | obj (chats : List Chat)
  | slice (chats : List Chat)
  deriving DecidableEq, Repr

/-- What the server answers each call. -/
structure Api where
  usersGetUsers : List InputUserObj → Except String (List User)
  channelsGetChannels : List InputChannelObj → Except String MessagesChats
  messagesGetChats : List Int64 → Except String MessagesChats

/-- `for _, r := range records { if r.ID == id { return r } }`. -/
def recordOf {R : Type} (records : GoMap R) (id : R → Int64) (x : Int64) : Option R :=
  (records.entries.find? (fun e => id e.2 == x)).map (·.2)

/-- `getUserFromCache(userID)`, which `GetUser` returns as it is, with the calls it made. -/
def getUserFromCache (api : Api) (c : Cache) (userID : Int64) :
    Except Panic (List Call × Except String UserObj) :=
  match recordOf c.users UserObj.id userID with
  | some user => .ok ([], .ok user)
  | none => (getUserPeer c userID).map fun
      | .error e => ([], .error e)
      | .ok userPeer => ([.usersGetUsers [userPeer]],
          match api.usersGetUsers [userPeer] with
          | .error e => .error e
          | .ok (.obj user :: _) => .ok user
          | .ok _ => .error ("no user with id " ++ fmtInt userID))

/-- `getChannelFromCache(channelID)`. -/
def getChannelFromCache (api : Api) (c : Cache) (channelID : Int64) :
    Except Panic (List Call × Except String Channel) :=
  match recordOf c.channels Channel.id channelID with
  | some channel => .ok ([], .ok channel)
  | none => (getChannelPeer c channelID).map fun
      | .error e => ([], .error e)
      | .ok channelPeer => ([.channelsGetChannels [channelPeer]],
          match api.channelsGetChannels [channelPeer] with
          | .error e => .error e
          | .ok (.obj (.channel channel :: _)) => .ok channel
          | .ok _ => .error ("no channel with id " ++ fmtInt channelID ++ " or missing from cache"))

/-- `getChatFromCache(chatID)`: no handle is looked up before the call. -/
def getChatFromCache (api : Api) (c : Cache) (chatID : Int64) :
    Except Panic (List Call × Except String ChatObj) :=
  match recordOf c.chats ChatObj.id chatID with
  | some chat => .ok ([], .ok chat)
  | none => .ok ([.messagesGetChats [chatID]],
      match api.messagesGetChats [chatID] with
      | .error e => .error e
      | .ok (.obj (.obj chat :: _)) => .ok chat
      | .ok _ => .error ("no chat with id " ++ fmtInt chatID ++ " or missing from cache"))

theorem peerOf_of_nil {P : Type} (index : InputPeerCache → Option (GoMap Int64))
    (mk : Int64 → Int64 → P) (noun : String) {c : Cache} (h : c.inputPeers = none) (x : Int64) :
    peerOf index mk noun c x = .error nilDereference := by
  simp [peerOf, Cache.index, h, bind, Except.bind]

theorem peerOf_of_none {P : Type} {index : InputPeerCache → Option (GoMap Int64)}
    (mk : Int64 → Int64 → P) (noun : String) {c : Cache} {ip : InputPeerCache} (hip : c.inputPeers = some ip)
    {x : Int64} (h : rangeFind (index ip) x = none) :
    peerOf index mk noun c x = .ok (.error ("no " ++ noun ++ " with id " ++ fmtInt x ++ " or missing from cache")) := by
  simp [peerOf, Cache.index, hip, h, bind, Except.bind, pure, Except.pure]

/-- **When the lookups call the server.** A record in the map is returned with no call.
Without a record, the user and channel paths panic on a nil `InputPeers` before any call,
and with an index that lacks the ID return its error with no call; the chat path calls
`MessagesGetChats([x])` whatever `InputChats` holds. -/
theorem lookups_call_only_when_needed (api : Api) (c : Cache) (x : Int64) :
    (∀ user, recordOf c.users UserObj.id x = some user → getUserFromCache api c x = .ok ([], .ok user)) ∧
    (∀ channel, recordOf c.channels Channel.id x = some channel →
      getChannelFromCache api c x = .ok ([], .ok channel)) ∧
    (∀ chat, recordOf c.chats ChatObj.id x = some chat → getChatFromCache api c x = .ok ([], .ok chat)) ∧
    (recordOf c.users UserObj.id x = none → c.inputPeers = none →
      getUserFromCache api c x = .error nilDereference) ∧
    (recordOf c.users UserObj.id x = none → ∀ ip, c.inputPeers = some ip → rangeFind ip.inputUsers x = none →
      getUserFromCache api c x = .ok ([], .error ("no user with id " ++ fmtInt x ++ " or missing from cache"))) ∧
    (recordOf c.channels Channel.id x = none → c.inputPeers = none →
      getChannelFromCache api c x = .error nilDereference) ∧
    (recordOf c.channels Channel.id x = none → ∀ ip, c.inputPeers = some ip →
      rangeFind ip.inputChannels x = none →
      getChannelFromCache api c x =
        .ok ([], .error ("no channel with id " ++ fmtInt x ++ " or missing from cache"))) ∧
    (recordOf c.chats ChatObj.id x = none →
      ∃ r, getChatFromCache api c x = .ok ([.messagesGetChats [x]], r)) := by
  refine ⟨fun u h => by simp [getUserFromCache, h], fun ch h => by simp [getChannelFromCache, h],
    fun ch h => by simp [getChatFromCache, h], fun hr hnil => ?_, fun hr ip hip hi => ?_,
    fun hr hnil => ?_, fun hr ip hip hi => ?_,
    fun hr => by simp only [getChatFromCache, hr]; exact ⟨_, rfl⟩⟩
  · simp [getUserFromCache, hr, getUserPeer, peerOf_of_nil _ _ _ hnil, Except.map]
  · simp [getUserFromCache, hr, getUserPeer, peerOf_of_none _ _ hip hi, Except.map]
  · simp [getChannelFromCache, hr, getChannelPeer, peerOf_of_nil _ _ _ hnil, Except.map]
  · simp [getChannelFromCache, hr, getChannelPeer, peerOf_of_none _ _ hip hi, Except.map]

/-! ## `GetPeerUser`, `GetPeerChannel`: the map read -/

/-- The one body of `GetPeerUser` and `GetPeerChannel`: `c.Cache.InputPeers.<index>[id]`, a
map read, where a nil map reads as absent. -/
def peerRead (index : InputPeerCache → Option (GoMap Int64)) (mk : Int64 → Int64 → InputPeer)
    (noun : String) (c : Cache) (id : Int64) : Except Panic (Except String InputPeer) := do
  let ip ← c.index
  pure <| match (index ip).bind fun m => m.lookup id with
    | some hash => .ok (mk id hash)
    | none => .error ("no " ++ noun ++ " with id " ++ fmtInt id ++ " or missing from cache")

/-- `GetPeerUser(userID)`. -/
def getPeerUser : Cache → Int64 → Except Panic (Except String InputPeer) :=
  peerRead InputPeerCache.inputUsers InputPeer.user "user"

/-- `GetPeerChannel(channelID)`. -/
def getPeerChannel : Cache → Int64 → Except Panic (Except String InputPeer) :=
  peerRead InputPeerCache.inputChannels InputPeer.channel "channel"

/-- A scan for the first entry with key `k` finds what the map holds under `k`. -/
theorem find?_key_eq_dlookup {V : Type} (l : List (Sigma fun _ : Int64 => V)) (k : Int64) :
    (l.find? fun e => e.1 == k).map (·.2) = l.dlookup k := by
  induction l with
  | nil => rfl
  | cons e l ih =>
    obtain ⟨k', v⟩ := e
    by_cases h : k' = k
    · subst h
      simp
    · rw [List.dlookup_cons_ne l ⟨k', v⟩ (Ne.symm h)]
      simp [List.find?_cons, h, ih]

/-- `for key, value := range m { if key == id ... }` is `m[id]`. -/
theorem rangeFind_eq_lookup {V : Type} (m : Option (GoMap V)) (id : Int64) :
    rangeFind m id = m.bind fun m => m.lookup id := by
  cases m with
  | none => rfl
  | some m => exact find?_key_eq_dlookup m.entries id

theorem peerRead_eq_peerOf {P : Type} (index : InputPeerCache → Option (GoMap Int64))
    (mk : Int64 → Int64 → InputPeer) (mk' : Int64 → Int64 → P) (g : P → InputPeer)
    (hg : ∀ a b, g (mk' a b) = mk a b) (noun : String) (c : Cache) (id : Int64) :
    peerRead index mk noun c id = (peerOf index mk' noun c id).map (Except.map g) := by
  unfold peerRead peerOf
  cases c.index with
  | error e => rfl
  | ok ip =>
    simp only [bind, Except.bind, pure, Except.pure, Except.map, rangeFind_eq_lookup]
    split <;> simp [hg]

/-- **The map reads agree with the range scans.** On every cache, `GetPeerUser(x)` returns
what `getUserPeer(x)` returns, as an `InputPeerUser`, and `GetPeerChannel(x)` what
`getChannelPeer(x)` returns: the same handle, the same error text when the index has
none (a nil map included), and the same panic when `InputPeers` is nil. -/
theorem getPeerUser_agrees_with_scan (c : Cache) (x : Int64) :
    getPeerUser c x = (getUserPeer c x).map (Except.map fun u => .user u.userID u.accessHash) ∧
      getPeerChannel c x = (getChannelPeer c x).map (Except.map fun u => .channel u.channelID u.accessHash) :=
  ⟨peerRead_eq_peerOf InputPeerCache.inputUsers InputPeer.user InputUserObj.mk _ (fun _ _ => rfl) "user" c x,
    peerRead_eq_peerOf InputPeerCache.inputChannels InputPeer.channel InputChannelObj.mk _ (fun _ _ => rfl)
      "channel" c x⟩

/-! ## Poles -/

/-- A server that knows nothing. -/
def emptyApi : Api := ⟨fun _ => .ok [], fun _ => .ok (.obj []), fun _ => .ok (.obj [])⟩

/-- With no record and no handle for chat 5, `GetChat` still calls `MessagesGetChats`. -/
theorem getChat_calls_without_handle :
    recordOf newCache.chats ChatObj.id 5 = none ∧
      (∀ ip, newCache.inputPeers = some ip → rangeFind ip.inputChats 5 = none) ∧
      getChatFromCache emptyApi newCache 5 =
        .ok ([.messagesGetChats [5]], .error ("no chat with id " ++ fmtInt 5 ++ " or missing from cache")) :=
  ⟨rfl, fun ip h => by cases h; rfl, rfl⟩

end Gogram.Telegram
