/-
The cache of the live stream (`websockets/ws_cache.rs`): the messages that came in and were not asked for yet, by id
and in the order of their arrival, with a table from thread ids to ids, the requests that wait for a message, and
two counters with the latch that stops reading the socket. The counters have the widths of the code, and every
message counts with the same size: `size_of_val` measures the record, not what it points to.
-/
import AffinidiTdk.Didcomm.Envelope

namespace AffinidiTdk.LiveStream

open List Option OrdMap Nat
open Didcomm (Message)

/-! ## The cache -/

/-- The cache with its tables of threads and of who waits for what. -/
structure MessageCache (Metadata Sender : Type) where
  messages : OrdMap String (Message × Metadata) := .empty
  thidLookup : OrdMap String String := .empty
  wantedList : OrdMap String Sender := .empty
  orderedList : List String := []
  totalCount : UInt32 := 0
  totalBytes : UInt64 := 0
  cacheFull : Bool := false
  fetchCacheLimitCount : UInt32
  fetchCacheLimitBytes : UInt64
  nextFlag : Bool := false

/-- The thread id that the cache files a message under: a problem report has a parent's only. -/
def threadOf (message : Message) : Option String := message.thid.or message.pthid

namespace MessageCache

variable {Metadata Sender : Type} (messageSize : UInt64)

/-- One of the two limits is passed. -/
def overLimit (cache : MessageCache Metadata Sender) : Bool :=
  decide (cache.fetchCacheLimitCount < cache.totalCount) || decide (cache.fetchCacheLimitBytes < cache.totalBytes)

def isFull (cache : MessageCache Metadata Sender) : Bool := cache.cacheFull

/-- The latch is set when a limit is passed, and reset when none is any more. -/
def latchFull (cache : MessageCache Metadata Sender) : MessageCache Metadata Sender :=
  if cache.overLimit then { cache with cacheFull := true } else cache

def resetFull (cache : MessageCache Metadata Sender) : MessageCache Metadata Sender :=
  if cache.cacheFull && !cache.overLimit then { cache with cacheFull := false } else cache

def insert (message : Message) (metadata : Metadata) (cache : MessageCache Metadata Sender) :
    MessageCache Metadata Sender :=
  let cache := latchFull { cache with
    messages := cache.messages.insert message.id (message, metadata)
    orderedList := cache.orderedList ++ [message.id]
    totalCount := cache.totalCount + 1
    totalBytes := cache.totalBytes + messageSize }
  match threadOf message with
  | some thid => { cache with thidLookup := cache.thidLookup.insert thid message.id }
  | none => cache

/-- Take a message out of every table; a request that waits for its id goes too. -/
def remove (msgId : String) (cache : MessageCache Metadata Sender) :
    Option (Message × Metadata) × MessageCache Metadata Sender :=
  let cache := { cache with
    orderedList := cache.orderedList.erase msgId
    wantedList := cache.wantedList.erase msgId }
  match cache.messages.get? msgId with
  | none => (none, cache)
  | some (message, metadata) =>
    (some (message, metadata), resetFull { cache with
      messages := cache.messages.erase msgId
      thidLookup := (threadOf message).elim cache.thidLookup cache.thidLookup.erase
      totalCount := cache.totalCount - 1
      totalBytes := cache.totalBytes - messageSize })

def next (cache : MessageCache Metadata Sender) : Option (Message × Metadata) × MessageCache Metadata Sender :=
  match cache.orderedList with
  | [] => (none, { cache with nextFlag := true })
  | id :: rest => remove messageSize id { cache with orderedList := rest }

/-- The message with this id, else the one the thread table names. -/
def find (msgId : String) (cache : MessageCache Metadata Sender) : Option (Message × Metadata) :=
  match cache.messages.get? msgId with
  | some entry => some entry
  | none =>
    match cache.thidLookup.get? msgId with
    | some id => cache.messages.get? id
    | none => none

def get (msgId : String) (cache : MessageCache Metadata Sender) :
    Option (Message × Metadata) × MessageCache Metadata Sender :=
  match cache.find msgId with
  | some (message, metadata) => (some (message, metadata), (remove messageSize message.id cache).2)
  | none => (none, cache)

/-- The sender is handed back with the message, or kept until one comes in. -/
def getOrAddWanted (msgId : String) (sender : Sender) (cache : MessageCache Metadata Sender) :
    Option (Sender × Message × Metadata) × MessageCache Metadata Sender :=
  match get messageSize msgId cache with
  | (some (message, metadata), cache) => (some (sender, message, metadata), (remove messageSize message.id cache).2)
  | (none, cache) => (none, { cache with wantedList := cache.wantedList.insert msgId sender })

/-- The key under which a message is waited for: its thread, its parent thread, else its id. -/
def wantedKey (message : Message) (cache : MessageCache Metadata Sender) : String :=
  let wanted := fun id => (cache.wantedList.get? id).isSome
  ((message.thid.filter wanted).or (message.pthid.filter wanted)).getD message.id

def messageWanted (message : Message) (cache : MessageCache Metadata Sender) :
    Option Sender × MessageCache Metadata Sender :=
  let key := cache.wantedKey message
  (cache.wantedList.get? key, { cache with wantedList := cache.wantedList.erase key })

def drainWanted (cache : MessageCache Metadata Sender) : List Sender × MessageCache Metadata Sender :=
  (cache.wantedList.values, { cache with wantedList := .empty })

end MessageCache

/-! ## Histories -/

/-- The calls on a cache. -/
inductive CacheCall (Metadata Sender : Type)
  | insert (message : Message) (metadata : Metadata)
  | next
  | get (msgId : String)
  | getOrAddWanted (msgId : String) (sender : Sender)
  | messageWanted (message : Message)
  | remove (msgId : String)
  | drainWanted

section

variable {Metadata Sender : Type} (messageSize : UInt64)

open MessageCache

/-- The message a call hands out, and the cache after it. -/
def CacheCall.exec (cache : MessageCache Metadata Sender) :
    CacheCall Metadata Sender → Option (Message × Metadata) × MessageCache Metadata Sender
  | .insert message metadata => (none, MessageCache.insert messageSize message metadata cache)
  | .next => MessageCache.next messageSize cache
  | .get msgId => MessageCache.get messageSize msgId cache
  | .getOrAddWanted msgId sender =>
    let r := MessageCache.getOrAddWanted messageSize msgId sender cache
    (r.1.map Prod.snd, r.2)
  | .messageWanted message => (none, (MessageCache.messageWanted message cache).2)
  | .remove msgId => MessageCache.remove messageSize msgId cache
  | .drainWanted => (none, (MessageCache.drainWanted cache).2)

/-- A cache, and what came in and was not handed out yet, oldest first. -/
structure CacheHistory (Metadata Sender : Type) where
  cache : MessageCache Metadata Sender
  inbox : List (Message × Metadata)

def CacheHistory.fresh (limitCount : UInt32) (limitBytes : UInt64) : CacheHistory Metadata Sender :=
  ⟨{ fetchCacheLimitCount := limitCount, fetchCacheLimitBytes := limitBytes }, []⟩

def CacheHistory.step (h : CacheHistory Metadata Sender) (call : CacheCall Metadata Sender) :
    CacheHistory Metadata Sender :=
  let arrived := match call with
    | .insert message metadata => h.inbox ++ [(message, metadata)]
    | _ => h.inbox
  let handedOut := (call.exec messageSize h.cache).1
  ⟨(call.exec messageSize h.cache).2, arrived.filter fun entry => !handedOut.any fun out => out.1.id = entry.1.id⟩

def CacheHistory.run (h : CacheHistory Metadata Sender) (calls : List (CacheCall Metadata Sender)) :
    CacheHistory Metadata Sender :=
  calls.foldl (CacheHistory.step messageSize) h

/-- `next` as often as there are messages. -/
def MessageCache.takeAll : ℕ → MessageCache Metadata Sender → MessageCache Metadata Sender
  | 0, cache => cache
  | n + 1, cache => takeAll n (MessageCache.next messageSize cache).2

/-- A message is asked for by its id, its thread, or the parent thread of a message without a thread. -/
def AnswersTo (message : Message) (id : String) : Prop := message.id = id ∨ threadOf message = some id

/-- What the fields of the cache promise. -/
structure MessageCache.Sound (cache : MessageCache Metadata Sender) (inbox : List (Message × Metadata)) : Prop where
  count : cache.totalCount.toNat = cache.messages.length
  bytes : cache.totalBytes.toNat = cache.messages.length * messageSize.toNat
  listed : cache.orderedList.Perm cache.messages.keys
  nodup : cache.orderedList.Nodup
  order : cache.orderedList = inbox.map fun entry => entry.1.id
  full : cache.isFull = true ↔ cache.overLimit = true
  noUnderflow : ∀ id entry, cache.messages.get? id = some entry →
    1 ≤ cache.totalCount.toNat ∧ messageSize.toNat ≤ cache.totalBytes.toNat
  found : ∀ key entry id, cache.messages.get? key = some entry → AnswersTo entry.1 id →
    ((MessageCache.get messageSize id cache).1).isSome
  emptied : (takeAll messageSize cache.messages.length cache).messages = .empty ∧
    (takeAll messageSize cache.messages.length cache).isFull = false

/-! ## Tables and counters -/

/-- The tables hold what is in the inbox. -/
structure MessageCache.Listed (cache : MessageCache Metadata Sender) (inbox : List (Message × Metadata)) : Prop where
  nodup : (inbox.map fun entry => entry.1.id).Nodup
  ordered : cache.orderedList = inbox.map fun entry => entry.1.id
  cached : ∀ id entry, cache.messages.get? id = some entry ↔ entry ∈ inbox ∧ entry.1.id = id

/-- The tables hold what is in the inbox, and the counters count it. -/
structure MessageCache.Filed (cache : MessageCache Metadata Sender) (inbox : List (Message × Metadata)) : Prop
    extends cache.Listed inbox where
  count : cache.totalCount.toNat = inbox.length
  bytes : cache.totalBytes.toNat = inbox.length * messageSize.toNat
  full : cache.cacheFull = cache.overLimit

variable {messageSize} {cache : MessageCache Metadata Sender} {inbox : List (Message × Metadata)}

namespace MessageCache

theorem Listed.perm_entries (h : cache.Listed inbox) :
    cache.messages.entries.Perm (inbox.map fun entry => (entry.1.id, entry)) := by
  have hnodup : (inbox.map fun entry => (entry.1.id, entry)).Nodup :=
    List.Nodup.of_map Prod.fst (by simpa [List.map_map, Function.comp_def] using h.nodup)
  refine (perm_ext_iff_of_nodup cache.messages.entries_nodup hnodup).2 ?_
  rintro ⟨id, entry⟩
  rw [← get?_eq_some_iff, h.cached]
  constructor
  · rintro ⟨hentry, rfl⟩
    exact List.mem_map_of_mem hentry
  · intro hmem
    obtain ⟨entry', hentry, heq⟩ := List.mem_map.1 hmem
    obtain ⟨rfl, rfl⟩ := Prod.ext_iff.1 heq
    exact ⟨hentry, rfl⟩

theorem Listed.length_eq (h : cache.Listed inbox) : cache.messages.length = inbox.length := by
  have hlength := h.perm_entries.length_eq
  rwa [length_map] at hlength

theorem Listed.keys_perm (h : cache.Listed inbox) : cache.orderedList.Perm cache.messages.keys := by
  have hkeys := h.perm_entries.map Prod.fst
  rw [List.map_map] at hkeys
  rw [h.ordered]
  exact hkeys.symm

theorem Listed.withWanted (h : cache.Listed inbox) (wanted : OrdMap String Sender) (flag : Bool) :
    { cache with wantedList := wanted, nextFlag := flag }.Listed inbox :=
  ⟨h.nodup, h.ordered, h.cached⟩

theorem Filed.withWanted (h : cache.Filed messageSize inbox) (wanted : OrdMap String Sender) (flag : Bool) :
    { cache with wantedList := wanted, nextFlag := flag }.Filed messageSize inbox :=
  ⟨h.toListed.withWanted wanted flag, h.count, h.bytes, h.full⟩

theorem Listed.not_mem (h : cache.Listed inbox) {id : String} (hnone : cache.messages.get? id = none) :
    id ∉ cache.orderedList := by
  rw [h.ordered]
  intro hmem
  obtain ⟨entry, hentry, hid⟩ := List.mem_map.1 hmem
  rw [(h.cached id entry).2 ⟨hentry, hid⟩] at hnone
  cases hnone

theorem remove_absent {id : String} (hnone : cache.messages.get? id = none) (hlist : id ∉ cache.orderedList) :
    remove messageSize id cache = (none, { cache with wantedList := cache.wantedList.erase id }) := by
  unfold remove
  rw [erase_of_not_mem hlist]
  simp only [hnone]

theorem latchFull_eq (cache : MessageCache Metadata Sender) :
    latchFull cache = { cache with cacheFull := cache.cacheFull || cache.overLimit } := by
  unfold latchFull
  cases hover : cache.overLimit with
  | false => simp
  | true => simp

theorem resetFull_eq (cache : MessageCache Metadata Sender) :
    resetFull cache = { cache with cacheFull := cache.cacheFull && cache.overLimit } := by
  unfold resetFull
  cases hover : cache.overLimit with
  | false =>
    cases hfull : cache.cacheFull with
    | false =>
      rw [← hfull]
      simp
    | true => simp
  | true => simp

/-- A cache without one of its messages, before the latch is looked at. -/
def without (messageSize : UInt64) (id : String) (message : Message) (cache : MessageCache Metadata Sender) :
    MessageCache Metadata Sender :=
  { cache with
    messages := cache.messages.erase id
    thidLookup := (threadOf message).elim cache.thidLookup cache.thidLookup.erase
    wantedList := cache.wantedList.erase id
    orderedList := cache.orderedList.erase id
    totalCount := cache.totalCount - 1
    totalBytes := cache.totalBytes - messageSize }

theorem remove_present {id : String} {entry : Message × Metadata} (hentry : cache.messages.get? id = some entry) :
    remove messageSize id cache = (some entry, (without messageSize id entry.1 cache).resetFull) := by
  unfold remove
  simp only [hentry]
  rfl

theorem next_eq_remove {id : String} {rest : List String} (hlist : cache.orderedList = id :: rest)
    (hid : id ∉ rest) : next messageSize cache = remove messageSize id cache := by
  unfold next remove
  simp only [hlist, erase_of_not_mem hid, erase_cons_head]

/-! ## Taking out and putting in -/

theorem counters_sub {count : UInt32} {bytes : UInt64} {n : ℕ} (hcount : count.toNat = n + 1)
    (hbytes : bytes.toNat = (n + 1) * messageSize.toNat) :
    (count - 1).toNat = n ∧ (bytes - messageSize).toNat = n * messageSize.toNat := by
  have hone : (1 : UInt32) ≤ count := by
    rw [UInt32.le_iff_toNat_le, hcount]
    show 1 ≤ n + 1
    omega
  have hsize : messageSize ≤ bytes := by
    rw [UInt64.le_iff_toNat_le, hbytes, add_mul, one_mul]
    omega
  constructor
  · rw [UInt32.toNat_sub_of_le _ _ hone, hcount]
    rfl
  · rw [UInt64.toNat_sub_of_le _ _ hsize, hbytes, add_mul, one_mul]
    omega

theorem overLimit_iff {cache : MessageCache Metadata Sender} : cache.overLimit = true ↔
    cache.fetchCacheLimitCount.toNat < cache.totalCount.toNat ∨
    cache.fetchCacheLimitBytes.toNat < cache.totalBytes.toNat := by
  simp only [overLimit, Bool.or_eq_true, decide_eq_true_eq, UInt32.lt_iff_toNat_lt, UInt64.lt_iff_toNat_lt]

theorem Listed.map_filter (h : cache.Listed inbox) (id : String) :
    (inbox.filter fun other => !decide (id = other.1.id)).map (fun other => other.1.id) =
      (inbox.map fun other => other.1.id).erase id := by
  rw [h.nodup.erase_eq_filter, List.filter_map]
  congr 1
  refine filter_congr fun other _ => ?_
  by_cases heq : id = other.1.id
  · simp [heq]
  · simp [heq, Ne.symm heq]

theorem Listed.length_filter (h : cache.Listed inbox) {id : String} {entry : Message × Metadata}
    (hentry : cache.messages.get? id = some entry) :
    inbox.length = (inbox.filter fun other => !decide (id = other.1.id)).length + 1 := by
  obtain ⟨hmem, hid⟩ := (h.cached id entry).1 hentry
  have hcount := congrArg List.length (h.map_filter id)
  rw [length_map, length_erase_of_mem (List.mem_map.2 ⟨entry, hmem, hid⟩), length_map] at hcount
  have hpos : 0 < inbox.length := length_pos_of_mem hmem
  omega

theorem Listed.remove (h : cache.Listed inbox) {id : String} {entry : Message × Metadata}
    (hentry : cache.messages.get? id = some entry) :
    (remove messageSize id cache).2.Listed (inbox.filter fun other => !decide (id = other.1.id)) := by
  rw [remove_present hentry, resetFull_eq]
  refine ⟨?_, ?_, ?_⟩
  · rw [h.map_filter]
    exact h.nodup.erase id
  · show cache.orderedList.erase id = _
    rw [h.ordered, h.map_filter]
  · intro key other
    show (cache.messages.erase id).get? key = some other ↔ _
    rw [get?_erase, mem_filter]
    by_cases hkey : key = id
    · subst hkey
      rw [if_pos rfl]
      refine ⟨nofun, ?_⟩
      rintro ⟨⟨-, hne⟩, heq⟩
      simp [heq] at hne
    · rw [if_neg hkey, h.cached]
      constructor
      · rintro ⟨hother, rfl⟩
        exact ⟨⟨hother, by simpa using Ne.symm hkey⟩, rfl⟩
      · rintro ⟨⟨hother, -⟩, heq⟩
        exact ⟨hother, heq⟩

theorem Filed.remove (h : cache.Filed messageSize inbox) {id : String} {entry : Message × Metadata}
    (hentry : cache.messages.get? id = some entry) :
    (remove messageSize id cache).2.Filed messageSize (inbox.filter fun other => !decide (id = other.1.id)) := by
  have hlength := h.length_filter hentry
  obtain ⟨hcount, hbytes⟩ := counters_sub (h.count.trans hlength) (h.bytes.trans (by rw [hlength]))
  refine ⟨h.toListed.remove hentry, ?_, ?_, ?_⟩
  · rw [remove_present hentry, resetFull_eq]
    exact hcount
  · rw [remove_present hentry, resetFull_eq]
    exact hbytes
  · rw [remove_present hentry, resetFull_eq]
    show (cache.cacheFull && (without messageSize id entry.1 cache).overLimit) =
      (without messageSize id entry.1 cache).overLimit
    -- what is over a limit with one message less was over it before
    have hdown : (without messageSize id entry.1 cache).overLimit = true → cache.overLimit = true := by
      simp only [overLimit_iff]
      have hcount' : cache.totalCount.toNat = (without messageSize id entry.1 cache).totalCount.toNat + 1 := by
        rw [h.count, hlength]
        exact congrArg (· + 1) hcount.symm
      have hbytes' : (without messageSize id entry.1 cache).totalBytes.toNat ≤ cache.totalBytes.toNat := by
        rw [h.bytes, hlength]
        exact hbytes.le.trans (mul_le_mul_right _ (le_succ _))
      show cache.fetchCacheLimitCount.toNat < _ ∨ cache.fetchCacheLimitBytes.toNat < _ → _
      omega
    rw [h.full]
    cases hover : (without messageSize id entry.1 cache).overLimit with
    | false => exact Bool.and_false _
    | true =>
      rw [hdown hover]
      rfl

theorem insert_eq (message : Message) (metadata : Metadata) (cache : MessageCache Metadata Sender) :
    ∃ thids full, insert messageSize message metadata cache = { cache with
      messages := cache.messages.insert message.id (message, metadata)
      orderedList := cache.orderedList ++ [message.id]
      totalCount := cache.totalCount + 1
      totalBytes := cache.totalBytes + messageSize
      thidLookup := thids
      cacheFull := full } := by
  unfold insert
  rw [latchFull_eq]
  cases threadOf message with
  | none => exact ⟨_, _, rfl⟩
  | some thid => exact ⟨_, _, rfl⟩

theorem Listed.insert (h : cache.Listed inbox) {message : Message} (metadata : Metadata)
    (hnew : cache.messages.get? message.id = none) :
    (MessageCache.insert messageSize message metadata cache).Listed (inbox ++ [(message, metadata)]) := by
  have hfresh := h.not_mem hnew
  rw [h.ordered] at hfresh
  obtain ⟨thids, full, heq⟩ := @insert_eq _ _ messageSize message metadata cache
  rw [heq]
  refine ⟨?_, ?_, ?_⟩
  · rw [map_append]
    exact nodup_append.2 ⟨h.nodup, nodup_singleton _, fun a ha b hb heq => hfresh (by
      rw [map_singleton, mem_singleton] at hb
      exact hb ▸ heq ▸ ha)⟩
  · show cache.orderedList ++ [message.id] = _
    rw [h.ordered, map_append]
    rfl
  · intro key other
    show (cache.messages.insert message.id (message, metadata)).get? key = some other ↔ _
    rw [get?_insert, mem_append, mem_singleton]
    by_cases hkey : key = message.id
    · subst hkey
      rw [if_pos rfl, some_inj]
      constructor
      · rintro rfl
        exact ⟨.inr rfl, rfl⟩
      · rintro ⟨hother | rfl, hid⟩
        · exact absurd (List.mem_map.2 ⟨other, hother, hid⟩) hfresh
        · rfl
    · rw [if_neg hkey, h.cached]
      constructor
      · rintro ⟨hother, hid⟩
        exact ⟨.inl hother, hid⟩
      · rintro ⟨hother | rfl, hid⟩
        · exact ⟨hother, hid⟩
        · exact absurd hid.symm hkey

theorem Filed.insert (h : cache.Filed messageSize inbox) {message : Message} (metadata : Metadata)
    (hnew : cache.messages.get? message.id = none) (hcount : inbox.length + 1 < 2 ^ 32)
    (hbytes : (inbox.length + 1) * messageSize.toNat < 2 ^ 64) :
    (MessageCache.insert messageSize message metadata cache).Filed messageSize (inbox ++ [(message, metadata)]) := by
  have hcount' : (cache.totalCount + 1).toNat = inbox.length + 1 := by
    rw [UInt32.toNat_add, h.count]
    exact mod_eq_of_lt hcount
  have hbytes' : (cache.totalBytes + messageSize).toNat = (inbox.length + 1) * messageSize.toNat := by
    rw [UInt64.toNat_add, h.bytes, add_mul, one_mul] at *
    exact mod_eq_of_lt (by omega)
  -- what was over a limit stays over it
  have hup : cache.overLimit = true → cache.fetchCacheLimitCount.toNat < (cache.totalCount + 1).toNat ∨
      cache.fetchCacheLimitBytes.toNat < (cache.totalBytes + messageSize).toNat := by
    rw [overLimit_iff, h.count, h.bytes, hcount', hbytes', add_mul, one_mul]
    omega
  have hfull : (cache.cacheFull || decide (cache.fetchCacheLimitCount < cache.totalCount + 1) ||
      decide (cache.fetchCacheLimitBytes < cache.totalBytes + messageSize)) =
      (decide (cache.fetchCacheLimitCount < cache.totalCount + 1) ||
        decide (cache.fetchCacheLimitBytes < cache.totalBytes + messageSize)) := by
    rw [h.full, Bool.or_assoc]
    cases hover : cache.overLimit with
    | false => rfl
    | true =>
      have hafter := hup hover
      rw [← UInt32.lt_iff_toNat_lt, ← UInt64.lt_iff_toNat_lt] at hafter
      rw [Bool.true_or, eq_comm, Bool.or_eq_true, decide_eq_true_eq, decide_eq_true_eq]
      exact hafter
  refine ⟨h.toListed.insert metadata hnew, ?_, ?_, ?_⟩
  · rw [length_append, length_singleton, ← hcount']
    unfold MessageCache.insert
    rw [latchFull_eq]
    cases threadOf message <;> rfl
  · rw [length_append, length_singleton, ← hbytes']
    unfold MessageCache.insert
    rw [latchFull_eq]
    cases threadOf message <;> rfl
  · unfold MessageCache.insert
    rw [latchFull_eq]
    rw [Bool.or_assoc] at hfull
    cases threadOf message with
    | none => exact hfull
    | some thid => exact hfull

theorem Listed.find (h : cache.Listed inbox) {msgId : String} {entry : Message × Metadata}
    (hfind : cache.find msgId = some entry) : cache.messages.get? entry.1.id = some entry := by
  unfold MessageCache.find at hfind
  cases hmsg : cache.messages.get? msgId with
  | some other =>
    simp only [hmsg, some_inj] at hfind
    subst hfind
    obtain ⟨-, rfl⟩ := (h.cached _ _).1 hmsg
    exact hmsg
  | none =>
    simp only [hmsg] at hfind
    cases hthid : cache.thidLookup.get? msgId with
    | none => simp [hthid] at hfind
    | some id =>
      simp only [hthid] at hfind
      obtain ⟨-, rfl⟩ := (h.cached _ _).1 hfind
      exact hfind

theorem get_of_found {msgId : String} {entry : Message × Metadata} (hfind : cache.find msgId = some entry) :
    get messageSize msgId cache = (some entry, (MessageCache.remove messageSize entry.1.id cache).2) := by
  unfold get
  simp only [hfind]

theorem get_of_not_found {msgId : String} (hfind : cache.find msgId = none) :
    get messageSize msgId cache = (none, cache) := by
  unfold get
  simp only [hfind]

theorem getOrAddWanted_of_not_found {msgId : String} {sender : Sender} (hfind : cache.find msgId = none) :
    getOrAddWanted messageSize msgId sender cache =
      (none, { cache with wantedList := cache.wantedList.insert msgId sender }) := by
  unfold getOrAddWanted
  simp only [get_of_not_found hfind]

theorem Listed.getOrAddWanted_of_found (h : cache.Listed inbox) {msgId : String} (sender : Sender)
    {entry : Message × Metadata} (hfind : cache.find msgId = some entry) :
    getOrAddWanted messageSize msgId sender cache =
      (some (sender, entry), { (MessageCache.remove messageSize entry.1.id cache).2 with
        wantedList := (MessageCache.remove messageSize entry.1.id cache).2.wantedList.erase entry.1.id }) := by
  have hgone : (MessageCache.remove messageSize entry.1.id cache).2.messages.get? entry.1.id = none := by
    rw [remove_present (h.find hfind), resetFull_eq]
    show (cache.messages.erase entry.1.id).get? entry.1.id = none
    rw [get?_erase, if_pos rfl]
  have hsecond := @remove_absent _ _ messageSize _ _ hgone ((h.remove (h.find hfind)).not_mem hgone)
  unfold getOrAddWanted
  simp only [get_of_found hfind, hsecond]

theorem Filed.not_full (h : cache.Filed messageSize []) : cache.isFull = false := by
  show cache.cacheFull = false
  rw [h.full]
  refine Bool.eq_false_iff.2 fun hover => ?_
  have hlimits := overLimit_iff.1 hover
  rw [h.count, h.bytes, length_nil, zero_mul] at hlimits
  omega

theorem Filed.next (h : cache.Filed messageSize inbox) {entry : Message × Metadata}
    {rest : List (Message × Metadata)}
    (hinbox : inbox = entry :: rest) :
    (MessageCache.next messageSize cache).1 = some entry ∧
    (MessageCache.next messageSize cache).2.Filed messageSize rest := by
  subst hinbox
  have hnodup := nodup_cons.1 h.nodup
  have hentry := (h.cached entry.1.id entry).2 ⟨mem_cons_self, rfl⟩
  rw [next_eq_remove h.ordered hnodup.1]
  refine ⟨congrArg Prod.fst (remove_present hentry), ?_⟩
  have hfiled := h.remove hentry
  rwa [filter_cons_of_neg (by simp), filter_eq_self.2] at hfiled
  intro other hother
  have hne : entry.1.id ≠ other.1.id := fun heq => hnodup.1 (List.mem_map.2 ⟨other, hother, heq.symm⟩)
  simpa using hne

theorem Filed.takeAll (h : cache.Filed messageSize inbox) :
    (takeAll messageSize inbox.length cache).Filed messageSize [] := by
  induction inbox generalizing cache with
  | nil => exact h
  | cons entry rest ih => exact ih (h.next rfl).2

theorem Listed.messages_empty (h : cache.Listed []) : cache.messages = .empty := by
  refine ext_get? fun key => Option.ext fun entry => ?_
  rw [h.cached]
  simp [OrdMap.empty, OrdMap.get?]

end MessageCache

/-! ## What a call does -/

/-- The id of the message that a call would take out. -/
def CacheCall.target (cache : MessageCache Metadata Sender) : CacheCall Metadata Sender → Option String
  | .next => cache.orderedList.head?
  | .get msgId => (cache.find msgId).map fun entry => entry.1.id
  | .getOrAddWanted msgId _ => (cache.find msgId).map fun entry => entry.1.id
  | .remove msgId => some msgId
  | .insert _ _ => none
  | .messageWanted _ => none
  | .drainWanted => none

namespace MessageCache

theorem Listed.exec_cases (h : cache.Listed inbox) {call : CacheCall Metadata Sender}
    (hcall : ∀ message metadata, call ≠ .insert message metadata) :
    (∃ wanted flag, call.exec messageSize cache = (none, { cache with wantedList := wanted, nextFlag := flag })) ∨
    ∃ entry wanted, cache.messages.get? entry.1.id = some entry ∧ call.target cache = some entry.1.id ∧
      call.exec messageSize cache =
        (some entry, { (MessageCache.remove messageSize entry.1.id cache).2 with wantedList := wanted }) := by
  -- a call hands out one cached message, or leaves the cached ones alone
  cases call with
  | insert message metadata => exact absurd rfl (hcall message metadata)
  | next =>
    cases inbox with
    | nil =>
      left
      refine ⟨cache.wantedList, true, ?_⟩
      show MessageCache.next messageSize cache = _
      unfold MessageCache.next
      simp only [h.ordered, map_nil]
    | cons entry rest =>
      right
      have hentry := (h.cached entry.1.id entry).2 ⟨mem_cons_self, rfl⟩
      refine ⟨entry, (MessageCache.remove messageSize entry.1.id cache).2.wantedList, hentry, ?_, ?_⟩
      · show cache.orderedList.head? = _
        rw [h.ordered]
        rfl
      · show MessageCache.next messageSize cache = _
        rw [next_eq_remove h.ordered (nodup_cons.1 h.nodup).1, remove_present hentry]
  | get msgId =>
    show (∃ wanted flag, MessageCache.get messageSize msgId cache = _) ∨ ∃ entry wanted, _ ∧
      (cache.find msgId).map (fun entry => entry.1.id) = _ ∧ MessageCache.get messageSize msgId cache = _
    cases hfind : cache.find msgId with
    | none =>
      rw [get_of_not_found hfind]
      exact .inl ⟨cache.wantedList, cache.nextFlag, rfl⟩
    | some entry =>
      rw [get_of_found hfind]
      exact .inr ⟨entry, _, h.find hfind, rfl, rfl⟩
  | getOrAddWanted msgId sender =>
    show (∃ wanted flag, ((MessageCache.getOrAddWanted messageSize msgId sender cache).1.map Prod.snd,
        (MessageCache.getOrAddWanted messageSize msgId sender cache).2) = _) ∨ ∃ entry wanted, _ ∧
      (cache.find msgId).map (fun entry => entry.1.id) = _ ∧
      ((MessageCache.getOrAddWanted messageSize msgId sender cache).1.map Prod.snd,
        (MessageCache.getOrAddWanted messageSize msgId sender cache).2) = _
    cases hfind : cache.find msgId with
    | none =>
      rw [getOrAddWanted_of_not_found hfind]
      exact .inl ⟨_, cache.nextFlag, rfl⟩
    | some entry =>
      rw [h.getOrAddWanted_of_found sender hfind]
      exact .inr ⟨entry, _, h.find hfind, rfl, rfl⟩
  | messageWanted message => exact .inl ⟨_, cache.nextFlag, rfl⟩
  | remove msgId =>
    show (∃ wanted flag, MessageCache.remove messageSize msgId cache = _) ∨ ∃ entry wanted, _ ∧ some msgId = _ ∧
      MessageCache.remove messageSize msgId cache = _
    cases hmsg : cache.messages.get? msgId with
    | none =>
      rw [remove_absent hmsg (h.not_mem hmsg)]
      exact .inl ⟨_, cache.nextFlag, rfl⟩
    | some entry =>
      obtain ⟨-, rfl⟩ := (h.cached _ _).1 hmsg
      refine .inr ⟨entry, (MessageCache.remove messageSize entry.1.id cache).2.wantedList, hmsg, rfl, ?_⟩
      rw [remove_present hmsg]
  | drainWanted => exact .inl ⟨_, cache.nextFlag, rfl⟩

/-! ## Threads -/

/-- The thread table names cached messages of the thread, and every cached message that is not found by its thread
as an id has an entry there. -/
structure Threaded (cache : MessageCache Metadata Sender) : Prop where
  lookups : ∀ key id, cache.thidLookup.get? key = some id →
    ∃ entry, cache.messages.get? id = some entry ∧ threadOf entry.1 = some key
  threads : ∀ id entry key, cache.messages.get? id = some entry → threadOf entry.1 = some key →
    key = id ∨ (cache.thidLookup.get? key).isSome

/-- No other cached message needs the thread table's entry of this one's thread. -/
def Apart (cache : MessageCache Metadata Sender) (id : String) : Prop :=
  ∀ entry, cache.messages.get? id = some entry → ∀ id' other, cache.messages.get? id' = some other → id' ≠ id →
    ∀ key, threadOf entry.1 = some key → threadOf other.1 = some key → key = id'

theorem Threaded.remove (h : Threaded cache) {id : String} {entry : Message × Metadata}
    (hentry : cache.messages.get? id = some entry) (hapart : cache.Apart id) :
    Threaded (MessageCache.remove messageSize id cache).2 := by
  rw [remove_present hentry, resetFull_eq]
  constructor
  · intro key id' hlookup
    show ∃ other, (cache.messages.erase id).get? id' = some other ∧ _
    replace hlookup : ((threadOf entry.1).elim cache.thidLookup cache.thidLookup.erase).get? key = some id' :=
      hlookup
    have hold : cache.thidLookup.get? key = some id' ∧ threadOf entry.1 ≠ some key := by
      cases hthread : threadOf entry.1 with
      | none =>
        rw [hthread] at hlookup
        exact ⟨hlookup, nofun⟩
      | some thread =>
        rw [hthread] at hlookup
        replace hlookup : (cache.thidLookup.erase thread).get? key = some id' := hlookup
        rw [get?_erase] at hlookup
        by_cases hkey : key = thread
        · rw [if_pos hkey] at hlookup
          cases hlookup
        · rw [if_neg hkey] at hlookup
          exact ⟨hlookup, fun heq => hkey (some_inj.1 heq).symm⟩
    obtain ⟨other, hother, hthread⟩ := h.lookups key id' hold.1
    refine ⟨other, ?_, hthread⟩
    rw [get?_erase, if_neg]
    · exact hother
    · rintro rfl
      rw [hentry, some_inj] at hother
      exact hold.2 (hother ▸ hthread)
  · intro id' other key hother hthread
    show key = id' ∨ (((threadOf entry.1).elim cache.thidLookup cache.thidLookup.erase).get? key).isSome
    replace hother : (cache.messages.erase id).get? id' = some other := hother
    rw [get?_erase] at hother
    by_cases hid : id' = id
    · rw [if_pos hid] at hother
      cases hother
    · rw [if_neg hid] at hother
      rcases h.threads id' other key hother hthread with hkey | hkey
      · exact .inl hkey
      · cases hown : threadOf entry.1 with
        | none => exact .inr hkey
        | some thread =>
          by_cases heq : key = thread
          · left
            exact hapart entry hentry id' other hother hid key (hown.trans (congrArg some heq.symm)) hthread
          · right
            show ((cache.thidLookup.erase thread).get? key).isSome
            rwa [get?_erase, if_neg heq]

theorem Threaded.insert (h : Threaded cache) {message : Message} (metadata : Metadata)
    (hnew : cache.messages.get? message.id = none) :
    Threaded (MessageCache.insert messageSize message metadata cache) := by
  -- what was cached is cached under the same id
  have hkept : ∀ id entry, cache.messages.get? id = some entry →
      (cache.messages.insert message.id (message, metadata)).get? id = some entry := by
    intro id entry hentry
    rw [get?_insert, if_neg]
    · exact hentry
    · rintro rfl
      rw [hnew] at hentry
      cases hentry
  unfold MessageCache.insert
  rw [latchFull_eq]
  cases hthread : threadOf message with
  | none =>
    constructor
    · intro key id hlookup
      obtain ⟨entry, hentry, hkey⟩ := h.lookups key id hlookup
      exact ⟨entry, hkept id entry hentry, hkey⟩
    · intro id entry key hentry hkey
      replace hentry : (cache.messages.insert message.id (message, metadata)).get? id = some entry := hentry
      rw [get?_insert] at hentry
      by_cases hid : id = message.id
      · rw [if_pos hid, some_inj] at hentry
        rw [← hentry, hthread] at hkey
        cases hkey
      · rw [if_neg hid] at hentry
        exact h.threads id entry key hentry hkey
  | some thread =>
    constructor
    · intro key id hlookup
      show ∃ entry, (cache.messages.insert message.id (message, metadata)).get? id = some entry ∧ _
      replace hlookup : (cache.thidLookup.insert thread message.id).get? key = some id := hlookup
      rw [get?_insert] at hlookup
      by_cases hkey : key = thread
      · rw [if_pos hkey, some_inj] at hlookup
        subst hlookup
        refine ⟨(message, metadata), ?_, hthread.trans (congrArg some hkey.symm)⟩
        rw [get?_insert, if_pos rfl]
      · rw [if_neg hkey] at hlookup
        obtain ⟨entry, hentry, hown⟩ := h.lookups key id hlookup
        exact ⟨entry, hkept id entry hentry, hown⟩
    · intro id entry key hentry hkey
      show key = id ∨ ((cache.thidLookup.insert thread message.id).get? key).isSome
      replace hentry : (cache.messages.insert message.id (message, metadata)).get? id = some entry := hentry
      rw [get?_insert] at hentry ⊢
      by_cases heq : key = thread
      · rw [if_pos heq]
        exact .inr rfl
      · rw [if_neg heq]
        by_cases hid : id = message.id
        · rw [if_pos hid, some_inj] at hentry
          rw [← hentry, hthread] at hkey
          exact absurd (some_inj.1 hkey).symm heq
        · rw [if_neg hid] at hentry
          exact h.threads id entry key hentry hkey

theorem Threaded.find (h : Threaded cache) {key id : String} {entry : Message × Metadata}
    (hlisted : cache.Listed inbox) (hentry : cache.messages.get? key = some entry)
    (hanswers : AnswersTo entry.1 id) : (cache.find id).isSome := by
  obtain ⟨-, rfl⟩ := (hlisted.cached _ _).1 hentry
  unfold MessageCache.find
  cases hmsg : cache.messages.get? id with
  | some other => rfl
  | none =>
    have hthread : threadOf entry.1 = some id := by
      rcases hanswers with rfl | hthread
      · rw [hentry] at hmsg
        cases hmsg
      · exact hthread
    rcases h.threads _ entry id hentry hthread with rfl | hlookup
    · rw [hentry] at hmsg
      cases hmsg
    · obtain ⟨id', hid'⟩ := isSome_iff_exists.1 hlookup
      obtain ⟨other, hother, -⟩ := h.lookups id id' hid'
      simp only [hid', hother]
      rfl

theorem isSome_get {id : String} (hfind : (cache.find id).isSome) :
    ((MessageCache.get messageSize id cache).1).isSome := by
  obtain ⟨entry, hentry⟩ := isSome_iff_exists.1 hfind
  rw [get_of_found hentry]
  rfl

end MessageCache

/-! ## Runs -/

section

variable (messageSize)

/-- The branches that go wrong are not taken: no message comes in under the id of a cached one, the counters have
room, and no message leaves while another needs the entry of its thread. -/
structure CacheCall.Clear (cache : MessageCache Metadata Sender) (call : CacheCall Metadata Sender) : Prop where
  fresh : ∀ message metadata, call = .insert message metadata → cache.messages.get? message.id = none
  room : ∀ message metadata, call = .insert message metadata → cache.messages.length + 1 < 2 ^ 32 ∧
    (cache.messages.length + 1) * messageSize.toNat < 2 ^ 64
  apart : ∀ id, call.target cache = some id → cache.Apart id

/-- Every call of a run is clear. -/
def CacheHistory.ClearAlong (h : CacheHistory Metadata Sender) : List (CacheCall Metadata Sender) → Prop
  | [] => True
  | call :: calls => call.Clear messageSize h.cache ∧ (h.step messageSize call).ClearAlong calls

end

/-- The tables of a history hold its inbox. -/
structure CacheHistory.Kept (messageSize : UInt64) (h : CacheHistory Metadata Sender) : Prop where
  filed : h.cache.Filed messageSize h.inbox
  threaded : h.cache.Threaded

/-- A call that is clear keeps the tables in step with the messages. -/
theorem CacheHistory.Kept.step {h : CacheHistory Metadata Sender} (hkept : h.Kept messageSize)
    {call : CacheCall Metadata Sender} (hclear : call.Clear messageSize h.cache) :
    (h.step messageSize call).Kept messageSize := by
  obtain ⟨hfiled, hthreaded⟩ := hkept
  by_cases hcall : ∀ message metadata, call ≠ .insert message metadata
  · have harrived : (h.step messageSize call).inbox = h.inbox.filter fun entry =>
        !((call.exec messageSize h.cache).1).any fun out => decide (out.1.id = entry.1.id) := by
      cases call with
      | insert message metadata => exact absurd rfl (hcall message metadata)
      | next | get | getOrAddWanted | messageWanted | remove | drainWanted => rfl
    rcases hfiled.exec_cases hcall with ⟨wanted, flag, hexec⟩ | ⟨entry, wanted, hentry, htarget, hexec⟩
    · constructor
      · rw [harrived]
        show (call.exec messageSize h.cache).2.Filed messageSize _
        rw [hexec]
        simpa using hfiled.withWanted wanted flag
      · show (call.exec messageSize h.cache).2.Threaded
        rw [hexec]
        exact ⟨hthreaded.lookups, hthreaded.threads⟩
    · have hfiled' := hfiled.remove hentry
      have hthreaded' := @Threaded.remove _ _ messageSize _ hthreaded _ _ hentry (hclear.apart _ htarget)
      constructor
      · rw [harrived]
        show (call.exec messageSize h.cache).2.Filed messageSize _
        rw [hexec]
        exact hfiled'.withWanted wanted _
      · show (call.exec messageSize h.cache).2.Threaded
        rw [hexec]
        exact ⟨hthreaded'.lookups, hthreaded'.threads⟩
  · simp only [ne_eq, not_forall, not_not] at hcall
    obtain ⟨message, metadata, rfl⟩ := hcall
    have hnew := hclear.fresh message metadata rfl
    obtain ⟨hcount, hbytes⟩ := hclear.room message metadata rfl
    rw [hfiled.length_eq] at hcount hbytes
    constructor
    · show (MessageCache.insert messageSize message metadata h.cache).Filed messageSize
        ((h.inbox ++ [(message, metadata)]).filter fun _ => true)
      rw [filter_true]
      exact hfiled.insert metadata hnew hcount hbytes
    · exact hthreaded.insert metadata hnew

/-- So do the calls of a run. -/
theorem CacheHistory.Kept.run {h : CacheHistory Metadata Sender} (hkept : h.Kept messageSize)
    {calls : List (CacheCall Metadata Sender)} (hclear : h.ClearAlong messageSize calls) :
    (h.run messageSize calls).Kept messageSize := by
  induction calls generalizing h with
  | nil => exact hkept
  | cons call calls ih => exact ih (hkept.step hclear.1) hclear.2

theorem CacheHistory.kept_fresh (limitCount : UInt32) (limitBytes : UInt64) :
    (fresh limitCount limitBytes : CacheHistory Metadata Sender).Kept messageSize := by
  refine ⟨⟨⟨.nil, rfl, fun key entry => ?_⟩, rfl, ?_, ?_⟩, ⟨nofun, nofun⟩⟩
  · simp [fresh, OrdMap.empty, OrdMap.get?]
  · exact (zero_mul _).symm
  · refine (Bool.eq_false_iff.2 fun hover => ?_).symm
    rcases MessageCache.overLimit_iff.1 hover with hlimit | hlimit
    · exact absurd hlimit (not_lt_zero _)
    · exact absurd hlimit (not_lt_zero _)

/-- Tables kept in step give a sound cache. -/
theorem CacheHistory.Kept.sound {h : CacheHistory Metadata Sender} (hkept : h.Kept messageSize) :
    h.cache.Sound messageSize h.inbox := by
  obtain ⟨hfiled, hthreaded⟩ := hkept
  have hlength := hfiled.length_eq
  refine ⟨?_, ?_, hfiled.keys_perm, ?_, hfiled.ordered, ?_, ?_, ?_, ?_⟩
  · rw [hlength]
    exact hfiled.count
  · rw [hlength]
    exact hfiled.bytes
  · rw [hfiled.ordered]
    exact hfiled.nodup
  · show h.cache.cacheFull = true ↔ _
    rw [hfiled.full]
  · intro id entry hentry
    have hpos : 0 < h.inbox.length := length_pos_of_mem ((hfiled.cached id entry).1 hentry).1
    rw [hfiled.count, hfiled.bytes]
    exact ⟨hpos, Nat.le_mul_of_pos_left _ hpos⟩
  · intro key entry id hentry hanswers
    exact MessageCache.isSome_get (hthreaded.find hfiled.toListed hentry hanswers)
  · rw [hlength]
    exact ⟨hfiled.takeAll.messages_empty, hfiled.takeAll.not_full⟩

/-- In every clear run the fields of the cache mean what they say. -/
theorem run_sound (limitCount : UInt32) (limitBytes : UInt64) (calls : List (CacheCall Metadata Sender))
    (hclear : (CacheHistory.fresh limitCount limitBytes).ClearAlong messageSize calls) :
    (((CacheHistory.fresh limitCount limitBytes).run messageSize calls).cache).Sound messageSize
      ((CacheHistory.fresh limitCount limitBytes).run messageSize calls).inbox :=
  ((CacheHistory.kept_fresh limitCount limitBytes).run hclear).sound

end

/-! ## Three times the same message -/

def inThread (thid id : String) : Message := { id := id, typ := "note", body := .null, thid := some thid }

theorem clear_insert {cache : MessageCache Unit Unit} {message : Message}
    (hfresh : cache.messages.get? message.id = none) (hroom : cache.messages.length < 2) :
    (CacheCall.insert message () : CacheCall Unit Unit).Clear 8 cache := by
  refine ⟨?_, ?_, nofun⟩
  · rintro _ _ ⟨⟩
    exact hfresh
  · rintro _ _ ⟨⟩
    have hsize : (8 : UInt64).toNat = 8 := rfl
    rw [hsize]
    omega

theorem apart_of_entries {cache : MessageCache Unit Unit} {first second : Message}
    (hentries : cache.messages.entries = [(first.id, first, ()), (second.id, second, ())])
    (hthreads : threadOf first ≠ threadOf second) (id : String) : cache.Apart id := by
  intro entry hentry id' other hother hne key hkey hkey'
  rw [get?_eq_some_iff, hentries, mem_pair] at hentry hother
  rcases hentry with h | h <;> rcases hother with h' | h' <;> cases h <;> cases h'
  · exact absurd rfl hne
  · exact absurd (hkey.trans hkey'.symm) hthreads
  · exact absurd (hkey'.trans hkey.symm) hthreads
  · exact absurd rfl hne

/-- One of two messages is asked for by its thread and comes in again, then the other one is taken. -/
def twoThreads : List (CacheCall Unit Unit) :=
  [.insert (inThread "t" "a") (), .insert (inThread "u" "b") (), .get "u", .insert (inThread "u" "b") (), .next]

theorem two_threads_sound :
    ((CacheHistory.fresh 1 1000).run 8 twoThreads).cache.Sound 8 ((CacheHistory.fresh 1 1000).run 8 twoThreads).inbox ∧
      ((CacheHistory.fresh 1 1000).run 8 twoThreads).cache.orderedList = ["b"] := by
  have hthreads : threadOf (inThread "t" "a") ≠ threadOf (inThread "u" "b") := by decide
  refine ⟨run_sound 1 1000 twoThreads ⟨clear_insert rfl (by decide), clear_insert rfl (by decide), ?_,
    clear_insert rfl (by decide), ?_, trivial⟩, rfl⟩
  · exact ⟨nofun, nofun, fun id _ => apart_of_entries rfl hthreads id⟩
  · exact ⟨nofun, nofun, fun id _ => apart_of_entries rfl hthreads id⟩

/-- The same message comes in three times: once it is taken out the cache is empty, and full. With two messages of a
thread, the one that stays is not found by the thread any more. -/
theorem resent_drifts :
    (∃ calls, let h := (CacheHistory.fresh 1 1000 : CacheHistory Unit Unit).run 8 calls
      h.cache.messages.length = 0 ∧ h.cache.isFull = true) ∧
    (∃ calls, let h := (CacheHistory.fresh 10 1000 : CacheHistory Unit Unit).run 8 calls
      (h.cache.messages.get? "b").map Prod.fst = some (inThread "t" "b") ∧ (h.cache.get 8 "t").1 = none) ∧
    ¬ ∀ calls, (((CacheHistory.fresh 1 1000).run 8 calls).cache : MessageCache Unit Unit).Sound 8
      ((CacheHistory.fresh 1 1000).run 8 calls).inbox := by
  refine ⟨⟨[.insert (inThread "t" "a") (), .insert (inThread "t" "a") (), .insert (inThread "t" "a") (), .next], ?_⟩,
    ⟨[.insert (inThread "t" "a") (), .insert (inThread "t" "b") (), .next], ?_⟩, fun hsound => ?_⟩
  · decide +kernel
  · exact ⟨by rfl, by rfl⟩
  · have hcount := (hsound [.insert (inThread "t" "a") (), .insert (inThread "t" "a") ()]).count
    exact absurd hcount (by decide +kernel)

end AffinidiTdk.LiveStream
