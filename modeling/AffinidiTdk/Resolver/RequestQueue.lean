/-
The requests that wait for the server (`affinidi-did-resolver-cache-sdk`, `networking/request_queue.rs`): for each DID
hash the channels of all that asked for it, with a count of the hashes and a flag that is up while there are too many.
-/
import AffinidiTdk.Lib.OrdMap

namespace AffinidiTdk.Resolver

open OrdMap

variable {K : Type} [LinearOrder K]

/-! ## The list -/

/-- The sending end of a oneshot channel is the client that waits at the other. -/
abbrev Responder := ℕ

/-- The requests on their way, by hash, each with the clients that wait for it. The counts are `u32` in the source:
`Counted.bounded` keeps `totalCount` from overflowing as long as the limit is below `u32::MAX`. -/
structure RequestList (K : Type) [LinearOrder K] where
  list : OrdMap K (List (String × Responder))
  listFull : Bool
  limitCount : ℕ
  totalCount : ℕ

namespace RequestList

def new (limitCount : ℕ) : RequestList K := ⟨OrdMap.empty, false, limitCount, 0⟩

/-- Whether the request is new, and the list with it. -/
def insert (cache : RequestList K) (key : K) (uid : String) (channel : Responder) : Bool × RequestList K :=
  match cache.list.get? key with
  | some element => (false, { cache with list := cache.list.insert key (element ++ [(uid, channel)]) })
  | none =>
    let totalCount := cache.totalCount + 1
    (true, { cache with
      list := cache.list.insert key [(uid, channel)]
      totalCount
      listFull := if totalCount > cache.limitCount then true else cache.listFull })

/-- The channel of one request, or all channels of a key, and the list without. -/
def remove (cache : RequestList K) (key : K) : Option String → Option (List Responder) × RequestList K
  | some uid =>
    match cache.list.get? key with
    | none => (none, cache)
    | some channels =>
      let response := (channels.find? fun entry => entry.1 = uid).map fun entry => [entry.2]
      let channels := channels.eraseP fun entry => entry.1 = uid
      if channels.isEmpty then
        (response, { cache with
          list := cache.list.erase key
          totalCount := cache.totalCount - 1
          listFull := false })
      else (response, { cache with list := cache.list.insert key channels })
  | none =>
    match cache.list.get? key with
    | some channels =>
      (some (channels.map Prod.snd), { cache with
        list := cache.list.erase key
        totalCount := cache.totalCount - 1
        listFull := false })
    | none => (none, cache)

def isFull (cache : RequestList K) : Bool := cache.listFull

/-! ## The count and the flag -/

/-- The count is the number of hashes; the flag is up while it is above the limit, by one at most. -/
structure Counted (cache : RequestList K) : Prop where
  total : cache.totalCount = cache.list.length
  full : cache.listFull = true ↔ cache.limitCount < cache.totalCount
  bounded : cache.totalCount ≤ cache.limitCount + 1

/-- How many of the channels are `c`'s. -/
def waiting (cache : RequestList K) (c : Responder) : ℕ :=
    cache.list.total fun channels => (channels.map Prod.snd).count c

theorem counted_new (limitCount : ℕ) : (new limitCount : RequestList K).Counted := 
  ⟨rfl, by simp [new], Nat.zero_le _⟩

variable {cache : RequestList K} {key : K} {uid : String} {channel : Responder}

/-! ## Inserting -/

theorem insert_new (h : cache.list.get? key = none) :
    cache.insert key uid channel = (true, { cache with
      list := cache.list.insert key [(uid, channel)]
      totalCount := cache.totalCount + 1
      listFull := if cache.totalCount + 1 > cache.limitCount then true else cache.listFull }) := by
  unfold insert
  rw [h]

theorem insert_pending {element : List (String × Responder)} (h : cache.list.get? key = some element) :
    cache.insert key uid channel =
      (false, { cache with list := cache.list.insert key (element ++ [(uid, channel)]) }) := by
  unfold insert
  rw [h]

theorem counted_insert (hcache : cache.Counted) (hnotFull : cache.isFull = false) :
    (cache.insert key uid channel).2.Counted := by
  have hfull : ¬cache.listFull = true := by
    show ¬cache.isFull = true
    rw [hnotFull]
    exact Bool.false_ne_true
  have hbound : cache.totalCount ≤ cache.limitCount := not_lt.1 fun hmore => hfull (hcache.full.2 hmore)
  cases hget : cache.list.get? key with
  | none =>
    rw [insert_new hget]
    constructor
    · show cache.totalCount + 1 = (cache.list.insert key [(uid, channel)]).length
      rw [length_insert, erase_eq_of_get?_none hget, hcache.total]
    · show (if cache.totalCount + 1 > cache.limitCount then true else cache.listFull) = true ↔ _
      by_cases hmore : cache.totalCount + 1 > cache.limitCount
      · rw [if_pos hmore]
        exact iff_of_true rfl hmore
      · rw [if_neg hmore]
        exact iff_of_false hfull hmore
    · exact Nat.succ_le_succ hbound
  | some element =>
    rw [insert_pending hget]
    refine ⟨?_, hcache.full, hcache.bounded⟩
    show cache.totalCount = (cache.list.insert key (element ++ [(uid, channel)])).length
    have hmem := get?_eq_some_iff.1 hget
    have hpos := length_pos hmem
    rw [length_insert, length_erase hmem, hcache.total]
    omega

theorem waiting_insert (c : Responder) :
    (cache.insert key uid channel).2.waiting c = cache.waiting c + if channel = c then 1 else 0 := by
  cases hget : cache.list.get? key with
  | none =>
    rw [insert_new hget]
    show (cache.list.insert key [(uid, channel)]).total _ = cache.list.total _ + _
    rw [total_insert, erase_eq_of_get?_none hget]
    simp [List.count_singleton]
  | some element =>
    rw [insert_pending hget]
    show (cache.list.insert key (element ++ [(uid, channel)])).total _ = cache.list.total _ + _
    have hmem := get?_eq_some_iff.1 hget
    have hle := le_total hmem fun channels => (channels.map Prod.snd).count c
    rw [total_insert, total_erase hmem]
    simp only [List.map_append, List.count_append, List.map_cons, List.map_nil, List.count_singleton,
      beq_iff_eq] at hle ⊢
    omega

/-! ## Removing -/

def erase (cache : RequestList K) (key : K) : RequestList K :=
  { cache with list := cache.list.erase key, totalCount := cache.totalCount - 1, listFull := false }

variable {channels : List (String × Responder)}

theorem counted_erase (hcache : cache.Counted) (hget : cache.list.get? key = some channels) :
    (cache.erase key).Counted := by
  have hbound := hcache.bounded
  constructor
  · show cache.totalCount - 1 = (cache.list.erase key).length
    rw [length_erase (get?_eq_some_iff.1 hget), hcache.total]
  · show false = true ↔ cache.limitCount < cache.totalCount - 1
    exact iff_of_false Bool.false_ne_true (by omega)
  · show cache.totalCount - 1 ≤ cache.limitCount + 1
    omega

theorem waiting_erase (hget : cache.list.get? key = some channels) (c : Responder) : (cache.erase key).waiting c +
    (channels.map Prod.snd).count c = cache.waiting c := by
  have hmem := get?_eq_some_iff.1 hget
  have hle := le_total hmem fun channels => (channels.map Prod.snd).count c
  show (cache.list.erase key).total _ + _ = cache.list.total _
  rw [total_erase hmem]
  omega

theorem remove_absent (h : cache.list.get? key = none) (uid : Option String) :
    cache.remove key uid = (none, cache) := by
  cases uid with
  | none | some uid => simp only [remove, h]

theorem remove_all (h : cache.list.get? key = some channels) : cache.remove key none =
    (some (channels.map Prod.snd), cache.erase key) := by
  simp only [remove, h]
  rfl

theorem remove_uid (h : cache.list.get? key = some channels) (uid : String) : cache.remove key (some uid) =
    ((channels.find? fun entry => entry.1 = uid).map fun entry => [entry.2],
    if (channels.eraseP fun entry => entry.1 = uid).isEmpty then cache.erase key else
    { cache with list := cache.list.insert key (channels.eraseP fun entry => entry.1 = uid) }) := by
  simp only [remove, h]
  split
  · rfl
  · rfl

theorem counted_remove_uid (hcache : cache.Counted) (uid : String) : (cache.remove key (some uid)).2.Counted := by
  cases hget : cache.list.get? key with
  | none =>
    rw [remove_absent hget]
    exact hcache
  | some channels =>
    rw [remove_uid hget]
    show (if _ then _ else _ : RequestList K).Counted
    split
    · exact counted_erase hcache hget
    · have hmem := get?_eq_some_iff.1 hget
      have hpos := length_pos hmem
      refine ⟨?_, hcache.full, hcache.bounded⟩
      show cache.totalCount = (cache.list.insert key _).length
      rw [length_insert, length_erase hmem, hcache.total]
      omega

theorem waiting_remove_uid (uid : String) (c : Responder) :
    (cache.remove key (some uid)).2.waiting c ≤ cache.waiting c := by
  cases hget : cache.list.get? key with
  | none => rw [remove_absent hget]
  | some channels =>
    rw [remove_uid hget]
    show (if _ then _ else _ : RequestList K).waiting c ≤ _
    split
    · exact Nat.le.intro (waiting_erase hget c)
    · have hmem := get?_eq_some_iff.1 hget
      have hle := le_total hmem fun channels => (channels.map Prod.snd).count c
      have hsub : ((channels.eraseP fun entry => entry.1 = uid).map Prod.snd).count c ≤
        (channels.map Prod.snd).count c :=
        (List.eraseP_sublist.map _).count_le c
      show (cache.list.insert key _).total _ ≤ cache.list.total _
      rw [total_insert, total_erase hmem]
      omega

end RequestList

end AffinidiTdk.Resolver
