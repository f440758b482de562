/-
Adding to an access list, in both in-process stores. The limit is held by cutting the request before the hashes
that are on the list already, or named twice, are dropped from it; what this costs is said exactly.
-/
import AffinidiTdk.Store.Fjall

namespace AffinidiTdk.Store

open List
open Acl Bytes

/-! ## The embedded store -/

namespace Fjall

/-- The partition of the access lists: a key is a DID's hash and a member's hash, the value is empty. -/
abbrev AccessLists := Partition Unit

def accessKey (didHash member : String) : List ℕ := ofString didHash ++ ofString member

/-- The keys that start with a DID's hash, in their order. -/
def ownKeys (lists : AccessLists) (didHash : String) : List (List ℕ) :=
  lists.keys.filter fun key => (ofString didHash).isPrefixOf key

/-- The members on a DID's list, as byte strings. -/
def accessMembers (lists : AccessLists) (didHash : String) : List (List ℕ) :=
  (ownKeys lists didHash).map fun key => key.drop (ofString didHash).length

def accessListCountInner (lists : AccessLists) (didHash : String) : ℕ := (ownKeys lists didHash).length

/-- One batch writes all keys; a key that is there is written over. -/
def accessListAdd (accessListLimit : ℕ) (didHash : String) (hashes : List String) (lists : AccessLists) :
    Except MediatorError MediatorAccessListAddResponse × AccessLists :=
  let current := accessListCountInner lists didHash
  let truncated := decide (current + hashes.length > accessListLimit)
  let toAdd := if truncated then hashes.take (accessListLimit - current) else hashes
  (.ok ⟨toAdd, truncated⟩, toAdd.foldl (fun lists h => lists.insert (accessKey didHash h) ()) lists)

end Fjall

/-! ## What an addition promises -/

section

variable {α : Type} [DecidableEq α]

/-- The promise: nothing is there twice, the list keeps what it had and has what is reported, it is as long as the
limit lets it be, and the addition is called truncated when something asked for is missing. -/
structure Honours (limit : ℕ) (before requested after reported : List α) (truncated : Bool) : Prop where
  nodup : after.Nodup
  kept : ∀ h ∈ before, h ∈ after
  size : after.length = min limit (before ++ requested).toFinset.card
  reported : ∀ h ∈ reported, h ∈ after
  truncated : truncated = true ↔ ∃ h ∈ requested, h ∉ after

/-- The request as it stands fits, or the part of it that fits has nothing twice and nothing that is on the list,
and the rest of it has something more. -/
def Fits (limit : ℕ) (before requested : List α) : Prop :=
  before.length + requested.length ≤ limit ∨
    (requested.take (limit - before.length)).Nodup ∧
    (∀ h ∈ requested.take (limit - before.length), h ∉ before) ∧
    ∃ h ∈ requested, h ∉ before ∧ h ∉ requested.take (limit - before.length)

/-- What is asked for and what is kept of it when the request is cut before it is looked at. -/
def cutRequest (limit : ℕ) (current : ℕ) (requested : List α) : List α :=
  if decide (current + requested.length > limit) then requested.take (limit - current) else requested

theorem length_of_members {before after added : List α} (hafter : after.Nodup)
    (hmem : ∀ h, h ∈ after ↔ h ∈ before ∨ h ∈ added) : after.length = (before ++ added).toFinset.card := by
  rw [← toFinset_card_of_nodup hafter]
  congr 1
  ext h
  simp [hmem]

theorem honours_cut_iff {limit : ℕ} {before requested after : List α} (hbefore : before.Nodup)
    (hlimit : before.length ≤ limit) (hafter : after.Nodup)
    (hmem : ∀ h, h ∈ after ↔ h ∈ before ∨ h ∈ cutRequest limit before.length requested) :
    Honours limit before requested after (cutRequest limit before.length requested)
      (decide (before.length + requested.length > limit)) ↔ Fits limit before requested := by
  have hlength := length_of_members hafter hmem
  by_cases hover : before.length + requested.length > limit
  · have hcut : cutRequest limit before.length requested = requested.take (limit - before.length) :=
      if_pos (decide_eq_true hover)
    have hshort : (requested.take (limit - before.length)).length = limit - before.length := by
      rw [length_take]
      omega
    rw [hcut] at hmem hlength ⊢
    rw [decide_eq_true hover]
    have hunion : (before ++ requested.take (limit - before.length)).toFinset.card =
        before.toFinset.card + (requested.take (limit - before.length)).toFinset.card -
          (before.toFinset ∩ (requested.take (limit - before.length)).toFinset).card := by
      rw [toFinset_append, Finset.card_union]
    have hcard := toFinset_card_of_nodup hbefore
    have htake := toFinset_card_le (requested.take (limit - before.length))
    have hinter := Finset.card_le_card (Finset.inter_subset_left :
      before.toFinset ∩ (requested.take (limit - before.length)).toFinset ⊆ before.toFinset)
    constructor
    · intro h
      obtain ⟨x, hx, hmissing⟩ := h.truncated.1 rfl
      rw [hmem, not_or] at hmissing
      -- something is missing, so the list is shorter than all together and as long as the limit
      have hlt : after.length < (before ++ requested).toFinset.card := by
        rw [hlength]
        refine Finset.card_lt_card (Finset.ssubset_iff_of_subset ?_ |>.2 ⟨x, by simp [hx], by simp [hmissing]⟩)
        intro y hy
        rw [mem_toFinset, mem_append] at hy ⊢
        exact hy.imp id mem_of_mem_take
      have hfull : after.length = limit := by
        have hsize := h.size
        omega
      have hnodup : (requested.take (limit - before.length)).toFinset.card =
          (requested.take (limit - before.length)).length := by omega
      have hdisjoint : (before.toFinset ∩ (requested.take (limit - before.length)).toFinset).card = 0 := by omega
      refine .inr ⟨?_, fun y hy hy' => ?_, x, hx, hmissing⟩
      · rw [card_toFinset] at hnodup
        exact dedup_eq_self.1 ((dedup_sublist _).eq_of_length hnodup)
      · rw [Finset.card_eq_zero, Finset.eq_empty_iff_forall_notMem] at hdisjoint
        exact hdisjoint y (by simp [hy, hy'])
    · rintro (hfits | ⟨hnodup, hnew, x, hx, hxb, hxt⟩)
      · omega
      · have htakeCard := toFinset_card_of_nodup hnodup
        have hdisjoint : (before.toFinset ∩ (requested.take (limit - before.length)).toFinset).card = 0 := by
          rw [Finset.card_eq_zero, Finset.eq_empty_iff_forall_notMem]
          intro y hy
          rw [Finset.mem_inter, mem_toFinset, mem_toFinset] at hy
          exact hnew y hy.2 hy.1
        have hfull : after.length = limit := by omega
        have hle : (before ++ requested.take (limit - before.length)).toFinset.card ≤
          (before ++ requested).toFinset.card := by
          refine Finset.card_le_card fun y hy => ?_
          rw [mem_toFinset, mem_append] at hy ⊢
          exact hy.imp id mem_of_mem_take
        exact ⟨hafter, fun h hh => (hmem h).2 (.inl hh), by omega, fun h hh => (hmem h).2 (.inr hh),
          iff_of_true rfl ⟨x, hx, fun hin => ((hmem x).1 hin).elim hxb hxt⟩⟩
  · have hcut : cutRequest limit before.length requested = requested :=
      if_neg (by simpa using hover)
    rw [hcut] at hmem hlength ⊢
    rw [decide_eq_false hover]
    refine iff_of_true ⟨hafter, fun h hh => (hmem h).2 (.inl hh), ?_, fun h hh => (hmem h).2 (.inr hh), ?_⟩
      (.inl (by omega))
    · have hle : (before ++ requested).toFinset.card ≤ (before ++ requested).length := toFinset_card_le _
      rw [length_append] at hle
      omega
    · refine iff_of_false Bool.false_ne_true ?_
      rintro ⟨h, hh, hnot⟩
      exact hnot ((hmem h).2 (.inr hh))

end

/-! ## The in-memory store -/

/-- The access list of a DID. -/
def MemoryState.accessListOf (st : MemoryState) (didHash : String) : List String := (st.accessLists didHash).getD []

theorem mem_pushNew {list hashes : List String} {h : String} : h ∈ pushNew list hashes ↔ h ∈ list ∨ h ∈ hashes := by
  induction hashes generalizing list with
  | nil => simp [pushNew]
  | cons x hashes ih =>
    rw [pushNew, ih]
    by_cases hx : list.any (· = x)
    · have hin : x ∈ list := by simpa using hx
      rw [if_pos hx, mem_cons]
      constructor
      · exact Or.imp id .inr
      · rintro (h | rfl | h)
        · exact .inl h
        · exact .inl hin
        · exact .inr h
    · rw [if_neg hx, mem_append, mem_singleton, mem_cons, or_assoc]

theorem pushNew_nodup {list : List String} (hlist : list.Nodup) (hashes : List String) :
    (pushNew list hashes).Nodup := by
  induction hashes generalizing list with
  | nil => exact hlist
  | cons x hashes ih =>
    rw [pushNew]
    by_cases hx : list.any (· = x)
    · rw [if_pos hx]
      exact ih hlist
    · rw [if_neg hx]
      have hnot : x ∉ list := by simpa using hx
      refine ih (nodup_append.2 ⟨hlist, nodup_singleton x, ?_⟩)
      rintro y hy z hz rfl
      exact hnot (mem_singleton.1 hz ▸ hy)

/-! ## The keys of the embedded store -/

namespace Fjall

theorem mem_accessMembers {lists : AccessLists} {didHash : String} {member : List ℕ} :
    member ∈ accessMembers lists didHash ↔ ofString didHash ++ member ∈ lists.keys := by
  simp only [accessMembers, ownKeys, mem_map, mem_filter, isPrefixOf_iff_prefix]
  constructor
  · rintro ⟨key, ⟨hkey, rest, rfl⟩, rfl⟩
    rwa [drop_left]
  · intro h
    exact ⟨_, ⟨h, prefix_append ..⟩, drop_left⟩

theorem accessMembers_nodup (lists : AccessLists) (didHash : String) : (accessMembers lists didHash).Nodup := by
  have hkeys : lists.keys.Nodup := pairwise_map.2 (lists.sorted.imp fun h => h.ne)
  refine List.Nodup.map_on ?_ (hkeys.filter _)
  rintro key hkey key' hkey' heq
  obtain ⟨rest, rfl⟩ := isPrefixOf_iff_prefix.1 (mem_filter.1 hkey).2
  obtain ⟨rest', rfl⟩ := isPrefixOf_iff_prefix.1 (mem_filter.1 hkey').2
  rw [drop_left, drop_left] at heq
  rw [heq]

theorem mem_accessMembers_add {lists : AccessLists} {didHash : String} {hashes : List String} {member : List ℕ} :
    member ∈ accessMembers (hashes.foldl (fun lists h => lists.insert (accessKey didHash h) ()) lists) didHash ↔
      member ∈ accessMembers lists didHash ∨ member ∈ hashes.map ofString := by
  induction hashes generalizing lists with
  | nil => simp
  | cons h hashes ih =>
    rw [foldl_cons, ih, mem_accessMembers, OrdMap.mem_keys_insert, ← mem_accessMembers, accessKey,
      append_cancel_left_eq, map_cons, mem_cons]
    exact ⟨fun h => h.elim (fun h => h.elim (fun h => .inr (.inl h)) .inl) fun h => .inr (.inr h),
      fun h => h.elim (fun h => .inl (.inr h)) fun h => h.elim (fun h => .inl (.inl h)) .inr⟩

end Fjall

theorem cutRequest_map {α β : Type} (f : α → β) (limit current : ℕ) (requested : List α) :
    cutRequest limit current (requested.map f) = (cutRequest limit current requested).map f := by
  unfold cutRequest
  rw [length_map]
  by_cases h : decide (current + requested.length > limit) = true
  · rw [if_pos h, if_pos h, map_take]
  · rw [if_neg h, if_neg h]

/-! ## The two stores -/

/-- In either store an addition to a list within its limit keeps the promise exactly when the request fits. -/
theorem accessListAdd_honours_iff {limit : ℕ} {didHash : String} (hashes : List String) {st : MemoryState}
    {lists : Fjall.AccessLists} (hnodup : (st.accessListOf didHash).Nodup)
    (hmemory : (st.accessListOf didHash).length ≤ limit)
      (hfjall : (Fjall.accessMembers lists didHash).length ≤ limit) :
    (∃ response, (accessListAdd limit didHash hashes st).1 = .ok response ∧
      (Honours limit (st.accessListOf didHash) hashes
        ((accessListAdd limit didHash hashes st).2.accessListOf didHash)
        response.didHashes response.truncated ↔ Fits limit (st.accessListOf didHash) hashes)) ∧
    ∃ response, (Fjall.accessListAdd limit didHash hashes lists).1 = .ok response ∧
      (Honours limit (Fjall.accessMembers lists didHash) (hashes.map ofString)
        (Fjall.accessMembers (Fjall.accessListAdd limit didHash hashes lists).2 didHash)
        (response.didHashes.map ofString) response.truncated ↔
          Fits limit (Fjall.accessMembers lists didHash) (hashes.map ofString)) := by
  constructor
  · refine ⟨_, rfl, ?_⟩
    have hafter : (accessListAdd limit didHash hashes st).2.accessListOf didHash =
        pushNew (st.accessListOf didHash) (cutRequest limit (st.accessListOf didHash).length hashes) := by
      simp [MemoryState.accessListOf, accessListAdd, cutRequest]
    rw [hafter]
    exact honours_cut_iff hnodup hmemory (pushNew_nodup hnodup _) fun h => mem_pushNew
  · refine ⟨_, rfl, ?_⟩
    have hcount : Fjall.accessListCountInner lists didHash = (Fjall.accessMembers lists didHash).length := by
      simp [Fjall.accessListCountInner, Fjall.accessMembers]
    have hreported : (if decide (Fjall.accessListCountInner lists didHash + hashes.length > limit) then
        hashes.take (limit - Fjall.accessListCountInner lists didHash) else hashes).map ofString =
        cutRequest limit (Fjall.accessMembers lists didHash).length (hashes.map ofString) := by
      rw [cutRequest_map, hcount]
      rfl
    have hmem : ∀ member, member ∈ Fjall.accessMembers (Fjall.accessListAdd limit didHash hashes lists).2 didHash ↔
        member ∈ Fjall.accessMembers lists didHash ∨
          member ∈ cutRequest limit (Fjall.accessMembers lists didHash).length (hashes.map ofString) := by
      intro member
      rw [← hreported]
      exact Fjall.mem_accessMembers_add
    have hiff := honours_cut_iff (Fjall.accessMembers_nodup lists didHash) hfjall
      (Fjall.accessMembers_nodup (Fjall.accessListAdd limit didHash hashes lists).2 didHash) hmem
    rw [← hreported, length_map, ← hcount] at hiff
    exact hiff

/-- A store in which one DID has another on its list. -/
def listedMemory : MemoryState :=
  { (default : MemoryState) with accessLists := fun did => if did = "did" then some ["alice"] else none }

def listedFjall : Fjall.AccessLists := OrdMap.empty.insert (Fjall.accessKey "did" "alice") ()

/-- One that is not on the list is added within the limit. -/
theorem bob_added :
    Honours 2 (listedMemory.accessListOf "did") ["bob"]
      ((accessListAdd 2 "did" ["bob"] listedMemory).2.accessListOf "did")
      ["bob"] false ∧
    Honours 2 (Fjall.accessMembers listedFjall "did") [ofString "bob"]
      (Fjall.accessMembers (Fjall.accessListAdd 2 "did" ["bob"] listedFjall).2 "did") [ofString "bob"] false := by
  obtain ⟨⟨response, hmemory, hiff⟩, response', hfjall, hiff'⟩ :=
    @accessListAdd_honours_iff 2 "did" ["bob"] listedMemory listedFjall (by decide) (by decide) (by decide +kernel)
  obtain rfl : response = ⟨["bob"], false⟩ := (Except.ok.inj hmemory).symm
  obtain rfl : response' = ⟨["bob"], false⟩ := Except.ok.inj (hfjall.symm.trans (by decide +kernel))
  exact ⟨hiff.2 (.inl (by decide)), hiff'.2 (.inl (by decide +kernel))⟩

/-- Asking for one on the list and one who is not: there is room for the new one, and it is not added. -/
theorem bob_left_out :
    ((accessListAdd 2 "did" ["alice", "bob"] listedMemory).1 = .ok ⟨["alice"], true⟩ ∧
      ¬ Honours 2 (listedMemory.accessListOf "did") ["alice", "bob"]
        ((accessListAdd 2 "did" ["alice", "bob"] listedMemory).2.accessListOf "did") ["alice"] true) ∧
    (Fjall.accessListAdd 2 "did" ["alice", "bob"] listedFjall).1 = .ok ⟨["alice"], true⟩ ∧
      ¬ Honours 2 (Fjall.accessMembers listedFjall "did") [ofString "alice", ofString "bob"]
        (Fjall.accessMembers (Fjall.accessListAdd 2 "did" ["alice", "bob"] listedFjall).2 "did")
        [ofString "alice"] true := by
  refine ⟨⟨by decide +kernel, fun h => ?_⟩, by decide +kernel, fun h => ?_⟩
  · exact absurd h.size (by decide +kernel)
  · exact absurd h.size (by decide +kernel)

end AffinidiTdk.Store
