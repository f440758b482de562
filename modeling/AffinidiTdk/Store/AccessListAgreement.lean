/-
Access lists in the two in-process stores. The in-memory store keeps a list of members for each DID, the embedded
one a key for each member; the two always hold the same, and the counts of a removal differ where it names a member
twice.
-/
import AffinidiTdk.Lib.Paging
import AffinidiTdk.Store.AccessLists
import AffinidiTdk.Store.FjallFolders
import AffinidiTdk.Store.Frame

namespace AffinidiTdk.Store

open Acl Bytes Paging List MemoryState OrdMap

/-! ## The embedded store -/

namespace Fjall

def setDidAcl (didHash : String) (acls : MediatorACLSet) : FjallOp MediatorACLSet := fun st =>
  let record := (st.accounts.get? (ofString didHash)).getD default
  (.ok acls, { st with accounts := st.accounts.insert (ofString didHash) { record with acls := acls.toU64 } })

def accessListContains (lists : AccessLists) (didHash member : String) : Bool :=
  (lists.get? (accessKey didHash member)).isSome

/-- The members are looked up before the batch takes any of them out. -/
def accessListRemove (didHash : String) (hashes : List String) (lists : AccessLists) :
    Except MediatorError ℕ × AccessLists :=
  let present := hashes.filter fun h => accessListContains lists didHash h
  (.ok present.length, present.foldl (fun lists h => lists.erase (accessKey didHash h)) lists)

def accessListClear (didHash : String) (lists : AccessLists) : Except MediatorError Unit × AccessLists :=
  (.ok (), (ownKeys lists didHash).foldl (fun lists key => lists.erase key) lists)

def accessListGet (didHash : String) (hashes : List String) (lists : AccessLists) :
    Except MediatorError (List String) :=
  .ok (hashes.filter fun h => accessListContains lists didHash h)

/-- The scan of `access_list_list`: `seen` keys are behind it, and there may be more after the page. -/
def accessListScan (prefixLen cursor : ℕ) : List (List ℕ) → ℕ → List String → List String × Bool
  | [], _, entries => (entries, false)
  | key :: rest, seen, entries =>
    if seen < cursor then accessListScan prefixLen cursor rest (seen + 1) entries
    else if entries.length ≥ 100 then (entries, true)
    else if key.length ≤ prefixLen then accessListScan prefixLen cursor rest seen entries
    else accessListScan prefixLen cursor rest (seen + 1) (entries ++ [stringOf (key.drop prefixLen)])

def accessListList (didHash : String) (cursor : ℕ) (lists : AccessLists) :
    Except MediatorError MediatorAccessListListResponse :=
  let (entries, moreAfter) := accessListScan (ofString didHash).length cursor (ownKeys lists didHash) 0 []
  .ok ⟨entries, if moreAfter then some (cursor + entries.length) else none⟩

/-- The embedded store with its access lists. -/
structure FjallStore where
  store : FjallState
  lists : AccessLists

def accessListAllowed (s : FjallStore) (toHash : String) (fromHash : Option String) : Bool :=
  match s.store.accounts.get? (ofString toHash) with
  | none => false
  | some account =>
    let sender := match fromHash with
      | some sender => .known (accessListContains s.lists toHash sender)
      | none => .anonymous
    senderAllowed (.fromU64 account.acls) sender

/-- Refuses the protected roles; then blocks the account, drops its outbox, purges its inbox and
forgets it. -/
def accountRemove (didHash : String) (s : FjallStore) : Except MediatorError Bool × FjallStore :=
  match (s.store.accounts.get? (ofString didHash)).map StoredAccount.role with
  | some .mediator | some .rootAdmin =>
    (.error (.internalError 18 "fjall" "Cannot remove the mediator or root admin account"), s)
  | _ =>
    let st := (setDidAcl didHash ((default : MediatorACLSet).setBlocked true) s.store).2
    let st := (deleteFolderStream didHash .outbox st).2
    let st := (purgeFolder didHash .inbox st).2
    (.ok true, ⟨{ st with accounts := st.accounts.erase (ofString didHash) },
      (ownKeys s.lists didHash).foldl (fun lists key => lists.erase key) s.lists⟩)

end Fjall

/-! ## Calls -/

/-- The calls that touch accounts and access lists. -/
inductive AccessOp
  | accountAdd (didHash : String) (acls : MediatorACLSet) (queueLimit : Option ℕ)
  | setDidAcl (didHash : String) (acls : MediatorACLSet)
  | accessListAdd (accessListLimit : ℕ) (didHash : String) (hashes : List String)
  | accessListRemove (didHash : String) (hashes : List String)
  | accessListClear (didHash : String)
  | accountRemove (didHash : String)

/-- What a call returns. -/
inductive AccessReply
  | account (account : Account)
  | acls (acls : MediatorACLSet)
  | added (response : MediatorAccessListAddResponse)
  | removed (count : ℕ)
  | cleared
  | accountRemoved (removed : Bool)
  deriving DecidableEq

namespace AccessOp

/-- The hash of every DID has `n` bytes, and no member is the empty text. -/
def WellFormed (n : ℕ) : AccessOp → Prop
  | accountAdd didHash _ _ | setDidAcl didHash _ | accessListClear didHash | accountRemove didHash =>
    (ofString didHash).length = n
  | accessListAdd _ didHash hashes | accessListRemove didHash hashes =>
    (ofString didHash).length = n ∧ ∀ h ∈ hashes, h ≠ ""

end AccessOp

def MemoryState.access (op : AccessOp) (st : MemoryState) : Except MediatorError AccessReply × MemoryState :=
  match op with
  | .accountAdd didHash acls queueLimit => (accountAdd didHash acls queueLimit st).map (Except.map .account) id
  | .setDidAcl didHash acls => (setDidAcl didHash acls st).map (Except.map .acls) id
  | .accessListAdd limit didHash hashes => (accessListAdd limit didHash hashes st).map (Except.map .added) id
  | .accessListRemove didHash hashes => (accessListRemove didHash hashes st).map (Except.map .removed) id
  | .accessListClear didHash => (accessListClear didHash st).map (Except.map fun _ => .cleared) id
  | .accountRemove didHash => (accountRemove didHash st).map (Except.map .accountRemoved) id

def Fjall.FjallStore.access (op : AccessOp) (s : FjallStore) : Except MediatorError AccessReply × FjallStore :=
  match op with
  | .accountAdd didHash acls queueLimit =>
    (accountAdd didHash acls queueLimit s.store).map (Except.map .account) fun st => { s with store := st }
  | .setDidAcl didHash acls =>
      (setDidAcl didHash acls s.store).map (Except.map .acls) fun st => { s with store := st }
  | .accessListAdd limit didHash hashes =>
    (accessListAdd limit didHash hashes s.lists).map (Except.map .added) fun lists => { s with lists }
  | .accessListRemove didHash hashes =>
    (accessListRemove didHash hashes s.lists).map (Except.map .removed) fun lists => { s with lists }
  | .accessListClear didHash =>
    (accessListClear didHash s.lists).map (Except.map fun _ => .cleared) fun lists => { s with lists }
  | .accountRemove didHash => (accountRemove didHash s).map (Except.map .accountRemoved) id

/-- The two stores side by side. -/
structure Both where
  memory : MemoryState
  fjall : Fjall.FjallStore

namespace Both

def after (b : Both) (op : AccessOp) : Both := ⟨(b.memory.access op).2, (b.fjall.access op).2⟩

/-- Two stores with nothing in them. -/
def fresh : Both := ⟨default, default, .empty⟩

/-! ## Agreement -/

/-- A page with the position to go on from, as a reader takes it. -/
def listed (response : Except MediatorError MediatorAccessListListResponse) : List String × Option ℕ :=
  match response with
  | .ok response => (response.didHashes, response.cursor)
  | .error _ => ([], none)

/-- Reading page after page shows the members, each of them once. -/
def ShowsMembers (page : ℕ → List String × Option ℕ) (member : String → Prop) : Prop :=
  ∃ shown, Reads page 0 shown ∧ shown.Nodup ∧ ∀ h, h ∈ shown ↔ member h

/-- The stores answer alike about the access list of every DID with a hash of `n` bytes. -/
structure Agree (n : ℕ) (b : Both) : Prop where
  get : ∀ didHash hashes, (ofString didHash).length = n →
    (accessListGet didHash hashes b.memory).1 = Fjall.accessListGet didHash hashes b.fjall.lists
  allowed : ∀ toHash fromHash, (ofString toHash).length = n →
    accessListAllowed b.memory toHash fromHash = Fjall.accessListAllowed b.fjall toHash fromHash
  memoryPages : ∀ didHash, (ofString didHash).length = n →
    ShowsMembers (fun cursor => listed (accessListList didHash cursor b.memory).1)
      fun h => (accessListGet didHash [h] b.memory).1 = .ok [h]
  fjallPages : ∀ didHash, (ofString didHash).length = n →
    ShowsMembers (fun cursor => listed (Fjall.accessListList didHash cursor b.fjall.lists))
      fun h => (accessListGet didHash [h] b.memory).1 = .ok [h]

/-- The stores agree in every state of the run, and every call returns the same in both. -/
def AgreeThroughout (n : ℕ) : List AccessOp → Both → Prop
  | [], b => Agree n b
  | op :: ops, b =>
    Agree n b ∧ (b.memory.access op).1 = (b.fjall.access op).1 ∧ AgreeThroughout n ops (b.after op)

/-- A removal names none of the members that are on the list more than once. -/
def NamesOnce (b : Both) : AccessOp → Prop
  | .accessListRemove didHash hashes => ∀ h ∈ b.memory.accessListOf didHash, hashes.count h ≤ 1
  | _ => True

def NameOnceThroughout : List AccessOp → Both → Prop
  | [], _ => True
  | op :: ops, b => NamesOnce b op ∧ NameOnceThroughout ops (b.after op)

end Both

/-! ## Correspondence -/

/-- What an account has to do with access lists. -/
def AccountRecord.grants (record : AccountRecord) : MediatorACLSet × AccountType := (record.acls, record.role)

def Fjall.StoredAccount.grants (record : Fjall.StoredAccount) : MediatorACLSet × AccountType :=
  (.fromU64 record.acls, record.role)

/-- The accounts are the same as far as access lists go, all of them standard ones. -/
structure SameAccounts (memory : MemoryState) (fjall : Fjall.FjallState) : Prop where
  grants : ∀ didHash, (memory.accounts didHash).map AccountRecord.grants =
    (fjall.accounts.get? (ofString didHash)).map Fjall.StoredAccount.grants
  standard : ∀ didHash record, memory.accounts didHash = some record → record.role = .standard

/-- The lists have the same members, and the keys are made of the hash of a DID, `n` bytes long, and a member. -/
structure SameLists (n : ℕ) (memory : MemoryState) (lists : Fjall.AccessLists) : Prop where
  nodup : ∀ didHash, (memory.accessListOf didHash).Nodup
  named : ∀ didHash, "" ∉ memory.accessListOf didHash
  keyed : ∀ key ∈ lists.keys, ∃ didHash h, (ofString didHash).length = n ∧ key = Fjall.accessKey didHash h
  members : ∀ didHash h, (ofString didHash).length = n →
    (Fjall.accessKey didHash h ∈ lists.keys ↔ h ∈ memory.accessListOf didHash)

section Lists

variable {n : ℕ} {memory : MemoryState} {lists : Fjall.AccessLists} {didHash did h : String}

open Fjall

theorem accessKey_inj (hlength : (ofString didHash).length = (ofString did).length) {h h' : String}
    (heq : accessKey didHash h = accessKey did h') : didHash = did ∧ h = h' := by
  obtain ⟨hdid, hmember⟩ := append_inj heq hlength
  exact ⟨ofString_injective hdid, ofString_injective hmember⟩

theorem accessListContains_iff : accessListContains lists didHash h = true ↔ accessKey didHash h ∈ lists.keys := by
  rw [accessListContains, Option.isSome_iff_exists, OrdMap.mem_keys]
  simp only [get?_eq_some_iff]

section

variable (hsame : SameLists n memory lists) (hdid : (ofString didHash).length = n)
include hsame hdid

theorem SameLists.contains (h : String) :
    accessListContains lists didHash h = (memory.accessListOf didHash).any (· = h) := by
  rw [Bool.eq_iff_iff, accessListContains_iff, hsame.members didHash h hdid]
  simp

theorem SameLists.accessMembers_perm : (accessMembers lists didHash).Perm
    ((memory.accessListOf didHash).map ofString) := by
  refine (perm_ext_iff_of_nodup (accessMembers_nodup lists didHash)
    ((hsame.nodup didHash).map ofString_injective)).2 fun member => ?_
  rw [mem_accessMembers, mem_map]
  constructor
  · intro hkey
    obtain ⟨did, h, hlength, heq⟩ := hsame.keyed _ hkey
    obtain ⟨hdids, hmember⟩ := append_inj heq (hdid.trans hlength.symm)
    obtain rfl := ofString_injective hdids
    refine ⟨h, (hsame.members didHash h hdid).1 ?_, hmember.symm⟩
    rwa [heq] at hkey
  · rintro ⟨h, hh, rfl⟩
    exact (hsame.members didHash h hdid).2 hh

theorem SameLists.count : accessListCountInner lists didHash = (memory.accessListOf didHash).length := by
  have hlength := (hsame.accessMembers_perm hdid).length_eq
  rw [length_map, accessMembers, length_map] at hlength
  exact hlength

end

variable {key : List ℕ}

theorem SameLists.mem_ownKeys (hsame : SameLists n memory lists) (hdid : (ofString didHash).length = n) :
    key ∈ ownKeys lists didHash ↔ ∃ h ∈ memory.accessListOf didHash, key = accessKey didHash h := by
  rw [ownKeys, mem_filter, isPrefixOf_iff_prefix]
  constructor
  · rintro ⟨hkey, rest, rfl⟩
    have hrest := (hsame.accessMembers_perm hdid).mem_iff.1 (mem_accessMembers.2 hkey)
    obtain ⟨h, hh, rfl⟩ := mem_map.1 hrest
    exact ⟨h, hh, rfl⟩
  · rintro ⟨h, hh, rfl⟩
    exact ⟨(hsame.members didHash h hdid).2 hh, prefix_append ..⟩

/-! ## Changes of a list -/

variable {memory' : MemoryState}

theorem SameLists.update (hsame : SameLists n memory lists) (hdid : (ofString didHash).length = n)
    {lists' : AccessLists} (list : List String)
    (hmemory : ∀ k, memory'.accessListOf k = if k = didHash then list else memory.accessListOf k)
    (hnodup : list.Nodup) (hnamed : "" ∉ list)
    (hkeys : ∀ key, key ∈ lists'.keys ↔ (key ∈ lists.keys ∧ ∀ h, key ≠ accessKey didHash h) ∨ ∃ h ∈ list, key =
    accessKey didHash h) : SameLists n memory' lists' := by
  refine ⟨fun k => ?_, fun k => ?_, fun key hkey => ?_, fun did h hlength => ?_⟩
  · rw [hmemory]
    split_ifs with hk
    · exact hnodup
    · exact hsame.nodup k
  · rw [hmemory]
    split_ifs with hk
    · exact hnamed
    · exact hsame.named k
  · rcases (hkeys key).1 hkey with ⟨hold, -⟩ | ⟨h, -, rfl⟩
    · exact hsame.keyed key hold
    · exact ⟨didHash, h, hdid, rfl⟩
  · rw [hkeys, hmemory]
    split_ifs with hk
    · subst hk
      constructor
      · rintro (⟨-, hne⟩ | ⟨h', hh', heq⟩)
        · exact absurd rfl (hne h)
        · obtain ⟨-, rfl⟩ := accessKey_inj rfl heq
          exact hh'
      · exact fun hh => .inr ⟨h, hh, rfl⟩
    · rw [← hsame.members did h hlength]
      have hother : ∀ h', accessKey did h ≠ accessKey didHash h' := fun h' heq =>
        hk (accessKey_inj (hlength.trans hdid.symm) heq).1
      constructor
      · rintro (⟨hold, -⟩ | ⟨h', -, heq⟩)
        · exact hold
        · exact absurd heq (hother h')
      · exact fun hold => .inl ⟨hold, hother⟩

theorem accessListOf_update (memory : MemoryState) (didHash : String) (x : Option (List String)) (k : String) :
    ({ memory with accessLists := Function.update memory.accessLists didHash x } : MemoryState).accessListOf k =
      if k = didHash then x.getD [] else memory.accessListOf k := by
  unfold accessListOf
  by_cases hk : k = didHash
  · rw [if_pos hk, hk]
    exact congrArg (Option.getD · []) (Function.update_self ..)
  · rw [if_neg hk]
    exact congrArg (Option.getD · []) (Function.update_of_ne hk ..)

variable {hashes : List String}

theorem mem_keys_foldl_insert :
    key ∈ (hashes.foldl (fun lists h => lists.insert (accessKey didHash h) ()) lists).keys ↔ key ∈ lists.keys ∨
    ∃ h ∈ hashes, key = accessKey didHash h := by
  induction hashes generalizing lists with
  | nil => simp
  | cons h hashes ih =>
    rw [foldl_cons, ih, mem_keys_insert]
    simp only [mem_cons, exists_eq_or_imp]
    rw [or_comm (a := key = accessKey didHash h), or_assoc]

theorem mem_keys_foldl_erase {keys : List (List ℕ)} :
    key ∈ (keys.foldl (fun lists key => lists.erase key) lists).keys ↔ key ∈ lists.keys ∧ key ∉ keys := by
  rw [OrdMap.mem_keys, OrdMap.mem_keys]
  simp only [mem_foldl_erase, exists_and_right]

theorem SameLists.add (hsame : SameLists n memory lists) (hdid : (ofString didHash).length = n)
    (hnamed : ∀ h ∈ hashes, h ≠ "") (limit : ℕ) : (accessListAdd limit didHash hashes memory).1 =
    (Fjall.accessListAdd limit didHash hashes lists).1 ∧ SameLists n (accessListAdd limit didHash hashes memory).2
    (Fjall.accessListAdd limit didHash hashes lists).2 := by
  have hmemory : accessListAdd limit didHash hashes memory =
      (.ok ⟨cutRequest limit (memory.accessListOf didHash).length hashes,
        decide ((memory.accessListOf didHash).length + hashes.length > limit)⟩,
        { memory with
          accessLists := Function.update memory.accessLists didHash (some
            (pushNew (memory.accessListOf didHash)
              (cutRequest limit (memory.accessListOf didHash).length hashes))) }) := rfl
  have hfjall : Fjall.accessListAdd limit didHash hashes lists =
      (.ok ⟨cutRequest limit (memory.accessListOf didHash).length hashes,
        decide ((memory.accessListOf didHash).length + hashes.length > limit)⟩,
        (cutRequest limit (memory.accessListOf didHash).length hashes).foldl
          (fun lists h => lists.insert (accessKey didHash h) ()) lists) := by
    rw [← hsame.count hdid]
    rfl
  -- what is added is part of what is asked for
  have hsub : ∀ h ∈ cutRequest limit (memory.accessListOf didHash).length hashes, h ∈ hashes := by
    intro h hh
    unfold cutRequest at hh
    split_ifs at hh
    · exact mem_of_mem_take hh
    · exact hh
  rw [hmemory, hfjall]
  generalize cutRequest limit (memory.accessListOf didHash).length hashes = toAdd at hsub ⊢
  refine ⟨rfl, ?_⟩
  refine hsame.update hdid _ (accessListOf_update memory didHash _) (pushNew_nodup (hsame.nodup didHash) toAdd)
    (fun hempty => ?_) fun key => ?_
  · rcases mem_pushNew.1 hempty with hold | hnew
    · exact hsame.named didHash hold
    · exact hnamed "" (hsub "" hnew) rfl
  · rw [mem_keys_foldl_insert]
    simp only [Option.getD_some, mem_pushNew]
    constructor
    · rintro (hold | ⟨h, hh, rfl⟩)
      · by_cases hown : ∃ h, key = accessKey didHash h
        · obtain ⟨h, rfl⟩ := hown
          exact .inr ⟨h, .inl ((hsame.members didHash h hdid).1 hold), rfl⟩
        · exact .inl ⟨hold, fun h heq => hown ⟨h, heq⟩⟩
      · exact .inr ⟨h, .inr hh, rfl⟩
    · rintro (⟨hold, -⟩ | ⟨h, hh | hh, rfl⟩)
      · exact .inl hold
      · exact .inl ((hsame.members didHash h hdid).2 hh)
      · exact .inr ⟨h, hh, rfl⟩

theorem SameLists.remove (hsame : SameLists n memory lists) (hdid : (ofString didHash).length = n)
    (hashes : List String) :
    SameLists n (accessListRemove didHash hashes memory).2 (Fjall.accessListRemove didHash hashes lists).2 := by
  have hmemory : ∀ k, (accessListRemove didHash hashes memory).2.accessListOf k =
      if k = didHash then (memory.accessListOf didHash).filter
        (fun h => !hashes.contains h) else memory.accessListOf k := by
    intro k
    cases hlist : memory.accessLists didHash with
    | none =>
      have hempty : memory.accessListOf didHash = [] := by rw [accessListOf, hlist]; rfl
      simp only [accessListRemove, hlist]
      split_ifs with hk
      · rw [hk, hempty]
        rfl
      · rfl
    | some list =>
      have hlistOf : memory.accessListOf didHash = list := by rw [accessListOf, hlist]; rfl
      simp only [accessListRemove, hlist]
      rw [accessListOf_update, hlistOf]
      rfl
  refine hsame.update hdid _ hmemory ((hsame.nodup didHash).filter _)
    (fun hempty => hsame.named didHash (mem_of_mem_filter hempty)) fun key => ?_
  have hfold : (Fjall.accessListRemove didHash hashes lists).2 =
      ((hashes.filter fun h => accessListContains lists didHash h).map (accessKey didHash)).foldl
        (fun lists key => lists.erase key) lists := by
    rw [foldl_map]
    rfl
  rw [hfold, mem_keys_foldl_erase]
  simp only [mem_map, mem_filter, hsame.contains hdid]
  constructor
  · rintro ⟨hold, hkept⟩
    by_cases hown : ∃ h, key = accessKey didHash h
    · obtain ⟨h, rfl⟩ := hown
      have hh := (hsame.members didHash h hdid).1 hold
      refine .inr ⟨h, ⟨hh, ?_⟩, rfl⟩
      by_contra hin
      exact hkept ⟨h, ⟨by simpa using hin, by simpa using hh⟩, rfl⟩
    · exact .inl ⟨hold, fun h heq => hown ⟨h, heq⟩⟩
  · rintro (⟨hold, hother⟩ | ⟨h, ⟨hh, hkept⟩, rfl⟩)
    · refine ⟨hold, ?_⟩
      rintro ⟨h, -, heq⟩
      exact hother h heq.symm
    · refine ⟨(hsame.members didHash h hdid).2 hh, ?_⟩
      rintro ⟨h', ⟨hin, -⟩, heq⟩
      obtain ⟨-, rfl⟩ := accessKey_inj rfl heq
      simp [hin] at hkept

theorem SameLists.drop (hsame : SameLists n memory lists) (hdid : (ofString didHash).length = n)
    (hmemory : memory'.accessLists = Function.update memory.accessLists didHash none) :
    SameLists n memory' ((ownKeys lists didHash).foldl (fun lists key => lists.erase key) lists) := by
  refine hsame.update hdid [] (fun k => ?_) nodup_nil not_mem_nil fun key => ?_
  · have hlists := accessListOf_update memory didHash none k
    unfold accessListOf at hlists ⊢
    rw [hmemory]
    exact hlists
  · rw [mem_keys_foldl_erase, hsame.mem_ownKeys hdid]
    simp only [not_mem_nil, false_and, exists_false, or_false]
    refine and_congr_right fun hold => ⟨?_, ?_⟩
    · rintro hnot h rfl
      exact hnot ⟨h, (hsame.members didHash h hdid).1 hold, rfl⟩
    · rintro hother ⟨h, -, heq⟩
      exact hother h heq

/-- The counts of a removal are the same exactly when no member is named twice. -/
theorem SameLists.counts_iff (hsame : SameLists n memory lists) (hdid : (ofString didHash).length = n)
    (hashes : List String) :
    (accessListRemove didHash hashes memory).1 = (Fjall.accessListRemove didHash hashes lists).1 ↔
      ∀ h ∈ memory.accessListOf didHash, hashes.count h ≤ 1 := by
  have hmemory : (accessListRemove didHash hashes memory).1 =
      .ok ((memory.accessListOf didHash).filter fun h => hashes.contains h).length := by
    have hsplit := length_eq_length_filter_add (fun h => hashes.contains h) (l := memory.accessListOf didHash)
    unfold accessListOf at hsplit ⊢
    unfold accessListRemove
    cases hlist : memory.accessLists didHash with
    | none => rfl
    | some list =>
      rw [hlist, Option.getD_some] at hsplit
      refine congrArg Except.ok ?_
      rw [Option.getD_some]
      omega
  have hfjall : (Fjall.accessListRemove didHash hashes lists).1 =
      .ok (hashes.filter fun h => (memory.accessListOf didHash).any (· = h)).length := by
    unfold Fjall.accessListRemove
    simp only [hsame.contains hdid]
  rw [hmemory, hfjall, Except.ok.injEq]
  -- both are the members that are named, once each and as often as they are named
  have hset : ((memory.accessListOf didHash).filter fun h => hashes.contains h).toFinset =
      (hashes.filter fun h => (memory.accessListOf didHash).any (· = h)).toFinset := by
    ext h
    simp [and_comm]
  have hcard := toFinset_card_of_nodup ((hsame.nodup didHash).filter fun h => hashes.contains h)
  rw [hset] at hcard
  rw [← hcard]
  constructor
  · intro hlength h hh
    have hnodup : (hashes.filter fun h => (memory.accessListOf didHash).any (· = h)).Nodup := by
      rw [card_toFinset] at hlength
      exact dedup_eq_self.1 ((dedup_sublist _).eq_of_length hlength)
    have hcount := nodup_iff_count_le_one.1 hnodup h
    rwa [count_filter (by simpa using hh)] at hcount
  · intro honce
    refine toFinset_card_of_nodup (nodup_iff_count_le_one.2 fun h => ?_)
    by_cases hh : h ∈ memory.accessListOf didHash
    · rw [count_filter (by simpa using hh)]
      exact honce h hh
    · refine (count_eq_zero_of_not_mem fun hin => hh ?_).trans_le (Nat.zero_le 1)
      simpa using (mem_filter.1 hin).2

end Lists

/-! ## What a removal of messages leaves alone -/

theorem removeMessage_accessLists (st : MemoryState) (messageHash : String) (record : MessageRecord) :
    (st.removeMessage messageHash record).accessLists = st.accessLists := by
  unfold removeMessage unindexExpiry
  dsimp only
  split <;> split <;> rfl

theorem purgeLoop_accessLists (didHash : String) (ids : List String) (st : MemoryState) :
    (purgeLoop didHash ids st).2.accessLists = st.accessLists := by
  induction ids generalizing st with
  | nil => rfl
  | cons id ids ih =>
    simp only [purgeLoop, deleteMessage]
    cases hmsg : st.messages id with
    | none => exact ih st
    | some record =>
      by_cases hperm : deleteMessagePermitted (.owner didHash) record.toDidHash record.fromDidHash = true
      · simp only [hperm, Bool.not_true, Bool.false_eq_true, if_false]
        rw [ih, removeMessage_accessLists]
      · simp only [hperm, Bool.not_false, if_true]
        exact ih st

namespace Fjall

/-- The accounts as far as access lists go. -/
def FjallState.grants (st : FjallState) (didHash : String) : Option (MediatorACLSet × AccountType) :=
  (st.accounts.get? (ofString didHash)).map StoredAccount.grants

theorem grants_insert {accounts : Partition StoredAccount} {key : List ℕ} {account : StoredAccount}
    (h : (accounts.get? key).map StoredAccount.grants = some account.grants) (k : List ℕ) :
    ((accounts.insert key account).get? k).map StoredAccount.grants =
      (accounts.get? k).map StoredAccount.grants := by
  rw [get?_insert]
  split_ifs with hk
  · rw [hk, h]
    rfl
  · rfl

theorem grants_insert_sender {st : FjallState} {accounts : Partition StoredAccount} {stored : MessageRecord}
    {key : List ℕ} {account : StoredAccount}
    (hsame : ∀ k, (accounts.get? k).map StoredAccount.grants = (st.accounts.get? k).map StoredAccount.grants)
    (hsender : (stored.fromDidHash.bind fun sender => (st.accounts.get? (ofString sender)).map fun account =>
      (ofString sender, { account with
        sendQueueCount := account.sendQueueCount - 1
        sendQueueBytes := account.sendQueueBytes - stored.bytes })) = some (key, account)) (k : List ℕ) :
    ((accounts.insert key account).get? k).map StoredAccount.grants =
      (st.accounts.get? k).map StoredAccount.grants := by
  obtain ⟨sender, -, hsome⟩ := Option.bind_eq_some_iff.1 hsender
  obtain ⟨old, hold, heq⟩ := Option.map_eq_some_iff.1 hsome
  cases heq
  rw [grants_insert, hsame]
  rw [hsame, hold]
  rfl

theorem removeMessage_grants (st : FjallState) (messageHash : String) (stored : MessageRecord) :
    (st.removeMessage messageHash stored).grants = st.grants := by
  funext did
  unfold FjallState.grants FjallState.removeMessage
  dsimp only [FjallState.bumpGlobal]
  cases hto : st.accounts.get? (ofString stored.toDidHash) with
  | none =>
    split
    · next hsender => exact grants_insert_sender (fun k => rfl) hsender _
    · rfl
  | some received =>
    have hreceived := @grants_insert st.accounts (ofString stored.toDidHash)
      { received with
        receiveQueueCount := received.receiveQueueCount - 1
        receiveQueueBytes := received.receiveQueueBytes - stored.bytes }
      (by rw [hto]; rfl)
    split
    · next hsender => exact grants_insert_sender hreceived hsender _
    · exact hreceived _

theorem purgeLoop_grants (didHash : String) (ids : List String) (st : FjallState) :
    (purgeLoop didHash ids st).2.grants = st.grants := by
  induction ids generalizing st with
  | nil => rfl
  | cons id ids ih =>
    simp only [purgeLoop, deleteMessage]
    cases hmsg : st.messages.get? (ofString id) with
    | none => exact ih st
    | some stored =>
      by_cases hperm : deleteMessagePermitted (.owner didHash) stored.toDidHash stored.fromDidHash = true
      · simp only [hperm, Bool.not_true, Bool.false_eq_true, if_false]
        rw [ih, removeMessage_grants]
      · simp only [hperm, Bool.not_false, if_true]
        exact ih st

theorem deleteFolderStream_grants (didHash : String) (folder : Folder) (st : FjallState) :
    (deleteFolderStream didHash folder st).2.grants = st.grants := by
  cases folder <;> rfl

theorem purgeFolder_grants (didHash : String) (folder : Folder) (st : FjallState) :
    (purgeFolder didHash folder st).2.grants = st.grants := by
  rw [purgeFolder, deleteFolderStream_grants, purgeLoop_grants]

theorem setDidAcl_grants (didHash : String) (acls : MediatorACLSet) (st : FjallState) (k : String) :
    (setDidAcl didHash acls st).2.grants k =
      if k = didHash then some (acls, ((st.grants didHash).map Prod.snd).getD .standard) else st.grants k := by
  unfold setDidAcl FjallState.grants
  dsimp only
  rw [get?_insert]
  by_cases hk : k = didHash
  · rw [if_pos (congrArg ofString hk), if_pos hk]
    cases st.accounts.get? (ofString didHash) <;> rfl
  · rw [if_neg fun heq => hk (ofString_injective heq), if_neg hk]

theorem accountRemove_spec {s : FjallStore} {didHash : String}
    (hstandard : ∀ account, s.store.accounts.get? (ofString didHash) = some account → account.role = .standard) :
    (accountRemove didHash s).1 = .ok true ∧ (∀ k, (accountRemove didHash s).2.store.grants k = if k =
    didHash then none else s.store.grants k) ∧ (accountRemove didHash s).2.lists = (ownKeys s.lists didHash).foldl
    (fun lists key => lists.erase key) s.lists := by
  unfold accountRemove
  split
  · next hrole =>
    obtain ⟨account, haccount, hmediator⟩ := Option.map_eq_some_iff.1 hrole
    rw [hstandard account haccount] at hmediator
    cases hmediator
  · next hrole =>
    obtain ⟨account, haccount, hroot⟩ := Option.map_eq_some_iff.1 hrole
    rw [hstandard account haccount] at hroot
    cases hroot
  · refine ⟨rfl, fun k => ?_, rfl⟩
    unfold FjallState.grants
    dsimp only
    rw [get?_erase]
    by_cases hk : k = didHash
    · rw [if_pos (congrArg ofString hk), if_pos hk]
      rfl
    · rw [if_neg fun heq => hk (ofString_injective heq), if_neg hk]
      refine (congrFun (purgeFolder_grants didHash .inbox _) k).trans ?_
      rw [deleteFolderStream_grants, setDidAcl_grants, if_neg hk]
      rfl

end Fjall

/-! ## One call -/

variable {memory memory' : MemoryState} {fjall : Fjall.FjallState}

theorem SameAccounts.update {fjall' : Fjall.FjallState} (h : SameAccounts memory fjall) (didHash : String)
    (x : Option (MediatorACLSet × AccountType))
    (hmemory : ∀ k, (memory'.accounts k).map AccountRecord.grants = if k = didHash then x else
    (memory.accounts k).map AccountRecord.grants) (hfjall : ∀ k, fjall'.grants k = if k = didHash then x else
    fjall.grants k) (hx : ∀ acls role, x = some (acls, role) → role = .standard) :
    SameAccounts memory' fjall' := by
  refine ⟨fun k => ?_, fun k record hrecord => ?_⟩
  · rw [hmemory]
    refine Eq.trans ?_ (hfjall k).symm
    split_ifs
    · rfl
    · exact h.grants k
  · have hk := hmemory k
    rw [hrecord, Option.map_some] at hk
    split_ifs at hk
    · exact hx _ _ hk.symm
    · obtain ⟨old, hold, heq⟩ := Option.map_eq_some_iff.1 hk.symm
      rw [← h.standard k old hold]
      exact (congrArg Prod.snd heq).symm

theorem SameAccounts.congr (h : SameAccounts memory fjall) (hsame : memory'.accounts = memory.accounts) :
    SameAccounts memory' fjall :=
  ⟨fun k => hsame ▸ h.grants k, fun k => hsame ▸ h.standard k⟩

theorem SameLists.congr {n : ℕ} {lists : Fjall.AccessLists} (h : SameLists n memory lists)
    (hsame : memory'.accessLists = memory.accessLists) : SameLists n memory' lists := by
  have hof : memory'.accessListOf = memory.accessListOf := by
    funext k
    rw [accessListOf, hsame]
    rfl
  exact ⟨hof ▸ h.nodup, hof ▸ h.named, h.keyed, hof ▸ h.members⟩

variable {didHash : String}

theorem accountRemove_spec (hstandard : ∀ record, memory.accounts didHash = some record → record.role =
    .standard) : (accountRemove didHash memory).1 = .ok true ∧
    (∀ k, ((accountRemove didHash memory).2.accounts k).map AccountRecord.grants = if k = didHash then none else
    (memory.accounts k).map AccountRecord.grants) ∧ (accountRemove didHash memory).2.accessLists =
    Function.update memory.accessLists didHash none := by
  have hremovable : Removable memory didHash := by
    constructor
    · intro hrole
      obtain ⟨record, hrecord, hmediator⟩ := Option.map_eq_some_iff.1 hrole
      rw [hstandard record hrecord] at hmediator
      cases hmediator
    · intro hrole
      obtain ⟨record, hrecord, hroot⟩ := Option.map_eq_some_iff.1 hrole
      rw [hstandard record hrecord] at hroot
      cases hroot
  have hok := accountRemove_of_removable hremovable
  refine ⟨congrArg Prod.fst hok, fun k => ?_, ?_⟩
  · split_ifs with hk
    · rw [hk, accountRemove_self hok, Option.map_none]
    · cases hrecord : memory.accounts k with
      | none =>
        rw [accountRemove_absent hok hk hrecord]
      | some record =>
        obtain ⟨record', hrecord', hdrained, -⟩ := accountRemove_drained hok hk hrecord
        rw [hrecord']
        exact congrArg some (Prod.ext hdrained.acls hdrained.role)
  · unfold accountRemove
    split
    · next hmediator => exact absurd hmediator hremovable.1
    · next hroot => exact absurd hroot hremovable.2
    · exact congrArg (fun lists => Function.update lists didHash none) (purgeLoop_accessLists didHash _ _)

namespace Both

variable {n : ℕ} {b : Both} {op : AccessOp}

/-- The two stores have the same accounts and, for DID hashes of one length, the same lists. -/
structure Correspond (n : ℕ) (b : Both) : Prop where
  accounts : SameAccounts b.memory b.fjall.store
  lists : SameLists n b.memory b.fjall.lists

theorem fresh_correspond (n : ℕ) : Correspond n fresh :=
  ⟨⟨fun _ => rfl, nofun⟩,
    ⟨fun _ => nodup_nil, fun _ => not_mem_nil, nofun, fun _ _ _ => iff_of_false nofun nofun⟩⟩

/-- A call keeps the stores in correspondence, and returns the same in both unless it removes a member twice. -/
theorem Correspond.step (h : Correspond n b) (hop : op.WellFormed n) :
    Correspond n (b.after op) ∧ ((b.memory.access op).1 = (b.fjall.access op).1 ↔ NamesOnce b op) := by
  cases op with
  | accountAdd didHash acls queueLimit =>
    refine ⟨⟨h.accounts.update didHash (some (acls, .standard)) (fun k => ?_) (fun k => ?_) ?_, h.lists.congr rfl⟩,
      iff_of_true rfl trivial⟩
    · refine (congrArg _ (accountAdd_accounts b.memory didHash acls queueLimit k)).trans ?_
      split_ifs <;> rfl
    · show Option.map _ (get? (insert ..) _) = _
      rw [get?_insert]
      by_cases hk : k = didHash
      · rw [if_pos (congrArg ofString hk), if_pos hk]
        rfl
      · rw [if_neg fun heq => hk (ofString_injective heq), if_neg hk]
        rfl
    · rintro _ _ ⟨⟩
      rfl
  | setDidAcl didHash acls =>
    have hgrants := h.accounts.grants didHash
    refine ⟨⟨h.accounts.update didHash
      (some (acls, ((b.fjall.store.grants didHash).map Prod.snd).getD .standard)) (fun k => ?_)
      (Fjall.setDidAcl_grants didHash acls b.fjall.store) ?_, h.lists.congr rfl⟩, iff_of_true rfl trivial⟩
    · have haccounts := upsertAccount_accounts b.memory didHash (fun record => { record with acls }) k
      refine (congrArg (Option.map AccountRecord.grants) haccounts).trans ?_
      split_ifs with hk
      · rw [Fjall.FjallState.grants, ← hgrants]
        cases b.memory.accounts didHash <;> rfl
      · rfl
    · intro acls' role heq
      cases heq
      rw [Fjall.FjallState.grants, ← hgrants]
      cases hrecord : b.memory.accounts didHash with
      | none => rfl
      | some record => exact h.accounts.standard didHash record hrecord
  | accessListAdd limit didHash hashes =>
    obtain ⟨hreply, hlists⟩ := h.lists.add hop.1 hop.2 limit
    exact ⟨⟨h.accounts.congr rfl, hlists⟩, iff_of_true (congrArg (Except.map _) hreply) trivial⟩
  | accessListRemove didHash hashes =>
    have haccounts : (accessListRemove didHash hashes b.memory).2.accounts = b.memory.accounts := by
      unfold accessListRemove
      cases b.memory.accessLists didHash <;> rfl
    refine ⟨⟨h.accounts.congr haccounts, h.lists.remove hop.1 hashes⟩, ?_⟩
    obtain ⟨count, hcount⟩ := accessListRemove_eq_ok b.memory didHash hashes
    have hreply : (b.memory.access (.accessListRemove didHash hashes)).1 = .ok (.removed count) := by
      show Except.map AccessReply.removed (accessListRemove didHash hashes b.memory).1 = _
      rw [hcount]
      rfl
    -- only the counts can differ
    refine Iff.trans ?_ (h.lists.counts_iff hop.1 hashes)
    rw [hreply, hcount]
    show Except.ok _ = Except.ok (AccessReply.removed _) ↔ Except.ok count = Except.ok _
    rw [Except.ok.injEq, Except.ok.injEq, AccessReply.removed.injEq]
  | accessListClear didHash =>
    exact ⟨⟨h.accounts.congr rfl, h.lists.drop hop rfl⟩, iff_of_true rfl trivial⟩
  | accountRemove didHash =>
    have hfjall : ∀ account, b.fjall.store.accounts.get? (ofString didHash) = some account → account.role =
      .standard := by
      intro account haccount
      have hgrants := h.accounts.grants didHash
      rw [haccount] at hgrants
      obtain ⟨record, hrecord, heq⟩ := Option.map_eq_some_iff.1 hgrants
      rw [← h.accounts.standard didHash record hrecord]
      exact (congrArg Prod.snd heq).symm
    obtain ⟨hmemoryReply, hmemoryGrants, hmemoryLists⟩ := accountRemove_spec (h.accounts.standard didHash)
    obtain ⟨hfjallReply, hfjallGrants, hfjallLists⟩ := Fjall.accountRemove_spec hfjall
    refine ⟨⟨h.accounts.update didHash none hmemoryGrants hfjallGrants nofun, ?_⟩, iff_of_true ?_ trivial⟩
    · have hlists := h.lists.drop hop hmemoryLists
      rw [← hfjallLists] at hlists
      exact hlists
    · exact congrArg (Except.map _) (hmemoryReply.trans hfjallReply.symm)

end Both

/-! ## Pages -/

theorem accessListGet_eq (didHash : String) (hashes : List String) (memory : MemoryState) :
    (accessListGet didHash hashes memory).1 =
      .ok (hashes.filter fun h => (memory.accessListOf didHash).any (· = h)) := by
  unfold accessListGet accessListOf
  cases memory.accessLists didHash with
  | none => simp
  | some list => rfl

theorem accessListGet_singleton_iff {h : String} : (accessListGet didHash [h] memory).1 = .ok [h] ↔ h ∈
    memory.accessListOf didHash := by
  rw [accessListGet_eq, Except.ok.injEq]
  by_cases hh : h ∈ memory.accessListOf didHash
  · simp [hh]
  · simp [hh]

theorem memory_pages (didHash : String) (memory : MemoryState) :
    (fun cursor => Both.listed (accessListList didHash cursor memory).1) =
      pageAt 100 (memory.accessListOf didHash) := by
  funext cursor
  unfold accessListList accessListOf
  cases memory.accessLists didHash with
  | none => simp [Both.listed, pageAt]
  | some list => rfl

namespace Fjall

theorem accessListScan_page {prefixLen cursor : ℕ} (keys : List (List ℕ))
    (hkeys : ∀ key ∈ keys, prefixLen < key.length) {seen : ℕ} (hseen : cursor ≤ seen) (entries : List String)
    (hentries : entries.length ≤ 100) : accessListScan prefixLen cursor keys seen entries =
    (entries ++ (keys.map fun key => stringOf (key.drop prefixLen)).take (100 - entries.length),
    decide (keys.length > 100 - entries.length)) := by
  induction keys generalizing seen entries with
  | nil => simp [accessListScan]
  | cons key keys ih =>
    rw [accessListScan, if_neg (by omega)]
    by_cases hfull : entries.length ≥ 100
    · have hnone : 100 - entries.length = 0 := by omega
      rw [if_pos hfull, hnone, take_zero, append_nil]
      simp
    · have hlong := hkeys key mem_cons_self
      rw [if_neg hfull, if_neg (by omega),
        ih (fun key hkey => hkeys key (mem_cons_of_mem _ hkey)) (by omega) _ (by simp; omega)]
      have hroom : 100 - entries.length = (100 - (entries.length + 1)) + 1 := by omega
      simp only [length_append, map_cons, length_cons]
      rw [hroom, take_succ_cons, append_assoc, singleton_append]
      simp

theorem accessListScan_skip {prefixLen cursor : ℕ} (keys : List (List ℕ)) {seen : ℕ} (hseen : seen ≤ cursor) :
    accessListScan prefixLen cursor keys seen [] =
      accessListScan prefixLen cursor (keys.drop (cursor - seen)) cursor [] := by
  induction keys generalizing seen with
  | nil => simp [accessListScan]
  | cons key keys ih =>
    rcases hseen.lt_or_eq with hlt | rfl
    · obtain ⟨k, hk⟩ : ∃ k, cursor - seen = k + 1 := ⟨cursor - seen - 1, by omega⟩
      have hrest : cursor - (seen + 1) = k := by omega
      rw [accessListScan, if_pos hlt, ih hlt, hk, hrest, drop_succ_cons]
    · rw [Nat.sub_self, drop_zero]

theorem fjall_pages {lists : AccessLists} {didHash : String}
    (hkeys : ∀ key ∈ ownKeys lists didHash, (ofString didHash).length < key.length) :
    (fun cursor => Both.listed (accessListList didHash cursor lists)) =
      pageAt 100 ((accessMembers lists didHash).map stringOf) := by
  funext cursor
  unfold accessListList
  rw [accessListScan_skip _ (Nat.zero_le cursor),
    accessListScan_page _ (fun key hkey => hkeys key (mem_of_mem_drop hkey)) le_rfl [] (Nat.zero_le 100)]
  have hmap : ((ownKeys lists didHash).drop cursor).map (fun key => stringOf (key.drop (ofString didHash).length)) =
      (((accessMembers lists didHash).map stringOf).drop cursor) := by
    rw [accessMembers, map_map, map_drop]
    rfl
  have hlength : ((accessMembers lists didHash).map stringOf).length = (ownKeys lists didHash).length := by
    simp [accessMembers]
  rw [Nat.sub_zero, nil_append, length_nil, Nat.sub_zero, hmap]
  unfold pageAt Both.listed
  refine Prod.ext rfl ?_
  simp only [length_take, length_drop, hlength]
  by_cases hmore : (ownKeys lists didHash).length - cursor > 100
  · rw [if_pos (by simpa using hmore), if_neg (by omega)]
  · rw [if_neg (by simpa using hmore), if_pos (by omega)]

end Fjall

/-! ## Agreement -/

namespace Both

variable {n : ℕ} {b : Both}

theorem Correspond.agree (h : Correspond n b) : Agree n b := by
  refine ⟨fun didHash hashes hdid => ?_, fun toHash fromHash hto => ?_, fun didHash hdid => ?_,
    fun didHash hdid => ?_⟩
  · rw [accessListGet_eq, Fjall.accessListGet]
    simp only [h.lists.contains hdid]
  · have hgrants := h.accounts.grants toHash
    unfold accessListAllowed Fjall.accessListAllowed
    cases haccount : b.memory.accounts toHash with
    | none =>
      rw [haccount, Option.map_none, eq_comm, Option.map_eq_none_iff] at hgrants
      rw [hgrants]
    | some record =>
      rw [haccount, Option.map_some, eq_comm, Option.map_eq_some_iff] at hgrants
      obtain ⟨account, hfjall, heq⟩ := hgrants
      rw [hfjall]
      have hacls : MediatorACLSet.fromU64 account.acls = record.acls := congrArg Prod.fst heq
      cases fromHash with
      | none => simp only [hacls]
      | some sender =>
        have hlist : ((b.memory.accessLists toHash).map fun l => l.any (· = sender)).getD false =
            (b.memory.accessListOf toHash).any (· = sender) := by
          unfold accessListOf
          cases b.memory.accessLists toHash <;> rfl
        simp only [hacls, hlist, h.lists.contains hto]
  · rw [memory_pages]
    exact ⟨_, reads_pageAt (by decide) _ 0, h.lists.nodup didHash, fun h => accessListGet_singleton_iff.symm⟩
  · have hperm := (h.lists.accessMembers_perm hdid).map Fjall.stringOf
    have hback : ((b.memory.accessListOf didHash).map ofString).map Fjall.stringOf =
      b.memory.accessListOf didHash := by
      rw [map_map]
      exact (map_congr_left fun h _ => Fjall.stringOf_ofString h).trans (map_id _)
    rw [hback] at hperm
    rw [Fjall.fjall_pages fun key hkey => ?_]
    · exact ⟨_, reads_pageAt (by decide) _ 0, hperm.nodup_iff.2 (h.lists.nodup didHash),
        fun h => hperm.mem_iff.trans accessListGet_singleton_iff.symm⟩
    · -- a member is not the empty text, so its key is longer than the hash
      obtain ⟨member, hmember, rfl⟩ := (h.lists.mem_ownKeys hdid).1 hkey
      have hne : ofString member ≠ [] := by
        intro hempty
        obtain rfl : member = "" := ofString_injective hempty
        exact h.lists.named didHash hmember
      have hpos := length_pos_iff.2 hne
      rw [Fjall.accessKey, length_append]
      omega

/-- The stores agree throughout if and only if every call names a hash once. -/
theorem Correspond.run_iff {ops : List AccessOp} (h : Correspond n b) (hops : ∀ op ∈ ops, op.WellFormed n) :
    AgreeThroughout n ops b ↔ NameOnceThroughout ops b := by
  induction ops generalizing b with
  | nil => exact iff_of_true h.agree trivial
  | cons op ops ih =>
    obtain ⟨hafter, hreply⟩ := h.step (hops op mem_cons_self)
    have hrest := ih hafter fun op hop => hops op (mem_cons_of_mem _ hop)
    show Agree n b ∧ _ ∧ _ ↔ _ ∧ _
    rw [hreply, hrest, and_iff_right h.agree]

/-- **Both stores** answer alike about access lists throughout a run exactly when no removal of the run names a
member of the list more than once. -/
theorem accessLists_agree_iff {ops : List AccessOp} (hops : ∀ op ∈ ops, op.WellFormed n) :
    AgreeThroughout n ops fresh ↔ NameOnceThroughout ops fresh := (fresh_correspond n).run_iff hops

/-- Bob is put on a list and taken off it. -/
theorem accessLists_agree_bob :
    AgreeThroughout 3 [.accessListAdd 2 "did" ["bob"], .accessListRemove "did" ["bob", "alice"]] fresh := by
  refine (accessLists_agree_iff ?_).2 ⟨trivial, ?_, trivial⟩
  · rintro op hop
    rcases mem_cons.1 hop with rfl | hop
    · exact ⟨by decide +kernel, by decide⟩
    · obtain rfl := mem_singleton.1 hop
      exact ⟨by decide +kernel, by decide⟩
  · show ∀ h ∈ ["bob"], ["bob", "alice"].count h ≤ 1
    decide

/-- Bob is named twice: one is taken off, and two are reported. -/
theorem accessLists_bob_twice :
    ((fresh.after (.accessListAdd 2 "did" ["bob"])).memory.access (.accessListRemove "did" ["bob", "bob"])).1 =
        .ok (.removed 1) ∧
      ((fresh.after (.accessListAdd 2 "did" ["bob"])).fjall.access (.accessListRemove "did" ["bob", "bob"])).1 =
        .ok (.removed 2) ∧
      ¬AgreeThroughout 3 [.accessListAdd 2 "did" ["bob"], .accessListRemove "did" ["bob", "bob"]] fresh := by
  have hmemory : ((fresh.after (.accessListAdd 2 "did" ["bob"])).memory.access
    (.accessListRemove "did" ["bob", "bob"])).1 =
      .ok (.removed 1) := by decide +kernel
  have hfjall : ((fresh.after (.accessListAdd 2 "did" ["bob"])).fjall.access
    (.accessListRemove "did" ["bob", "bob"])).1 =
      .ok (.removed 2) := by decide +kernel
  refine ⟨hmemory, hfjall, fun h => ?_⟩
  have hreply := h.2.2.2.1
  rw [hmemory, hfjall] at hreply
  cases hreply

end Both

end AffinidiTdk.Store
