/-
The in-memory mediator store (`store/memory_store.rs`): accounts, ACLs, access lists, admins, the
audit log and the message folders. A hash map is a function to `Option`, a B-tree map an `OrdMap`.
Each public method holds the store's lock for the whole call (or calls others that do), so an
operation is a function on the state.
-/
import AffinidiTdk.Lib.Except
import AffinidiTdk.Lib.OrdMap
import AffinidiTdk.Store.Types
import Mathlib.Data.Finset.Sort
import Mathlib.Data.String.Basic

namespace AffinidiTdk.Store

open Acl

/-! ## State -/

/-- A stored message with its ids in the two folders. -/
structure MessageRecord where
  body : String
  bytes : ℕ
  toDidHash : String
  fromDidHash : Option String
  timestampMs : ℕ
  receiveId : StreamId
  sendId : Option StreamId
  expiresAt : ℕ

/-- An entry of a folder. -/
structure StreamEntry where
  msgId : String
  bytes : ℕ
  peerDid : String
  deriving DecidableEq

/-- An account with its counters. -/
structure AccountRecord where
  role : AccountType
  acls : MediatorACLSet
  sendQueueCount : ℕ
  sendQueueBytes : ℕ
  receiveQueueCount : ℕ
  receiveQueueBytes : ℕ
  queueSendLimit : Option ℤ
  queueReceiveLimit : Option ℤ

instance : Inhabited AccountRecord := ⟨⟨.standard, default, 0, 0, 0, 0, none, none⟩⟩

def AccountRecord.intoAccount (record : AccountRecord) (didHash : String) (accessListCount : ℕ) : Account :=
  { didHash
    acls := record.acls.toU64
    type := record.role
    accessListCount
    queueSendLimit := record.queueSendLimit
    queueReceiveLimit := record.queueReceiveLimit
    sendQueueCount := record.sendQueueCount
    sendQueueBytes := record.sendQueueBytes
    receiveQueueCount := record.receiveQueueCount
    receiveQueueBytes := record.receiveQueueBytes }

/-- A claim on an entry of the forward queue. -/
structure PendingClaim where
  consumer : String
  claimedAt : ℕ
  deliveryCount : ℕ

/-- A consumer group of the forward queue: what it has read and not acknowledged, and the last id
it was given. -/
structure ConsumerGroupState where
  pending : OrdMap StreamId PendingClaim
  lastDelivered : StreamId

instance : Inhabited ConsumerGroupState := ⟨⟨.empty, toLex (0, 0)⟩⟩

/-- The tables behind the lock of the store. -/
structure MemoryState where
  messages : String → Option MessageRecord
  inbox : String → Option (OrdMap StreamId StreamEntry)
  outbox : String → Option (OrdMap StreamId StreamEntry)
  /-- `expires_at -> message ids`; an empty slot is a missing one. -/
  expiry : ℕ → Finset String
  accounts : String → Option AccountRecord
  knownDids : List String
  accessLists : String → Option (List String)
  admins : Finset String
  auditLog : List AuditLogEntry
  forwardQueue : OrdMap StreamId ForwardQueueEntry
  forwardGroups : String → Option ConsumerGroupState
  counters : String → ℤ
  lastStreamMs : ℕ
  nextStreamSeq : ℕ

instance : Inhabited MemoryState :=
  ⟨{ messages := fun _ => none
     inbox := fun _ => none
     outbox := fun _ => none
     expiry := fun _ => ∅
     accounts := fun _ => none
     knownDids := []
     accessLists := fun _ => none
     admins := ∅
     auditLog := []
     forwardQueue := .empty
     forwardGroups := fun _ => none
     counters := fun _ => 0
     lastStreamMs := 0
     nextStreamSeq := 0 }⟩

/-- A store call: an outcome and the state after it. -/
abbrev StoreOp (α : Type) := MemoryState → Except MediatorError α × MemoryState

namespace MemoryState

def allocStreamId (st : MemoryState) (nowMs : ℕ) : StreamId × MemoryState :=
  let st :=
    if nowMs > st.lastStreamMs then { st with lastStreamMs := nowMs, nextStreamSeq := 0 }
    else { st with nextStreamSeq := st.nextStreamSeq + 1 }
  (toLex (st.lastStreamMs, st.nextStreamSeq), st)

def indexExpiry (st : MemoryState) (expiresAt : ℕ) (msgId : String) : MemoryState :=
  if expiresAt = 0 then st
  else { st with expiry := Function.update st.expiry expiresAt (insert msgId (st.expiry expiresAt)) }

def unindexExpiry (st : MemoryState) (expiresAt : ℕ) (msgId : String) : MemoryState :=
  if expiresAt = 0 then st
  else { st with expiry := Function.update st.expiry expiresAt ((st.expiry expiresAt).erase msgId) }

def incrCounter (st : MemoryState) (key : String) (n : ℤ) : MemoryState :=
  { st with counters := Function.update st.counters key (st.counters key + n) }

/-- `accounts.entry(k).or_default()`, then a write to it. -/
def upsertAccount (st : MemoryState) (didHash : String) (f : AccountRecord → AccountRecord) : MemoryState :=
  { st with accounts := Function.update st.accounts didHash (some (f ((st.accounts didHash).getD default))) }

/-- `accounts.get_mut(k)`, then a write to it. -/
def modifyAccount (st : MemoryState) (didHash : String) (f : AccountRecord → AccountRecord) : MemoryState :=
  { st with accounts := Function.update st.accounts didHash ((st.accounts didHash).map f) }

end MemoryState

/-! ## Accounts -/

def accountExists (didHash : String) : StoreOp Bool := fun st => (.ok (st.accounts didHash).isSome, st)

def accountGet (didHash : String) : StoreOp (Option Account) := fun st =>
  (.ok ((st.accounts didHash).map fun record =>
    record.intoAccount didHash (((st.accessLists didHash).map List.length).getD 0)), st)

/-- Writes a whole new record, over one that may be there. -/
def accountAdd (didHash : String) (acls : MediatorACLSet) (queueLimit : Option ℕ) : StoreOp Account := fun st =>
  let knownDids := if st.knownDids.any (· = didHash) then st.knownDids else st.knownDids ++ [didHash]
  let limit := queueLimit.map fun n : ℕ => asI32 n
  let record : AccountRecord :=
    { (default : AccountRecord) with acls, queueSendLimit := limit, queueReceiveLimit := limit }
  (.ok (record.intoAccount didHash 0),
    { st with knownDids, accounts := Function.update st.accounts didHash (some record) })

def accountList (cursor limit : ℕ) : StoreOp MediatorAccountList := fun st =>
  let limit := min limit 100
  let dids := (st.knownDids.drop cursor).take limit
  let nextCursor := if cursor + dids.length ≥ st.knownDids.length then 0 else cursor + dids.length
  let accounts := dids.filterMap fun did => (st.accounts did).map fun record =>
    record.intoAccount did (((st.accessLists did).map List.length).getD 0)
  (.ok ⟨accounts, nextCursor⟩, st)

def accountSetRole (didHash : String) (accountType : AccountType) : StoreOp Unit := fun st =>
  let st := st.upsertAccount didHash fun record => { record with role := accountType }
  (.ok (), { st with
    admins := if accountType.isAdmin then insert didHash st.admins else st.admins.erase didHash })

/-- `-2` resets a limit, an absent one is left as it is. -/
def changeLimit (current requested : Option ℤ) : Option ℤ :=
  match requested with
  | some n => if n = -2 then none else some n
  | none => current

def accountChangeQueueLimits (didHash : String) (sendQueueLimit receiveQueueLimit : Option ℤ) :
    StoreOp Unit := fun st =>
  (.ok (), st.upsertAccount didHash fun record =>
    { record with
      queueSendLimit := changeLimit record.queueSendLimit sendQueueLimit
      queueReceiveLimit := changeLimit record.queueReceiveLimit receiveQueueLimit })

/-! ## ACLs and access lists -/

def setDidAcl (didHash : String) (acls : MediatorACLSet) : StoreOp MediatorACLSet := fun st =>
  (.ok acls, st.upsertAccount didHash fun record => { record with acls })

def getDidAcl (didHash : String) : StoreOp (Option MediatorACLSet) := fun st =>
  (.ok ((st.accounts didHash).map AccountRecord.acls), st)

def getDidAcls (dids : List String) (mediatorAclMode : AccessListModeType) :
    StoreOp MediatorACLGetResponse := fun st =>
  if dids.length > 100 then (.error (.databaseError 27 "memory" "# of DIDs cannot exceed 100"), st)
  else
    (.ok ⟨dids.filterMap fun did => (st.accounts did).map fun record => ⟨did, record.acls⟩, mediatorAclMode⟩, st)

/-- A prospective sender, from the recipient's side (`store/ops.rs`). -/
inductive Sender
  | anonymous
  | known (onAccessList : Bool)

def senderAllowed (recipientAcls : MediatorACLSet) : Sender → Bool
  | .anonymous => recipientAcls.getAnonReceive.1
  | .known onAccessList =>
    match recipientAcls.getAccessListMode.1 with
    | .explicitAllow => onAccessList
    | .explicitDeny => !onAccessList

def accessListAllowed (st : MemoryState) (toHash : String) (fromHash : Option String) : Bool :=
  match st.accounts toHash with
  | none => false
  | some account =>
    let sender := match fromHash with
      | some sender => .known (((st.accessLists toHash).map fun l => l.any (· = sender)).getD false)
      | none => .anonymous
    senderAllowed account.acls sender

def accessListList (didHash : String) (cursor : ℕ) : StoreOp MediatorAccessListListResponse := fun st =>
  let list := st.accessLists didHash
  let entries := ((list.map fun l => (l.drop cursor).take 100)).getD []
  let next := list.bind fun l => if cursor + entries.length ≥ l.length then none else some (cursor + entries.length)
  (.ok ⟨entries, next⟩, st)

/-- Append the hashes that are not on the list yet. -/
def pushNew (list : List String) : List String → List String
  | [] => list
  | h :: rest => pushNew (if list.any (· = h) then list else list ++ [h]) rest

def accessListAdd (accessListLimit : ℕ) (didHash : String) (hashes : List String) :
    StoreOp MediatorAccessListAddResponse := fun st =>
  let list := (st.accessLists didHash).getD []
  let truncated := decide (list.length + hashes.length > accessListLimit)
  let toAdd := if truncated then hashes.take (accessListLimit - list.length) else hashes
  (.ok ⟨toAdd, truncated⟩,
    { st with accessLists := Function.update st.accessLists didHash (some (pushNew list toAdd)) })

def accessListRemove (didHash : String) (hashes : List String) : StoreOp ℕ := fun st =>
  match st.accessLists didHash with
  | none => (.ok 0, st)
  | some list =>
    let kept := list.filter fun d => !hashes.contains d
    (.ok (list.length - kept.length),
      { st with accessLists := Function.update st.accessLists didHash (some kept) })

def accessListClear (didHash : String) : StoreOp Unit := fun st =>
  (.ok (), { st with accessLists := Function.update st.accessLists didHash none })

def accessListGet (didHash : String) (hashes : List String) : StoreOp (List String) := fun st =>
  (.ok (match st.accessLists didHash with
    | some list => hashes.filter fun h => list.any (· = h)
    | none => []), st)

/-! ## Admin accounts -/

def setupAdminAccount (adminDidHash : String) (adminType : AccountType) (acls : MediatorACLSet) :
    StoreOp Unit := fun st =>
  let st := if (st.accounts adminDidHash).isSome then st else (accountAdd adminDidHash acls none st).2
  let st := st.modifyAccount adminDidHash fun record => { record with role := adminType }
  (.ok (), { st with admins := insert adminDidHash st.admins })

def checkAdminAccount (didHash : String) : StoreOp Bool := fun st =>
  if didHash ∈ st.admins then
    let role := (st.accounts didHash).map AccountRecord.role
    (.ok (role = some .admin ∨ role = some .rootAdmin), st)
  else (.ok false, st)

/-- The trait's loop over `setup_admin_account`. -/
def addAdminAccounts (accounts : List String) (acls : MediatorACLSet) : StoreOp ℕ := fun st =>
  (.ok accounts.length, accounts.foldl (fun st didHash => (setupAdminAccount didHash .admin acls st).2) st)

/-- The trait's loop over `account_set_role`. -/
def stripAdminAccounts (accounts : List String) : StoreOp ℕ := fun st =>
  (.ok accounts.length, accounts.foldl (fun st didHash => (accountSetRole didHash .standard st).2) st)

/-- The members of a set, in order. -/
def sorted (s : Finset String) : List String := s.sort (· ≤ ·)

def listAdminAccounts (cursor limit : ℕ) : StoreOp MediatorAdminList := fun st =>
  let limit := min limit 100
  let adminDids := sorted st.admins
  let page := (adminDids.drop cursor).take limit
  let next := if cursor + page.length ≥ adminDids.length then 0 else cursor + page.length
  let accounts := page.map fun did => ⟨did, ((st.accounts did).map AccountRecord.role).getD .unknown⟩
  (.ok ⟨accounts, next⟩, st)

/-! ## The audit log -/

def auditLogRecord (entry : AuditLogEntry) : StoreOp Unit := fun st =>
  (.ok (), { st with auditLog := (entry :: st.auditLog).take auditLogMaxEntries })

def auditLogList (cursor limit : ℕ) : StoreOp MediatorAuditLogList := fun st =>
  let limit := min limit 100
  let entries := (st.auditLog.drop cursor).take limit
  let next := if cursor + entries.length ≥ st.auditLog.length then 0 else cursor + entries.length
  (.ok ⟨entries, next⟩, st)

/-! ## Messages -/

/-- `store_message`; `digest` is the hash of the body. The source reads the wall clock for the record's time and for
each stream id, here once: whatever is read an id is above the last one, and no time is compared with an id. -/
def storeMessage (digest : String → String) (nowMs : ℕ) (message toDidHash : String) (fromHash : Option String)
    (expiresAt : ℕ) : StoreOp String := fun st =>
  let msgId := digest message
  let bytes := message.utf8ByteSize
  let sender := ((fromHash.filter fun s => !s.isEmpty)).getD "ANONYMOUS"
  let (receiveId, st) := st.allocStreamId nowMs
  let (sendId, st) : Option StreamId × MemoryState :=
    if sender ≠ "ANONYMOUS" then
      let (sid, st) := st.allocStreamId nowMs
      (some sid, st)
    else (none, st)
  let st := { st with
    inbox := Function.update st.inbox toDidHash
      (some (((st.inbox toDidHash).getD .empty).insert receiveId ⟨msgId, bytes, sender⟩)) }
  let st := match sendId with
    | none => st
    | some sid =>
      ({ st with
        outbox := Function.update st.outbox sender
          (some (((st.outbox sender).getD .empty).insert sid ⟨msgId, bytes, toDidHash⟩)) }).upsertAccount
        sender fun record => { record with
          sendQueueCount := saturatingAddU32 record.sendQueueCount 1
          sendQueueBytes := saturatingAddU64 record.sendQueueBytes bytes }
  let st := st.upsertAccount toDidHash fun record => { record with
    receiveQueueCount := saturatingAddU32 record.receiveQueueCount 1
    receiveQueueBytes := saturatingAddU64 record.receiveQueueBytes bytes }
  let st := (st.incrCounter "RECEIVED_BYTES" bytes).incrCounter "RECEIVED_COUNT" 1
  let st := st.indexExpiry expiresAt msgId
  let record : MessageRecord :=
    { body := message
      bytes
      toDidHash
      fromDidHash := if sender = "ANONYMOUS" then none else some sender
      timestampMs := nowMs
      receiveId
      sendId
      expiresAt }
  (.ok msgId, { st with messages := Function.update st.messages msgId (some record) })

/-- An owner must be the recipient or the named sender (`store/ops.rs`). -/
def deleteMessagePermitted (authority : DeletionAuthority) (toDidHash : String) (fromDidHash : Option String) :
    Bool :=
  match authority with
  | .admin _ => true
  | .owner didHash => didHash = toDidHash || fromDidHash = some didHash

/-- The account of a message's sender, one message less in its queue. -/
def AccountRecord.dropSent (record : AccountRecord) (bytes : ℕ) : AccountRecord :=
  { record with
    sendQueueCount := record.sendQueueCount - 1
    sendQueueBytes := record.sendQueueBytes - bytes }

/-- The account of a message's recipient, one message less in its queue. -/
def AccountRecord.dropReceived (record : AccountRecord) (bytes : ℕ) : AccountRecord :=
  { record with
    receiveQueueCount := record.receiveQueueCount - 1
    receiveQueueBytes := record.receiveQueueBytes - bytes }

/-- Take a stored message out of its streams, the counters and the expiry index. -/
def MemoryState.removeMessage (st : MemoryState) (messageHash : String) (record : MessageRecord) :
    MemoryState :=
  let st := { st with
    inbox := Function.update st.inbox record.toDidHash
      ((st.inbox record.toDidHash).map fun stream => OrdMap.erase stream record.receiveId) }
  let st := match record.fromDidHash, record.sendId with
    | some sender, some sid =>
      ({ st with
        outbox := Function.update st.outbox sender
          ((st.outbox sender).map fun stream => OrdMap.erase stream sid) }).modifyAccount
        sender fun account => account.dropSent record.bytes
    | _, _ => st
  let st := st.modifyAccount record.toDidHash fun account => account.dropReceived record.bytes
  let st := st.unindexExpiry record.expiresAt messageHash
  let st := (st.incrCounter "DELETED_BYTES" record.bytes).incrCounter "DELETED_COUNT" 1
  { st with messages := Function.update st.messages messageHash none }

def deleteMessage (messageHash : String) (authority : DeletionAuthority) : StoreOp Unit := fun st =>
  match st.messages messageHash with
  | none => (.error (.internalError 404 "memory" s!"NOT_FOUND: message_hash ({messageHash})"), st)
  | some record =>
    if !deleteMessagePermitted authority record.toDidHash record.fromDidHash then
      (.error (.internalError 403 "memory"
        "PERMISSION_DENIED: requesting DID does not own this message"), st)
    else (.ok (), st.removeMessage messageHash record)

def folderStream (folder : Folder) (st : MemoryState) (didHash : String) :
    Option (OrdMap StreamId StreamEntry) :=
  match folder with
  | .inbox => st.inbox didHash
  | .outbox => st.outbox didHash

def deleteFolderStream (didHash : String) (folder : Folder) : StoreOp Unit := fun st =>
  match folder with
  | .inbox => (.ok (), { st with inbox := Function.update st.inbox didHash none })
  | .outbox => (.ok (), { st with outbox := Function.update st.outbox didHash none })

/-- The deletion loop of `purge_folder`: owner-authority deletes, failures skipped, with the count
and the bytes deleted. -/
def purgeLoop (didHash : String) : List String → MemoryState → (ℕ × ℕ) × MemoryState
  | [], st => ((0, 0), st)
  | msgId :: rest, st =>
    let bytesBefore := ((st.messages msgId).map MessageRecord.bytes).getD 0
    match deleteMessage msgId (.owner didHash) st with
    | (.ok _, st) =>
      let ((count, bytes), st) := purgeLoop didHash rest st
      ((count + 1, bytes + bytesBefore), st)
    | (.error _, st) => purgeLoop didHash rest st

def purgeFolder (didHash : String) (folder : Folder) : StoreOp (ℕ × ℕ) := fun st =>
  let msgIds := ((folderStream folder st didHash).map fun s => s.values.map StreamEntry.msgId).getD []
  let (counts, st) := purgeLoop didHash msgIds st
  (.ok counts, (deleteFolderStream didHash folder st).2)

/-- Refuses the protected roles; then blocks the account, drops its outbox, purges its inbox and
forgets it. -/
def accountRemove (didHash : String) : StoreOp Bool := fun st =>
  match (st.accounts didHash).map AccountRecord.role with
  | some .mediator | some .rootAdmin =>
    (.error (.internalError 18 "memory" "Cannot remove the mediator or root admin account"), st)
  | _ =>
    let st := (setDidAcl didHash ((default : MediatorACLSet).setBlocked true) st).2
    let st := (deleteFolderStream didHash .outbox st).2
    let st := (purgeFolder didHash .inbox st).2
    (.ok true, { st with
      accounts := Function.update st.accounts didHash none
      accessLists := Function.update st.accessLists didHash none
      admins := st.admins.erase didHash
      knownDids := st.knownDids.filter fun d => d ≠ didHash })

end AffinidiTdk.Store
