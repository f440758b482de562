/-
The embedded store (`store/fjall_store.rs`) as far as it keeps messages: partitions are ordered maps
from byte strings to records, written by batches that succeed as a whole. The JSON coding of the
records is left out, and so are failing reads and commits.
-/
import AffinidiTdk.Lib.Bytes
import AffinidiTdk.Store.Folders

namespace AffinidiTdk.Store.Fjall

open Acl Bytes

/-! ## State -/

/-- An account as it is written; the ACL is its bitmask. -/
structure StoredAccount where
  role : AccountType
  acls : BitVec 64
  sendQueueCount : ℕ
  sendQueueBytes : ℕ
  receiveQueueCount : ℕ
  receiveQueueBytes : ℕ
  queueSendLimit : Option ℤ
  queueReceiveLimit : Option ℤ

instance : Inhabited StoredAccount := ⟨⟨.standard, 0, 0, 0, 0, 0, none, none⟩⟩

def StoredAccount.intoAccount (record : StoredAccount) (didHash : String) (accessListCount : ℕ) : Account :=
  { didHash
    acls := record.acls
    type := record.role
    accessListCount
    queueSendLimit := record.queueSendLimit
    queueReceiveLimit := record.queueReceiveLimit
    sendQueueCount := record.sendQueueCount
    sendQueueBytes := record.sendQueueBytes
    receiveQueueCount := record.receiveQueueCount
    receiveQueueBytes := record.receiveQueueBytes }

/-- A partition: byte strings in byte order. -/
abbrev Partition (β : Type) := OrdMap (List ℕ) β

/-- The entries from one key to another, both included. -/
def Partition.range {β : Type} (p : Partition β) (start stop : List ℕ) : List (List ℕ × β) :=
  p.entries.filter fun e => decide (start ≤ e.1 ∧ e.1 ≤ stop)

/-- The partitions of the store, its counters and its clock. -/
structure FjallState where
  messages : Partition MessageRecord
  inbox : Partition StreamEntry
  outbox : Partition StreamEntry
  expiry : Partition Unit
  accounts : Partition StoredAccount
  globals : String → ℤ
  lastStreamMs : ℕ
  nextStreamSeq : ℕ

instance : Inhabited FjallState := ⟨⟨.empty, .empty, .empty, .empty, .empty, fun _ => 0, 0, 0⟩⟩

/-- A call: an outcome and the state after it. -/
abbrev FjallOp (α : Type) := FjallState → Except MediatorError α × FjallState

/-! ## Keys -/

def encodeStreamId (sid : StreamId) : List ℕ := beBytes 8 (ofLex sid).1 ++ beBytes 8 (ofLex sid).2

def decodeStreamId (bytes : List ℕ) : Option StreamId :=
  if bytes.length ≠ 16 then none
  else some (toLex (ofBeBytes (bytes.take 8), ofBeBytes (bytes.drop 8)))

/-- The key of a folder entry: the DID hash, then the stream id. -/
def streamKey (didHash : String) (sid : StreamId) : List ℕ := ofString didHash ++ encodeStreamId sid

def expiryKey (expiresAt : ℕ) (msgId : String) : List ℕ := beBytes 8 expiresAt ++ ofString msgId

/-- The check on every key a folder scan meets. -/
def ownKey (didHash : String) (key : List ℕ) : Bool :=
  !(key.length < (ofString didHash).length + 16 || key.take (ofString didHash).length ≠ ofString didHash)

namespace FjallState

def allocStreamId (st : FjallState) (nowMs : ℕ) : StreamId × FjallState :=
  if nowMs > st.lastStreamMs then
    (toLex (nowMs, 0), { st with lastStreamMs := nowMs, nextStreamSeq := 0 })
  else (toLex (st.lastStreamMs, st.nextStreamSeq + 1), { st with nextStreamSeq := st.nextStreamSeq + 1 })

/-- Counters are `i64` and saturate. -/
def bumpGlobal (st : FjallState) (name : String) (n : ℤ) : FjallState :=
  let new := max (-2 ^ 63) (min (st.globals name + n) (2 ^ 63 - 1))
  { st with globals := Function.update st.globals name new }

end FjallState

/-! ## Messages -/

/-- The recipient's account with one message more. -/
def StoredAccount.received (record : StoredAccount) (bytes : ℕ) : StoredAccount :=
  { record with
    receiveQueueCount := saturatingAddU32 record.receiveQueueCount 1
    receiveQueueBytes := saturatingAddU64 record.receiveQueueBytes bytes }

/-- The sender's account with one message more. -/
def StoredAccount.sent (record : StoredAccount) (bytes : ℕ) : StoredAccount :=
  { record with
    sendQueueCount := saturatingAddU32 record.sendQueueCount 1
    sendQueueBytes := saturatingAddU64 record.sendQueueBytes bytes }

/-- `store_message`: both accounts are read before either is written. One reading of the clock stands for the
source's three, as in the in-memory store; `storeMessageAt` has all of them. -/
def storeMessage (digest : String → String) (nowMs : ℕ) (message toDidHash : String) (fromHash : Option String)
    (expiresAt : ℕ) : FjallOp String := fun st =>
  let msgId := digest message
  let bytes := message.utf8ByteSize
  let sender := (fromHash.filter fun s => !s.isEmpty).getD "ANONYMOUS"
  let (receiveId, st) := st.allocStreamId nowMs
  let (sendId, st) : Option StreamId × FjallState :=
    if sender ≠ "ANONYMOUS" then
      let (sid, st) := st.allocStreamId nowMs
      (some sid, st)
    else (none, st)
  let stored : MessageRecord :=
    { body := message
      bytes
      toDidHash
      fromDidHash := if sender = "ANONYMOUS" then none else some sender
      timestampMs := nowMs
      receiveId
      sendId
      expiresAt }
  let recvAccount := ((st.accounts.get? (ofString toDidHash)).getD default).received bytes
  let senderAccount := if sender ≠ "ANONYMOUS" then
      some (((st.accounts.get? (ofString sender)).getD default).sent bytes)
    else none
  let accounts := st.accounts.insert (ofString toDidHash) recvAccount
  let st := { st with
    messages := st.messages.insert (ofString msgId) stored
    inbox := st.inbox.insert (streamKey toDidHash receiveId) ⟨msgId, bytes, sender⟩
    outbox := match sendId with
      | some sid => st.outbox.insert (streamKey sender sid) ⟨msgId, bytes, toDidHash⟩
      | none => st.outbox
    accounts := match senderAccount with
      | some account => accounts.insert (ofString sender) account
      | none => accounts
    expiry := if expiresAt > 0 then st.expiry.insert (expiryKey expiresAt msgId) () else st.expiry }
  (.ok msgId, (st.bumpGlobal "RECEIVED_BYTES" bytes).bumpGlobal "RECEIVED_COUNT" 1)

/-- Take a stored message out of every partition, again with both accounts read first. -/
def FjallState.removeMessage (st : FjallState) (messageHash : String) (stored : MessageRecord) : FjallState :=
  let recvAccount := st.accounts.get? (ofString stored.toDidHash)
  let senderAccount := stored.fromDidHash.bind fun sender =>
    (st.accounts.get? (ofString sender)).map fun account =>
      (ofString sender, { account with
        sendQueueCount := account.sendQueueCount - 1
        sendQueueBytes := account.sendQueueBytes - stored.bytes })
  let accounts := match recvAccount with
    | some account => st.accounts.insert (ofString stored.toDidHash) { account with
        receiveQueueCount := account.receiveQueueCount - 1
        receiveQueueBytes := account.receiveQueueBytes - stored.bytes }
    | none => st.accounts
  let st := { st with
    messages := st.messages.erase (ofString messageHash)
    inbox := st.inbox.erase (streamKey stored.toDidHash stored.receiveId)
    outbox := match stored.fromDidHash, stored.sendId with
      | some sender, some sid => st.outbox.erase (streamKey sender sid)
      | _, _ => st.outbox
    accounts := match senderAccount with
      | some (key, account) => accounts.insert key account
      | none => accounts
    expiry := if stored.expiresAt > 0 then st.expiry.erase (expiryKey stored.expiresAt messageHash) else st.expiry }
  (st.bumpGlobal "DELETED_BYTES" stored.bytes).bumpGlobal "DELETED_COUNT" 1

def deleteMessage (messageHash : String) (authority : DeletionAuthority) : FjallOp Unit := fun st =>
  match st.messages.get? (ofString messageHash) with
  | none => (.error (.internalError 404 "fjall" s!"NOT_FOUND: message_hash ({messageHash})"), st)
  | some stored =>
    if !deleteMessagePermitted authority stored.toDidHash stored.fromDidHash then
      (.error (.internalError 403 "fjall"
        "PERMISSION_DENIED: requesting DID does not own this message"), st)
    else (.ok (), st.removeMessage messageHash stored)

/-- A message, for its recipient and its sender only. -/
def getMessage (didHash msgId : String) : FjallOp (Option MessageListElement) := fun st =>
  (.ok ((st.messages.get? (ofString msgId)).bind fun stored =>
    if didHash = stored.toDidHash ∨ stored.fromDidHash = some didHash then
      some
        { msgId
          sendId := stored.sendId
          receiveId := some stored.receiveId
          size := stored.bytes
          timestamp := stored.timestampMs
          toAddress := some stored.toDidHash
          fromAddress := stored.fromDidHash
          msg := some stored.body
          protocol := some (.detect stored.body) }
    else none), st)

/-! ## Folders -/

def FjallState.folder (st : FjallState) : Folder → Partition StreamEntry
  | .inbox => st.inbox
  | .outbox => st.outbox

def listMessages (didHash : String) (folder : Folder) (range : Option (StreamId × StreamId)) (limit : ℕ) :
    FjallOp (List MessageListElement) := fun st =>
  let (start, stop) := range.getD (toLex (0, 0), .max)
  let page := ((st.folder folder).range (streamKey didHash start) (streamKey didHash stop)).take limit
  (.ok (page.filterMap fun e =>
    if ownKey didHash e.1 then
      (decodeStreamId ((e.1.drop (ofString didHash).length).take 16)).map fun sid => e.2.listElement folder sid
    else none), st)

/-- All entries of a folder, as a purge scans them. -/
def FjallState.ownEntries (st : FjallState) (folder : Folder) (didHash : String) : List (List ℕ × StreamEntry) :=
  ((st.folder folder).range (streamKey didHash (toLex (0, 0))) (streamKey didHash .max)).filter fun e =>
    ownKey didHash e.1

def deleteFolderStream (didHash : String) (folder : Folder) : FjallOp Unit := fun st =>
  let keys := (st.ownEntries folder didHash).map Prod.fst
  match folder with
  | .inbox => (.ok (), { st with inbox := keys.foldl (fun p k => p.erase k) st.inbox })
  | .outbox => (.ok (), { st with outbox := keys.foldl (fun p k => p.erase k) st.outbox })

def purgeLoop (didHash : String) : List String → FjallState → (ℕ × ℕ) × FjallState
  | [], st => ((0, 0), st)
  | msgId :: rest, st =>
    let bytesBefore := ((st.messages.get? (ofString msgId)).map MessageRecord.bytes).getD 0
    match deleteMessage msgId (.owner didHash) st with
    | (.ok _, st) =>
      let ((count, bytes), st) := purgeLoop didHash rest st
      ((count + 1, bytes + bytesBefore), st)
    | (.error _, st) => purgeLoop didHash rest st

def purgeFolder (didHash : String) (folder : Folder) : FjallOp (ℕ × ℕ) := fun st =>
  let (counts, st) := purgeLoop didHash ((st.ownEntries folder didHash).map fun e => e.2.msgId) st
  (.ok counts, (deleteFolderStream didHash folder st).2)

/-! ## Accounts -/

/-- Writes a whole new record, over one that may be there. -/
def accountAdd (didHash : String) (acls : MediatorACLSet) (queueLimit : Option ℕ) : FjallOp Account := fun st =>
  let limit := queueLimit.map fun n : ℕ => asI32 n
  let record : StoredAccount :=
    { (default : StoredAccount) with acls := acls.toU64, queueSendLimit := limit, queueReceiveLimit := limit }
  (.ok (record.intoAccount didHash 0), { st with accounts := st.accounts.insert (ofString didHash) record })

end AffinidiTdk.Store.Fjall
