/-
Reading the folders of the in-memory store (`list_messages`, `fetch_messages`, `get_message`) and
sweeping what has expired. Stream ids stand for their texts; a text that is none is as if the caller
had given no id.
-/
import AffinidiTdk.Store.Memory

namespace AffinidiTdk.Store

/-! ## Elements of a folder -/

/-- The protocol a stored text is taken for. -/
inductive MessageProtocol
  | didComm
  | tsp
  | other
  deriving DecidableEq

/-- From the first characters of the stored text. -/
def MessageProtocol.detect (message : String) : MessageProtocol :=
  if message.startsWith "-E" then .tsp
  else if message.startsWith "\x7b" || message.startsWith "ey" then .didComm
  else .other

/-- A message as a list or a fetch gives it. -/
structure MessageListElement where
  msgId : String
  sendId : Option StreamId
  receiveId : Option StreamId
  size : ℕ
  timestamp : ℕ
  toAddress : Option String
  fromAddress : Option String
  msg : Option String
  protocol : Option MessageProtocol
  deriving DecidableEq

instance : Inhabited MessageListElement := ⟨⟨"", none, none, 0, 0, none, none, none, none⟩⟩

/-- When a fetched message is deleted. -/
inductive FetchDeletePolicy
  | optimistic
  | onReceive
  | doNotDelete
  deriving DecidableEq

/-- What a fetch asks for. -/
structure FetchOptions where
  limit : ℕ
  startId : Option StreamId
  deletePolicy : FetchDeletePolicy

instance : Inhabited FetchOptions := ⟨⟨10, none, .doNotDelete⟩⟩

/-- What a fetch found and what failed. -/
structure GetMessagesResponse where
  success : List MessageListElement
  getErrors : List (String × String)
  deleteErrors : List (String × String)
  deriving DecidableEq

/-- The counts of a sweep. -/
structure ExpiryReport where
  timeslotsSwept : ℕ
  expired : ℕ
  alreadyDeleted : ℕ

/-! ## Reads -/

/-- A message, for its recipient and its sender only. -/
def getMessage (didHash msgId : String) : StoreOp (Option MessageListElement) := fun st =>
  (.ok ((st.messages msgId).bind fun record =>
    if didHash = record.toDidHash ∨ record.fromDidHash = some didHash then
      some
        { msgId
          sendId := record.sendId
          receiveId := some record.receiveId
          size := record.bytes
          timestamp := record.timestampMs
          toAddress := some record.toDidHash
          fromAddress := record.fromDidHash
          msg := some record.body
          protocol := some (.detect record.body) }
    else none), st)

/-- `u64::MAX` in both places, the upper end of an open range. -/
def StreamId.max : StreamId := toLex (2 ^ 64 - 1, 2 ^ 64 - 1)

/-- What a folder listing shows of one stream entry. -/
def StreamEntry.listElement (folder : Folder) (sid : StreamId) (entry : StreamEntry) : MessageListElement :=
  let element : MessageListElement :=
    { (default : MessageListElement) with msgId := entry.msgId, size := entry.bytes, timestamp := (ofLex sid).1 }
  match folder with
  | .inbox => { element with receiveId := some sid, fromAddress := some entry.peerDid }
  | .outbox => { element with sendId := some sid, toAddress := some entry.peerDid }

def listMessages (didHash : String) (folder : Folder) (range : Option (StreamId × StreamId)) (limit : ℕ) :
    StoreOp (List MessageListElement) := fun st =>
  let (start, stop) := range.getD (toLex (0, 0), .max)
  match folderStream folder st didHash with
  | none => (.ok [], st)
  | some stream =>
    (.ok (((stream.entries.filter fun e => decide (start ≤ e.1 ∧ e.1 ≤ stop)).take limit).map fun e =>
      e.2.listElement folder e.1), st)

/-! ## Fetching -/

/-- The entries of the inbox past the start, at most `limit` of them. -/
def fetchEntries (didHash : String) (options : FetchOptions) (st : MemoryState) : List (StreamId × StreamEntry) :=
  match st.inbox didHash with
  | none => []
  | some stream =>
    (stream.entries.filter fun e =>
      match options.startId with
      | some start => decide (start < e.1)
      | none => true).take options.limit

/-- What a fetch returns of one stream entry. -/
def StreamEntry.fetchElement (didHash : String) (st : MemoryState) (sid : StreamId) (entry : StreamEntry) :
    MessageListElement :=
  { (default : MessageListElement) with
    msgId := entry.msgId
    receiveId := some sid
    size := entry.bytes
    timestamp := (ofLex sid).1
    fromAddress := some entry.peerDid
    toAddress := some didHash
    msg := (st.messages entry.msgId).map MessageRecord.body }

/-- The body of each entry, then, with the optimistic policy, its deletion in the owner's name. -/
def fetchLoop (didHash : String) (optimistic : Bool) :
    List (StreamId × StreamEntry) → MemoryState → GetMessagesResponse × MemoryState
  | [], st => (⟨[], [], []⟩, st)
  | (sid, entry) :: rest, st =>
    let element := entry.fetchElement didHash st sid
    if optimistic then
      match deleteMessage entry.msgId (.owner didHash) st with
      | (.ok _, st) =>
        let (response, st) := fetchLoop didHash optimistic rest st
        ({ response with success := element :: response.success }, st)
      | (.error e, st) =>
        let (response, st) := fetchLoop didHash optimistic rest st
        ({ response with
          success := { element with msg := none } :: response.success
          deleteErrors := (entry.msgId, e.display) :: response.deleteErrors }, st)
    else
      let (response, st) := fetchLoop didHash optimistic rest st
      ({ response with success := element :: response.success }, st)

def fetchMessages (didHash : String) (options : FetchOptions) : StoreOp GetMessagesResponse := fun st =>
  let (response, st) := fetchLoop didHash (options.deletePolicy = .optimistic) (fetchEntries didHash options st) st
  (.ok response, st)

/-! ## Expiry -/

/-- The messages of one timeslot, deleted in the administrator's name. -/
def sweepSlot (adminDidHash : String) : List String → MemoryState → (ℕ × ℕ) × MemoryState
  | [], st => ((0, 0), st)
  | msgId :: rest, st =>
    match deleteMessage msgId (.admin adminDidHash) st with
    | (.ok _, st) =>
      let ((expired, gone), st) := sweepSlot adminDidHash rest st
      ((expired + 1, gone), st)
    | (.error _, st) =>
      let ((expired, gone), st) := sweepSlot adminDidHash rest st
      ((expired, gone + 1), st)

/-- Each due slot: its messages, then the slot itself. -/
def sweepSlots (adminDidHash : String) : List (ℕ × List String) → MemoryState → (ℕ × ℕ) × MemoryState
  | [], st => ((0, 0), st)
  | (slot, ids) :: rest, st =>
    let ((expired, gone), st) := sweepSlot adminDidHash ids st
    let st := { st with expiry := Function.update st.expiry slot ∅ }
    let ((expired', gone'), st) := sweepSlots adminDidHash rest st
    ((expired + expired', gone + gone'), st)

/-- The slots up to `nowSecs` that hold a message. -/
def dueSlots (nowSecs : ℕ) (st : MemoryState) : List (ℕ × List String) :=
  ((List.range (nowSecs + 1)).filter fun slot => decide ((st.expiry slot).Nonempty)).map fun slot =>
    (slot, sorted (st.expiry slot))

def sweepExpiredMessages (nowSecs : ℕ) (adminDidHash : String) : StoreOp ExpiryReport := fun st =>
  let due := dueSlots nowSecs st
  let ((expired, alreadyDeleted), st) := sweepSlots adminDidHash due st
  (.ok ⟨due.length, expired, alreadyDeleted⟩, st)

end AffinidiTdk.Store
