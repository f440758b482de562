/-
Fetching from the embedded store, and its sweep of what has expired (`store/fjall_store.rs`). Stream ids stand for
their texts, as in the in-memory store.
-/
import AffinidiTdk.Lib.Text
import AffinidiTdk.Store.Fjall

namespace AffinidiTdk.Store.Fjall

open Bytes

/-! ## Fetching -/

/-- Where a scan begins: at the cursor itself, or before every stream id. -/
def startKey (didHash : String) (start : Option StreamId) : List ℕ :=
  match start with
  | some sid => streamKey didHash sid
  | none => ofString didHash ++ List.replicate 16 0

/-- The stream id of a scanned key, if the key is the DID's own. -/
def ownId (didHash : String) (key : List ℕ) : Option StreamId :=
  if ownKey didHash key then decodeStreamId ((key.drop (ofString didHash).length).take 16) else none

/-- The scan takes up to `limit` keys and leaves the cursor's own entry out afterwards. -/
def fetchEntries (didHash : String) (options : FetchOptions) (st : FjallState) : List (StreamId × StreamEntry) :=
  ((st.inbox.range (startKey didHash options.startId) (streamKey didHash .max)).take options.limit).filterMap
    fun e =>
    (ownId didHash e.1).bind fun sid => if options.startId = some sid then none else some (sid, e.2)

/-- What a fetch returns of one stream entry. -/
def fetchElement (didHash : String) (st : FjallState) (sid : StreamId) (entry : StreamEntry) : MessageListElement :=
  { (default : MessageListElement) with
    msgId := entry.msgId
    receiveId := some sid
    size := entry.bytes
    timestamp := (ofLex sid).1
    fromAddress := some entry.peerDid
    toAddress := some didHash
    msg := (st.messages.get? (ofString entry.msgId)).map MessageRecord.body }

/-- The body of each entry, then, with the optimistic policy, its deletion in the owner's name. -/
def fetchLoop (didHash : String) (optimistic : Bool) :
    List (StreamId × StreamEntry) → FjallState → GetMessagesResponse × FjallState
  | [], st => (⟨[], [], []⟩, st)
  | (sid, entry) :: rest, st =>
    let element := fetchElement didHash st sid entry
    if optimistic then
      match deleteMessage entry.msgId (.owner didHash) st with
      | (.ok _, st) =>
        let (response, st) := fetchLoop didHash optimistic rest st
        ({ response with success := element :: response.success }, st)
      | (.error e, st) =>
        let (response, st) := fetchLoop didHash optimistic rest st
        ({ response with
          success := { element with msg := none } :: response.success
          deleteErrors := (entry.msgId, e.display) :: response.deleteErrors }, st)
    else
      let (response, st) := fetchLoop didHash optimistic rest st
      ({ response with success := element :: response.success }, st)

def fetchMessages (didHash : String) (options : FetchOptions) : FjallOp GetMessagesResponse := fun st =>
  let (response, st) := fetchLoop didHash (options.deletePolicy = .optimistic) (fetchEntries didHash options st) st
  (.ok response, st)

/-! ## Expiry -/

/-- The keys of the index up to `nowSecs`: a time in eight bytes, then a message id. -/
def dueKeys (nowSecs : ℕ) (st : FjallState) : List (List ℕ) :=
  ((st.expiry.range (List.replicate 72 0) (beBytes 8 nowSecs ++ List.replicate 64 255)).map Prod.fst).filter
    fun key =>
    !(key.length < 8)

/-- `String::from_utf8(..).unwrap_or_default()`. -/
def stringOf (bytes : List ℕ) : String := (Text.fromUtf8 (bytes.map UInt8.ofNat)).getD ""

theorem stringOf_ofString (s : String) : stringOf (ofString s) = s := by
  have hbytes : (ofString s).map UInt8.ofNat = Text.utf8 s := by
    rw [ofString, List.map_map]
    exact (List.map_congr_left fun b _ => UInt8.ofNat_toNat).trans (List.map_id _)
  rw [stringOf, hbytes, Text.fromUtf8_utf8]
  rfl

/-- The deletions of a sweep, in the administrator's name; a message that is gone is counted as deleted already. -/
def sweepLoop (adminDidHash : String) : List String → FjallState → (ℕ × ℕ) × FjallState
  | [], st => ((0, 0), st)
  | msgId :: rest, st =>
    match deleteMessage msgId (.admin adminDidHash) st with
    | (.ok _, st) =>
      let ((expired, gone), st) := sweepLoop adminDidHash rest st
      ((expired + 1, gone), st)
    | (.error _, st) =>
      let ((expired, gone), st) := sweepLoop adminDidHash rest st
      ((expired, gone + 1), st)

/-- The changes of the time along the keys, counted from a time or from none. -/
def timeslots : Option (List ℕ) → List (List ℕ) → ℕ
  | _, [] => 0
  | last, key :: rest =>
    if last = some (key.take 8) then timeslots last rest else 1 + timeslots (some (key.take 8)) rest

/-- Only the messages are deleted, each with what its record says of the index; the keys are not. -/
def sweepExpiredMessages (nowSecs : ℕ) (adminDidHash : String) : FjallOp ExpiryReport := fun st =>
  let keys := dueKeys nowSecs st
  let toDelete := (keys.map fun key => stringOf (key.drop 8)).filter fun msgId => !msgId.isEmpty
  let ((expired, alreadyDeleted), st) := sweepLoop adminDidHash toDelete st
  (.ok ⟨timeslots none keys, expired, alreadyDeleted⟩, st)

end AffinidiTdk.Store.Fjall
