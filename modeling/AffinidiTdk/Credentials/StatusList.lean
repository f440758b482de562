/-
Bitstring status lists (`affinidi-status-list`, `bitstring.rs`) and what their runs do. A list keeps
the status bits and, beside them, which indices are taken; the random picks are given to each call.
The statements are about the record of a run: what each call returned, and for decoys the bits that
went from clear to set.
-/
import AffinidiTdk.Lib.Base64
import AffinidiTdk.Lib.Bitstring
import AffinidiTdk.Lib.Except

namespace AffinidiTdk.Credentials

/-- The error kinds of a status list. -/
inductive StatusListError
  | indexOutOfBounds (index size : ℕ)
  | compression (msg : String)
  | encoding
  | invalid (msg : String)
  deriving DecidableEq

/-- What a set bit means. -/
inductive StatusPurpose
  | revocation
  | suspension
  deriving DecidableEq

/-- The bits of a list and which of its indices are handed out. -/
structure BitstringStatusList where
  bits : List UInt8
  size : ℕ
  purpose : StatusPurpose
  assigned : List Bool
  deriving DecidableEq

/-- Compression: `GzEncoder`, and what reading at most so many bytes from a `GzDecoder` gives. -/
structure Gzip where
  compress : List UInt8 → List UInt8
  inflate : ℕ → List UInt8 → Except String (List UInt8)

/-- Nothing is lost in compression. -/
def Gzip.Lossless (gzip : Gzip) : Prop := ∀ limit bytes, gzip.inflate limit (gzip.compress bytes) =
    .ok (bytes.take limit)

namespace BitstringStatusList

/-! ## Operations -/

def new (size : ℕ) (purpose : StatusPurpose) : BitstringStatusList :=
  ⟨List.replicate ((size + 7) / 8) 0, size, purpose, List.replicate size false⟩

def isAssigned (l : BitstringStatusList) (index : ℕ) : Bool := l.assigned.getD index false

def available (l : BitstringStatusList) : List ℕ := (List.range l.size).filter fun i => !l.isAssigned i

/-- The index with the picked place among those that are free; the pick is below their number. -/
def allocateIndex (l : BitstringStatusList) (pick : ℕ) : Option ℕ × BitstringStatusList :=
  match l.available[pick]? with
  | none => (none, l)
  | some index => (some index, { l with assigned := l.assigned.set index true })

def get (l : BitstringStatusList) (index : ℕ) : Except StatusListError Bool :=
  if index ≥ l.size then .error (.indexOutOfBounds index l.size) else .ok (Bitstring.get l.bits index)

def set (l : BitstringStatusList) (index : ℕ) (revoked : Bool) : Except StatusListError BitstringStatusList :=
  if index ≥ l.size then .error (.indexOutOfBounds index l.size)
  else .ok { l with bits := Bitstring.put l.bits index revoked, assigned := l.assigned.set index true }

def addDecoy (l : BitstringStatusList) (index : ℕ) : BitstringStatusList :=
  { l with bits := Bitstring.put l.bits index true, assigned := l.assigned.set index true }

/-- The loop of `add_decoys` with so many decoys to go, on the indices that are drawn; none where it
has not ended with the last of them. -/
def addDecoys (l : BitstringStatusList) : ℕ → List ℕ → Option BitstringStatusList
  | 0, _ => some l
  | _ + 1, [] => none
  | count + 1, index :: draws =>
    if l.isAssigned index then l.addDecoys (count + 1) draws else (l.addDecoy index).addDecoys count draws

def countSet (l : BitstringStatusList) : ℕ := Bitstring.countSet l.bits

def encode (gzip : Gzip) (l : BitstringStatusList) : String := String.ofList (Base64.encode (gzip.compress l.bits))

def decode (gzip : Gzip) (encoded : String) (size : ℕ) (purpose : StatusPurpose) :
    Except StatusListError BitstringStatusList :=
  match Base64.decode encoded.toList with
  | none => .error .encoding
  | some compressed =>
    let expectedBytes := (size + 7) / 8
    -- one byte more than is needed tells a list that goes on
    match gzip.inflate (expectedBytes + 1) compressed with
    | .error msg => .error (.compression msg)
    | .ok bits =>
      if bits.length < expectedBytes then
        .error (.invalid s!"decoded bitstring too short: {bits.length} bytes, expected {expectedBytes}")
      else .ok ⟨bits.take expectedBytes, size, purpose, List.replicate size false⟩

/-! ## Runs -/

/-- A call, with what the generator gives it. -/
inductive Op
  | allocateIndex (pick : ℕ)
  | set (index : ℕ) (revoked : Bool)
  | addDecoys (count : ℕ) (draws : List ℕ)

/-- What one operation on a list did. -/
inductive Event
  | allocated (index : ℕ)
  | full
  | set (index : ℕ) (revoked : Bool)
  | rejected
  | decoys (count : ℕ) (turned : List ℕ)
  deriving DecidableEq

/-- The bits that are set in the second list and clear in the first. -/
def turned (before after : BitstringStatusList) : List ℕ :=
  (List.range before.size).filter fun i => !Bitstring.get before.bits i && Bitstring.get after.bits i

/-- A call; none when what is drawn is not in the range that is drawn from, or the call does not end. -/
def exec (l : BitstringStatusList) : Op → Option (Event × BitstringStatusList)
  | .allocateIndex pick =>
    if l.available = [] then some (.full, l)
    else
      match l.allocateIndex pick with
      | (none, _) => none
      | (some index, after) => some (.allocated index, after)
  | .set index revoked =>
    match l.set index revoked with
    | .error _ => some (.rejected, l)
    | .ok after => some (.set index revoked, after)
  | .addDecoys count draws =>
    if draws.all (· < l.size) then
      (l.addDecoys count draws).map fun after => (.decoys count (turned l after), after)
    else none

/-- The record of a run, and the list after it. -/
def run (l : BitstringStatusList) : List Op → Option (List Event × BitstringStatusList)
  | [] => some ([], l)
  | op :: ops => do
    let step ← l.exec op
    let rest ← step.2.run ops
    some (step.1 :: rest.1, rest.2)

namespace Event

def touches : Event → List ℕ
  | allocated index => [index]
  | set index _ => [index]
  | decoys _ turned => turned
  | full => []
  | rejected => []

/-- The status of an index after an event. -/
def status (index : ℕ) (before : Bool) : Event → Bool
  | set j revoked => if j = index then revoked else before
  | decoys _ turned => if index ∈ turned then true else before
  | allocated _ => before
  | full => before
  | rejected => before

/-- What is handed out or used as a decoy was not used before. -/
def Fresh (size : ℕ) (used : List ℕ) : Event → Prop
  | allocated index => index < size ∧ index ∉ used
  | decoys count turned => turned.length ≤ count ∧ turned.Nodup ∧ ∀ i ∈ turned, i < size ∧ i ∉ used
  | set index _ => index < size
  | full => True
  | rejected => True

/-- As many bits are turned as decoys were asked for. -/
def Full : Event → Prop
  | decoys count turned => turned.length = count
  | _ => True

end Event

def used (events : List Event) : List ℕ := events.flatMap Event.touches

/-- The status of an index after a record: what was last set, or true after a decoy. -/
def statusAfter (base : ℕ → Bool) (events : List Event) (index : ℕ) : Bool :=
  events.foldl (fun before event => event.status index before) (base index)

end BitstringStatusList

end AffinidiTdk.Credentials
