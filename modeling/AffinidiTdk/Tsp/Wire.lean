/-
The binary CESR frames of TSP messages (`message/wire.rs`): fixed data, variable data, count codes
and hop lists, with the decoders that read them at a position. An encoder of the source appends to a
buffer; here it gives what it appends. A decoder gives the position after what it has read.
-/
import AffinidiTdk.Lib.Bytes
import AffinidiTdk.Lib.Slice
import AffinidiTdk.Tsp.Relationship

namespace AffinidiTdk.Tsp.Wire

open List Option

/-! ## Words -/

def D0 : ℕ := 52
def D1 : ℕ := D0 + 1
def D4 : ℕ := D0 + 4
def D5 : ℕ := D0 + 5
def D6 : ℕ := D0 + 6
def D7 : ℕ := D0 + 7
def D8 : ℕ := D0 + 8
def D9 : ℕ := D0 + 9
def DASH : ℕ := 62

def maxFieldSize : ℕ := 3 * (1 <<< 24)

/-- The six bits a base64url character stands for; zero for any other character. -/
def symbol (ch : Char) : ℕ :=
  if 'A' ≤ ch ∧ ch ≤ 'Z' then ch.toNat - 'A'.toNat
  else if 'a' ≤ ch ∧ ch ≤ 'z' then ch.toNat - 'a'.toNat + 26
  else if '0' ≤ ch ∧ ch ≤ '9' then ch.toNat - '0'.toNat + 52
  else if ch = '-' then 62
  else if ch = '_' then 63
  else 0

def cesrInt (s : String) : ℕ := s.toList.foldl (fun acc ch => (acc <<< 6) % 2 ^ 64 ||| symbol ch) 0

/-- The last `n` bytes of a code. -/
def cesrData (n : ℕ) (s : String) : Bytes := (Bytes.beBytes n (cesrInt s)).map UInt8.ofNat

def mask (n : ℕ) : ℕ := (1 <<< n) - 1

/-- The low bits of a value. -/
def bits (value n : ℕ) : ℕ := value &&& mask n

def toTriplet (word : ℕ) : Bytes := (Bytes.beBytes 3 word).map UInt8.ofNat

def extractTriplet (q : Bytes) : ℕ := Bytes.ofBeBytes (q.map UInt8.toNat)

theorem and_mask (value n : ℕ) : value &&& mask n = value % 2 ^ n := by
  rw [mask, Nat.one_shiftLeft, Nat.and_two_pow_sub_one_eq_mod]

theorem bits_eq_mod (value n : ℕ) : bits value n = value % 2 ^ n := and_mask value n

theorem length_toTriplet (word : ℕ) : (toTriplet word).length = 3 := by
  rw [toTriplet, length_map, Bytes.length_beBytes]

theorem extractTriplet_toTriplet {word : ℕ} (h : word < 2 ^ 24) : extractTriplet (toTriplet word) = word :=
  Bytes.ofBeBytes_map_toNat h

theorem shiftLeft_or {n low : ℕ} (high : ℕ) (hlow : low < 2 ^ n) : (high <<< n) ||| low = high * 2 ^ n + low := by
  rw [← Nat.shiftLeft_add_eq_or_of_lt hlow, Nat.shiftLeft_eq]

theorem shortWord_eq {selector identifier low : ℕ} (hid : identifier < 64) (hlow : low < 2 ^ 12) :
    (selector <<< 18) ||| (identifier <<< 12) ||| low = selector * 2 ^ 18 + identifier * 2 ^ 12 + low := by
  have hhigh : (selector <<< 18) ||| (identifier <<< 12) = (selector * 2 ^ 6 + identifier) <<< 12 := by
    rw [shiftLeft_or selector (by rw [Nat.shiftLeft_eq]; omega), Nat.shiftLeft_eq, Nat.shiftLeft_eq]
    omega
  rw [hhigh, shiftLeft_or _ hlow]
  omega

theorem shortWord_fields (selector : ℕ) {identifier low : ℕ} (hid : identifier < 64) (hlow : low < 2 ^ 12) :
    (selector * 2 ^ 18 + identifier * 2 ^ 12 + low) / 2 ^ 18 = selector ∧
      (selector * 2 ^ 18 + identifier * 2 ^ 12 + low) / 2 ^ 12 % 2 ^ 6 = identifier ∧
      (selector * 2 ^ 18 + identifier * 2 ^ 12 + low) % 2 ^ 12 = low := by
  omega

theorem longWord_eq {identifier low : ℕ} (hid : identifier < 64) (hlow : low < 64) :
    (62 <<< 18) ||| (52 <<< 12) ||| (identifier <<< 6) ||| low =
      62 * 2 ^ 18 + 52 * 2 ^ 12 + identifier * 2 ^ 6 + low := by
  have hsecond : identifier <<< 6 < 2 ^ 12 := by
    rw [Nat.shiftLeft_eq]
    omega
  have hhigh : (62 <<< 18) ||| (52 <<< 12) ||| (identifier <<< 6) =
    (62 * 2 ^ 12 + 52 * 2 ^ 6 + identifier) <<< 6 := by
    rw [shortWord_eq (by decide) hsecond, Nat.shiftLeft_eq, Nat.shiftLeft_eq]
    omega
  rw [hhigh, shiftLeft_or _ (show low < 2 ^ 6 from hlow)]
  omega

/-! ## Codes -/

def tspPlaintext : ℕ := cesrInt "B"
def tspVid : ℕ := cesrInt "B"
def tspHpkeauthCiphertext : ℕ := cesrInt "G"
def ed25519Signature : ℕ := cesrInt "B"
def tspTmp : ℕ := cesrInt "X"

def tspEtsWrapper : ℕ := cesrInt "E"
def tspPayload : ℕ := cesrInt "Z"
def tspHopList : ℕ := cesrInt "J"
def tspAttachGrp : ℕ := cesrInt "C"
def tspIndexSigGrp : ℕ := cesrInt "K"

def XSCS : Bytes := cesrData 3 "XSCS"
def XHOP : Bytes := cesrData 3 "XHOP"
def YTSP : Bytes := cesrData 3 "YTSP"

/-- Major, minor and patch version. -/
def tspVersion : ℕ × ℕ × ℕ := (0, 0, 1)

def encodedVersion : ℕ := tspVersion.2.1 <<< 6 ||| tspVersion.2.2

/-- The longest route (`routed.rs`). -/
def maxHops : ℕ := 16

/-! ## Encoding -/

def nextMultipleOfThree (n : ℕ) : ℕ := (n + 2) / 3 * 3

/-- The header word of fixed data, of which the first `hdrBytes` bytes are sent. -/
def fixedWord (identifier hdrBytes : ℕ) : ℕ :=
  match hdrBytes with
  | 1 => bits identifier 6 <<< 18
  | 2 => (D0 <<< 18) ||| (bits identifier 6 <<< 12)
  | _ => (D1 <<< 18) ||| bits identifier 18

def encodeFixedData (identifier : ℕ) (payload : Bytes) : Bytes :=
  let totalSize := nextMultipleOfThree (payload.length + 1)
  let hdrBytes := totalSize - payload.length
  (toTriplet (fixedWord identifier hdrBytes)).take hdrBytes ++ payload

def encodeVariableData (identifier : ℕ) (payload : Bytes) : Bytes :=
  let paddedSize := nextMultipleOfThree payload.length
  let leadBytes := paddedSize - payload.length
  let selector := D4 + leadBytes
  let size := (paddedSize / 3) % 2 ^ 32
  let header :=
    if size < 64 * 64 ∧ identifier < 64 then
      toTriplet ((bits selector 6 <<< 18) ||| (bits identifier 6 <<< 12) ||| bits size 12)
    else
      toTriplet ((bits (selector + 3) 6 <<< 18) ||| bits identifier 18) ++ toTriplet (bits size 24)
  header ++ (List.replicate leadBytes 0 ++ payload)

def encodeCount (identifier count : ℕ) : Bytes :=
  if count < 4096 then
    toTriplet ((DASH <<< 18) ||| (bits identifier 6 <<< 12) ||| bits count 12)
  else
    toTriplet ((DASH <<< 18) ||| (D0 <<< 12) ||| (bits identifier 6 <<< 6) ||| bits (count >>> 24) 6) ++
      toTriplet (bits count 24)

def encodeVersion : Bytes := YTSP ++ encodeCount tspVersion.1 encodedVersion

def encodeHops (hops : List Bytes) : Bytes :=
  encodeCount tspHopList (hops.length % 2 ^ 32) ++ hops.flatMap (encodeVariableData tspVid)

/-! ## Decoding -/

/-- `ok_or_else` with an `InvalidMessage` error. -/
def okOrInvalid {α : Type} (msg : String) : Option α → Except TspError α
  | some a => .ok a
  | none => .error (.invalidMessage msg)

@[simp] theorem okOrInvalid_some {α : Type} (msg : String) (a : α) : okOrInvalid msg (some a) = .ok a := rfl

/-- A byte array of fixed length. -/
abbrev Block (n : ℕ) : Type := { bytes : Bytes // bytes.length = n }

def decodeCount (identifier : ℕ) (stream : Bytes) (pos : ℕ) : Option (ℕ × ℕ) := do
  let s ← Slice.get? stream pos (pos + 3)
  let word := extractTriplet s
  let index := word &&& mask 12
  let expected := (DASH <<< 18) ||| (bits identifier 6 <<< 12) ||| bits index 12
  let expectedLong := (DASH <<< 18) ||| (D0 <<< 12) ||| (bits identifier 6 <<< 6) ||| bits (index &&& 0x3F) 6
  if word = expected then
    some (index, pos + 3)
  else if word = expectedLong then
    let s2 ← Slice.get? stream (pos + 3) (pos + 6)
    some ((index <<< 24) % 2 ^ 32 ||| extractTriplet s2, pos + 6)
  else none

def decodeFixedData (n identifier : ℕ) (stream : Bytes) (pos : ℕ) : Option (Block n × ℕ) := do
  let totalSize := nextMultipleOfThree (n + 1)
  let hdrBytes := totalSize - n
  let hdr ← Slice.get? stream pos (pos + hdrBytes)
  if hdr = (toTriplet (fixedWord identifier hdrBytes)).take hdrBytes then
    let data ← Slice.get? stream (pos + hdrBytes) (pos + totalSize)
    if h : data.length = n then some (⟨data, h⟩, pos + totalSize) else none
  else none

/-- The identifier and the size a variable-data header states. -/
def variableHeader (s : Bytes) : Option (ℕ × ℕ × ℕ) := do
  let head ← Slice.get? s 0 3
  let input := extractTriplet head
  let selector := input >>> 18
  if selector = D4 ∨ selector = D5 ∨ selector = D6 then
    some (selector, (input >>> 12) &&& mask 6, input &&& mask 12)
  else if selector = D7 ∨ selector = D8 ∨ selector = D9 then
    let s2 ← Slice.get? s 3 6
    some (selector, input &&& mask 18, extractTriplet s2)
  else none

/-- The range of the data, whose end is the position after the field. -/
def decodeVariableDataRange (identifier : ℕ) (stream : Bytes) (pos : ℕ) : Option (ℕ × ℕ) := do
  let s ← Slice.from? stream pos
  let (selector, foundId, size) ← variableHeader s
  if foundId ≠ identifier then none
  else if size * 3 > maxFieldSize then none
  else
    let offset := selector - D4
    let dataBegin := offset + 3
    let dataEnd := nextMultipleOfThree (offset + 1) + 3 * size
    let _ ← Slice.get? s dataBegin dataEnd
    some (dataBegin + pos, dataEnd + pos)

def decodeVariableData (identifier : ℕ) (stream : Bytes) (pos : ℕ) : Option (Bytes × ℕ) := do
  let (start, stop) ← decodeVariableDataRange identifier stream pos
  let data ← Slice.get? stream start stop
  some (data, stop)

def decodeVersion (stream : Bytes) (pos : ℕ) : Except TspError ℕ := do
  let hdr ← Slice.get? stream pos (pos + YTSP.length) |> okOrInvalid "truncated version marker"
  if hdr ≠ YTSP then
    .error (.invalidMessage "not a YTSP version marker")
  else
    let (_, pos) ← decodeCount tspVersion.1 stream (pos + YTSP.length) |> okOrInvalid "bad TSP version count code"
    .ok pos

/-- The fields of a hop list, `count` of them. -/
def decodeHopFields (stream : Bytes) : ℕ → ℕ → Except TspError (List Bytes × ℕ)
  | 0, pos => .ok ([], pos)
  | count + 1, pos => do
    let (hop, pos) ← decodeVariableData tspVid stream pos |> okOrInvalid "malformed hop VID"
    let (hops, pos) ← decodeHopFields stream count pos
    .ok (hop :: hops, pos)

def decodeHops (stream : Bytes) (pos : ℕ) : Except TspError (List Bytes × ℕ) := do
  let (count, pos) ← decodeCount tspHopList stream pos |> okOrInvalid "missing -J hop list"
  if count > maxHops then
    .error (.invalidMessage "hop list too long")
  else
    decodeHopFields stream count pos

/-! ## Reading back what was encoded -/

open Slice (At)

variable {stream payload : Bytes} {pos identifier count : ℕ}

/-- What `decode_count` reads of a count code: in the long form two bits of the identifier stand above
the thirty of the count. -/
def readBack (identifier count : ℕ) : ℕ :=
  if count < 4096 then count
  else ((identifier * 2 ^ 6 + bits (count >>> 24) 6) <<< 24) % 2 ^ 32 ||| bits count 24

section

variable (hid : identifier < 64) (hne : identifier ≠ 52) (h : At stream pos (encodeCount identifier count))
include hid hne h

theorem decodeCount_encodeCount_eq : decodeCount identifier stream pos =
    some (readBack identifier count, pos + (encodeCount identifier count).length) := by
  have hbits : bits identifier 6 = identifier := by rw [bits_eq_mod]; omega
  by_cases hshort : count < 4096
  · have hread : readBack identifier count = count := if_pos hshort
    have hcount : bits count 12 = count := by rw [bits_eq_mod]; omega
    rw [hread]
    rw [encodeCount, if_pos hshort, hbits, hcount] at h ⊢
    have hget := h.get?
    rw [length_toTriplet] at hget ⊢
    rw [shortWord_eq hid hshort] at hget
    have hword : extractTriplet (toTriplet (DASH * 2 ^ 18 + identifier * 2 ^ 12 + count)) =
        DASH * 2 ^ 18 + identifier * 2 ^ 12 + count := extractTriplet_toTriplet (by unfold DASH; omega)
    have hindex : (DASH * 2 ^ 18 + identifier * 2 ^ 12 + count) % 2 ^ 12 = count := by unfold DASH; omega
    simp only [decodeCount, hget, bind_eq_bind, bind_some, hword, and_mask, hindex, hbits, hcount,
      shortWord_eq hid hshort, if_true]
  · rw [encodeCount, if_neg hshort, hbits] at h ⊢
    rw [readBack, if_neg hshort]
    have hlow : bits (count >>> 24) 6 < 64 := by rw [bits_eq_mod]; omega
    have hget := h.left.get?
    have hget₂ := h.right.get?
    rw [length_toTriplet] at hget hget₂
    rw [length_toTriplet] at hget₂
    generalize bits (count >>> 24) 6 = low at *
    have hlong : (DASH <<< 18) ||| (D0 <<< 12) ||| (identifier <<< 6) ||| low =
      62 * 2 ^ 18 + 52 * 2 ^ 12 + identifier * 2 ^ 6 + low := longWord_eq hid hlow
    rw [hlong] at hget
    have hword : extractTriplet (toTriplet (62 * 2 ^ 18 + 52 * 2 ^ 12 + identifier * 2 ^ 6 + low)) =
        62 * 2 ^ 18 + 52 * 2 ^ 12 + identifier * 2 ^ 6 + low := extractTriplet_toTriplet (by omega)
    have hindex : (62 * 2 ^ 18 + 52 * 2 ^ 12 + identifier * 2 ^ 6 + low) % 2 ^ 12 =
      identifier * 2 ^ 6 + low := by omega
    have hcode : bits (identifier * 2 ^ 6 + low) 12 = identifier * 2 ^ 6 + low := by rw [bits_eq_mod]; omega
    have hlast : bits ((identifier * 2 ^ 6 + low) &&& 0x3F) 6 = low := by
      rw [show 0x3F = mask 6 from rfl, and_mask, bits_eq_mod]
      omega
    -- the short form of the header would need the identifier of the long form's marker
    have hnot : ¬62 * 2 ^ 18 + 52 * 2 ^ 12 + identifier * 2 ^ 6 + low =
        DASH * 2 ^ 18 + identifier * 2 ^ 12 + (identifier * 2 ^ 6 + low) := by
      unfold DASH
      omega
    have hsecond : extractTriplet (toTriplet (bits count 24)) = bits count 24 :=
      extractTriplet_toTriplet (by rw [bits_eq_mod]; omega)
    simp only [decodeCount, hget, bind_eq_bind, bind_some, hword, and_mask, hindex, hbits, hcode, hlast,
      hlong, shortWord_eq hid (show identifier * 2 ^ 6 + low < 2 ^ 12 by omega), if_neg hnot, if_true]
    rw [Nat.add_assoc] at hget₂
    rw [hget₂, bind_some, hsecond, length_append, length_toTriplet, length_toTriplet]

/-- A count below 4096 is read back. -/
theorem decodeCount_encodeCount : ∃ found, decodeCount identifier stream pos =
    some (found, pos + (encodeCount identifier count).length) ∧ (count < 4096 → found = count) :=
  ⟨_, decodeCount_encodeCount_eq hid hne h, fun hshort => if_pos hshort⟩

end

theorem variableHeader_short {lead quads : ℕ} (hlead : lead < 3) (hid : identifier < 64) (hquads : quads < 2 ^ 12)
    (rest : Bytes) :
    variableHeader (toTriplet ((56 + lead) * 2 ^ 18 + identifier * 2 ^ 12 + quads) ++ rest) =
      some (56 + lead, identifier, quads) := by
  have hget := (Slice.at_self (toTriplet ((56 + lead) * 2 ^ 18 + identifier * 2 ^ 12 + quads)) rest).get?
  have hword := extractTriplet_toTriplet (show (56 + lead) * 2 ^ 18 + identifier * 2 ^ 12 + quads < 2 ^ 24 by omega)
  obtain ⟨hsel, hident, hlast⟩ := shortWord_fields (56 + lead) hid hquads
  have hselector : 56 + lead = D4 ∨ 56 + lead = D5 ∨ 56 + lead = D6 := by
    unfold D4 D5 D6 D0
    omega
  rw [length_toTriplet, Nat.zero_add] at hget
  generalize (56 + lead) * 2 ^ 18 + identifier * 2 ^ 12 + quads = word at *
  unfold variableHeader
  rw [hget, bind_eq_bind, bind_some]
  dsimp only
  rw [hword, and_mask, and_mask, Nat.shiftRight_eq_div_pow, Nat.shiftRight_eq_div_pow, hsel, hident, hlast,
    if_pos hselector]

theorem variableHeader_long {lead quads : ℕ} (hlead : lead < 3) (hid : identifier < 2 ^ 18) (hquads : quads < 2 ^ 24)
    (rest : Bytes) :
    variableHeader (toTriplet ((59 + lead) * 2 ^ 18 + identifier) ++ (toTriplet quads ++ rest)) =
      some (59 + lead, identifier, quads) := by
  have hat := Slice.at_self (toTriplet ((59 + lead) * 2 ^ 18 + identifier) ++ toTriplet quads) rest
  rw [append_assoc] at hat
  have hget := hat.left.get?
  have hget₂ := hat.right.get?
  have hword := extractTriplet_toTriplet (show (59 + lead) * 2 ^ 18 + identifier < 2 ^ 24 by omega)
  have hword₂ := extractTriplet_toTriplet hquads
  have hsel : ((59 + lead) * 2 ^ 18 + identifier) / 2 ^ 18 = 59 + lead := by omega
  have hident : ((59 + lead) * 2 ^ 18 + identifier) % 2 ^ 18 = identifier := by omega
  have hnot : ¬(59 + lead = D4 ∨ 59 + lead = D5 ∨ 59 + lead = D6) := by
    unfold D4 D5 D6 D0
    omega
  have hselector : 59 + lead = D7 ∨ 59 + lead = D8 ∨ 59 + lead = D9 := by
    unfold D7 D8 D9 D0
    omega
  rw [length_toTriplet, Nat.zero_add] at hget hget₂
  rw [length_toTriplet] at hget₂
  generalize (59 + lead) * 2 ^ 18 + identifier = word at *
  unfold variableHeader
  rw [hget, bind_eq_bind, bind_some]
  dsimp only
  rw [hword, Nat.shiftRight_eq_div_pow, hsel, if_neg hnot, if_pos hselector, hget₂, bind_some,
    and_mask, hident, hword₂]

section

variable (hid : identifier < 2 ^ 18) (hsize : payload.length ≤ 3 * (2 ^ 24 - 1))
include hid hsize

theorem variableHeader_encodeVariableData : ∃ header selector, ∃ lead : Bytes, encodeVariableData identifier
    payload = (header ++ lead) ++ payload ∧ selector - D4 + 3 = (header ++ lead).length ∧ nextMultipleOfThree
    (selector - D4 + 1) = header.length ∧ lead.length + payload.length = 3 * ((payload.length + 2) / 3) ∧ ∀ rest,
    variableHeader (header ++ rest) = some (selector, identifier, (payload.length + 2) / 3) := by
  have hbits₁₈ : bits identifier 18 = identifier := by rw [bits_eq_mod]; omega
  have hpadded : nextMultipleOfThree payload.length = 3 * ((payload.length + 2) / 3) := Nat.mul_comm _ _
  have hquads : 3 * ((payload.length + 2) / 3) / 3 % 2 ^ 32 = (payload.length + 2) / 3 := by omega
  obtain ⟨lead, hlead⟩ : ∃ lead, nextMultipleOfThree payload.length - payload.length = lead := ⟨_, rfl⟩
  have hlead₃ : lead + payload.length = 3 * ((payload.length + 2) / 3) := by omega
  have hlead_lt : lead < 3 := by omega
  have hselector : bits (D4 + lead) 6 = 56 + lead := by rw [bits_eq_mod]; unfold D4 D0; omega
  have hselector₃ : bits (D4 + lead + 3) 6 = 59 + lead := by rw [bits_eq_mod]; unfold D4 D0; omega
  have hquad_lt : (payload.length + 2) / 3 < 2 ^ 24 := by omega
  unfold encodeVariableData
  dsimp only
  rw [hlead, hpadded, hquads, hselector, hselector₃, hbits₁₈]
  generalize (payload.length + 2) / 3 = quads at *
  by_cases hshort : quads < 64 * 64 ∧ identifier < 64
  · obtain ⟨hlt, hid₆⟩ := hshort
    have hlow : bits quads 12 = quads := by rw [bits_eq_mod]; omega
    have hbits : bits identifier 6 = identifier := by rw [bits_eq_mod]; omega
    rw [if_pos ⟨hlt, hid₆⟩, hlow, hbits, shortWord_eq hid₆ hlt]
    refine ⟨_, 56 + lead, List.replicate lead 0, (append_assoc _ _ _).symm, ?_, ?_, ?_,
      variableHeader_short hlead_lt hid₆ hlt⟩
    · rw [length_append, length_toTriplet, length_replicate]
      unfold D4 D0
      omega
    · rw [length_toTriplet]
      unfold D4 D0 nextMultipleOfThree
      omega
    · rw [length_replicate, hlead₃]
  · have hlow : bits quads 24 = quads := by rw [bits_eq_mod]; omega
    rw [if_neg hshort, hlow, shiftLeft_or _ hid]
    refine ⟨_, 59 + lead, List.replicate lead 0, (append_assoc _ _ _).symm, ?_, ?_, ?_, fun rest => ?_⟩
    · rw [length_append, length_append, length_toTriplet, length_toTriplet, length_replicate]
      unfold D4 D0
      omega
    · rw [length_append, length_toTriplet, length_toTriplet]
      unfold D4 D0 nextMultipleOfThree
      omega
    · rw [length_replicate, hlead₃]
    · rw [append_assoc]
      exact variableHeader_long hlead_lt hid hquad_lt rest

theorem decodeVariableDataRange_encodeVariableData (h : At stream pos (encodeVariableData identifier payload)) :
    ∃ start, decodeVariableDataRange identifier stream pos =
    some (start, pos + (encodeVariableData identifier payload).length) ∧ start + payload.length =
    pos + (encodeVariableData identifier payload).length ∧ At stream start payload := by
  obtain ⟨header, selector, lead, hencode, hbegin, hend, hlead, hheader⟩ :=
    variableHeader_encodeVariableData hid hsize
  rw [hencode] at h ⊢
  obtain ⟨after, hfrom⟩ := h.from?
  have hheader := hheader (lead ++ payload ++ after)
  have hget := (Slice.at_self ((header ++ lead) ++ payload) after).get?_right
  rw [Nat.zero_add, Nat.zero_add] at hget
  have hlength : ((header ++ lead) ++ payload).length =
      nextMultipleOfThree (selector - D4 + 1) + 3 * ((payload.length + 2) / 3) := by
    simp only [length_append, hend] at hlead ⊢
    omega
  have hbound : ¬(payload.length + 2) / 3 * 3 > maxFieldSize := by
    rw [show maxFieldSize = 3 * 2 ^ 24 from rfl]
    omega
  refine ⟨pos + (header ++ lead).length, ?_, ?_, h.right⟩
  · simp only [append_assoc] at hfrom hheader hget hlength ⊢
    simp only [decodeVariableDataRange, hfrom, bind_eq_bind, bind_some, hheader, ne_eq, not_true_eq_false,
      if_false, if_neg hbound, hbegin, ← hlength]
    rw [hget, bind_some, Nat.add_comm _ pos, Nat.add_comm _ pos]
  · rw [Nat.add_assoc, ← length_append]

/-- Variable data is read back from where it was written. -/
theorem decodeVariableData_encodeVariableData (h : At stream pos (encodeVariableData identifier payload)) :
    decodeVariableData identifier stream pos =
      some (payload, pos + (encodeVariableData identifier payload).length) := by
  obtain ⟨start, hrange, hstart, hat⟩ := decodeVariableDataRange_encodeVariableData hid hsize h
  have hget := hat.get?
  rw [hstart] at hget
  rw [decodeVariableData, hrange, bind_eq_bind, bind_some]
  dsimp only
  rw [hget, bind_eq_bind, bind_some]

end

theorem length_encodeVariableData_mod (identifier : ℕ) (payload : Bytes) :
    (encodeVariableData identifier payload).length % 3 = 0 := by
  have hpadded : nextMultipleOfThree payload.length - payload.length + payload.length =
    (payload.length + 2) / 3 * 3 := by
    unfold nextMultipleOfThree
    omega
  unfold encodeVariableData
  dsimp only
  rw [length_append, length_append, length_replicate, hpadded]
  split
  · rw [length_toTriplet]
    omega
  · rw [length_append, length_toTriplet, length_toTriplet]
    omega

theorem decodeVariableData_eq_none {marker : Bytes} (h : At stream pos marker) (hlength : marker.length = 3)
    (hselector : extractTriplet marker < 56 * 2 ^ 18) : decodeVariableData identifier stream pos = none := by
  obtain ⟨after, hfrom⟩ := h.from?
  have hget := (Slice.at_self marker after).get?
  rw [hlength, Nat.zero_add] at hget
  have hsel : extractTriplet marker >>> 18 < 56 := by
    rw [Nat.shiftRight_eq_div_pow]
    omega
  have hheader : variableHeader (marker ++ after) = none := by
    simp only [variableHeader, hget, bind_eq_bind, bind_some]
    rw [if_neg (by unfold D4 D5 D6 D0; omega), if_neg (by unfold D7 D8 D9 D0; omega)]
  simp only [decodeVariableData, decodeVariableDataRange, hfrom, bind_eq_bind, bind_some, hheader, bind_none]

theorem decodeFixedData_encodeFixedData {n : ℕ} {data : Block n}
    (h : At stream pos (encodeFixedData identifier data.1)) :
    decodeFixedData n identifier stream pos = some (data, pos + (encodeFixedData identifier data.1).length) := by
  obtain ⟨payload, rfl⟩ := data
  have hhdr : nextMultipleOfThree (payload.length + 1) - payload.length ≤ 3 ∧
      payload.length ≤ nextMultipleOfThree (payload.length + 1) := by
    unfold nextMultipleOfThree
    omega
  have hlength : ((toTriplet (fixedWord identifier (nextMultipleOfThree (payload.length + 1) - payload.length))).take
      (nextMultipleOfThree (payload.length + 1) - payload.length)).length =
        nextMultipleOfThree (payload.length + 1) - payload.length := by
    rw [length_take, length_toTriplet]
    omega
  unfold encodeFixedData at h ⊢
  dsimp only at h ⊢
  have hget := h.left.get?
  have hdata := h.get?_right
  have htotal : nextMultipleOfThree (payload.length + 1) - payload.length + payload.length =
      nextMultipleOfThree (payload.length + 1) := Nat.sub_add_cancel hhdr.2
  rw [length_append, hlength, htotal] at hdata ⊢
  rw [hlength] at hget
  simp only [decodeFixedData, hget, hdata, bind_eq_bind, bind_some, if_true, dif_pos]

theorem decodeVersion_encodeVersion (h : At stream pos encodeVersion) :
    decodeVersion stream pos = .ok (pos + encodeVersion.length) := by
  have hget := h.left.get?
  obtain ⟨found, hcount, -⟩ := decodeCount_encodeCount (by decide) (by decide) h.right
  simp only [decodeVersion, hget, okOrInvalid_some, hcount]
  rw [encodeVersion, length_append, Nat.add_assoc]
  rfl

theorem decodeHopFields_flatMap {hops : List Bytes} (hsize : ∀ hop ∈ hops, hop.length ≤ 3 * (2 ^ 24 - 1))
    (h : At stream pos (hops.flatMap (encodeVariableData tspVid))) :
    decodeHopFields stream hops.length pos =
      .ok (hops, pos + (hops.flatMap (encodeVariableData tspVid)).length) := by
  induction hops generalizing pos with
  | nil => rfl
  | cons hop hops ih =>
    rw [flatMap_cons] at h ⊢
    have hhop := decodeVariableData_encodeVariableData (by decide) (hsize hop mem_cons_self) h.left
    have hrest := ih (fun other hother => hsize other (mem_cons_of_mem hop hother)) h.right
    rw [length_cons, decodeHopFields, hhop, length_append, ← Nat.add_assoc]
    show (decodeHopFields stream hops.length _ >>= fun read => Except.ok (hop :: read.1, read.2)) = _
    rw [hrest]
    rfl

theorem decodeHops_encodeHops {hops : List Bytes} (hsize : ∀ hop ∈ hops, hop.length ≤ 3 * (2 ^ 24 - 1))
    (hroute : hops.length ≤ maxHops) (h : At stream pos (encodeHops hops)) :
    decodeHops stream pos = .ok (hops, pos + (encodeHops hops).length) := by
  unfold maxHops at hroute
  rw [encodeHops, Nat.mod_eq_of_lt (show hops.length < 2 ^ 32 by omega)] at h ⊢
  obtain ⟨found, hcount, hfound⟩ := decodeCount_encodeCount (by decide) (by decide) h.left
  obtain rfl := hfound (by omega)
  have hfields := decodeHopFields_flatMap hsize h.right
  have hbound : ¬hops.length > maxHops := by
    unfold maxHops
    omega
  rw [decodeHops, hcount, length_append, ← Nat.add_assoc]
  show (if hops.length > maxHops then _ else decodeHopFields stream hops.length _) = _
  rw [if_neg hbound, hfields]

end AffinidiTdk.Tsp.Wire
