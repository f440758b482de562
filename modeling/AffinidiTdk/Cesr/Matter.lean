/-
CESR primitives (`affinidi-cesr`, `tables.rs`, `codec.rs` and `matter.rs`): a code with raw bytes, in
the text domain (qb64) and in the binary domain (qb2). The text is ASCII wherever it is sliced, so a
byte offset of the source is a character offset here.
-/
import AffinidiTdk.Lib.Base64
import AffinidiTdk.Lib.Except

namespace AffinidiTdk.Cesr

abbrev Bytes := List UInt8

abbrev Text := List Char

/-! ## Tables -/

/-- The parts of a code: hard size, soft size, full size (0 for a variable length) and lead. -/
structure Sizage where
  hs : ℕ
  ss : ℕ
  fs : ℕ
  ls : ℕ
  deriving DecidableEq

def hardage (firstChar : Char) : Option ℕ :=
  if 'A' ≤ firstChar ∧ firstChar ≤ 'Z' ∨ 'a' ≤ firstChar ∧ firstChar ≤ 'z' then some 1
  else if firstChar = '0' then some 2
  else if firstChar = '1' then some 4
  else if firstChar = '2' then some 4
  else if firstChar = '3' then some 4
  else if firstChar = '4' then some 2
  else if firstChar = '5' then some 2
  else if firstChar = '6' then some 2
  else if firstChar = '7' then some 4
  else if firstChar = '8' then some 4
  else if firstChar = '9' then some 4
  else if firstChar = '-' then some 2
  else none

def matterTable : List (String × Sizage) :=
  [("B", ⟨1, 0, 44, 0⟩), ("D", ⟨1, 0, 44, 0⟩), ("E", ⟨1, 0, 44, 0⟩), ("F", ⟨1, 0, 44, 0⟩),
   ("G", ⟨1, 0, 44, 0⟩), ("H", ⟨1, 0, 44, 0⟩), ("I", ⟨1, 0, 44, 0⟩), ("J", ⟨1, 0, 24, 0⟩),
   ("K", ⟨1, 0, 44, 0⟩), ("L", ⟨1, 0, 24, 0⟩), ("C", ⟨1, 0, 44, 0⟩), ("A", ⟨1, 0, 44, 0⟩),
   ("1AAA", ⟨4, 0, 48, 0⟩), ("1AAB", ⟨4, 0, 48, 0⟩), ("1AAC", ⟨4, 0, 80, 0⟩), ("1AAD", ⟨4, 0, 80, 0⟩),
   ("1AAE", ⟨4, 0, 156, 0⟩), ("1AAF", ⟨4, 0, 8, 0⟩), ("1AAG", ⟨4, 0, 36, 0⟩), ("1AAI", ⟨4, 0, 48, 0⟩),
   ("1AAJ", ⟨4, 0, 48, 0⟩), ("1AAH", ⟨4, 0, 92, 0⟩), ("1AAK", ⟨4, 0, 92, 0⟩), ("1AAL", ⟨4, 0, 92, 0⟩),
   ("1AAM", ⟨4, 0, 92, 0⟩), ("0A", ⟨2, 0, 24, 0⟩), ("0B", ⟨2, 0, 88, 0⟩), ("0C", ⟨2, 0, 88, 0⟩),
   ("0D", ⟨2, 0, 88, 0⟩), ("0E", ⟨2, 0, 88, 0⟩), ("0F", ⟨2, 0, 88, 0⟩), ("0G", ⟨2, 0, 88, 0⟩),
   ("0I", ⟨2, 0, 88, 0⟩), ("4A", ⟨2, 2, 0, 0⟩), ("4B", ⟨2, 2, 0, 0⟩), ("5A", ⟨2, 2, 0, 0⟩),
   ("5B", ⟨2, 2, 0, 0⟩), ("6A", ⟨2, 2, 0, 0⟩), ("6B", ⟨2, 2, 0, 0⟩), ("7AAA", ⟨4, 4, 0, 0⟩),
   ("7AAB", ⟨4, 4, 0, 0⟩), ("8AAA", ⟨4, 4, 0, 0⟩), ("8AAB", ⟨4, 4, 0, 0⟩), ("9AAA", ⟨4, 4, 0, 0⟩),
   ("9AAB", ⟨4, 4, 0, 0⟩)]

def matterSizage (code : String) : Option Sizage := matterTable.lookup code

/-! ## Base64 and lead bytes -/

/-- The error kinds of the crate. -/
inductive CesrError
  | unknownCode (code : String)
  | invalidCodeSize (expected got : ℕ)
  | invalidRawSize (expected got : ℕ)
  | base64Decode
  | unexpectedEnd
  | invalidCharacter (position : ℕ) (ch : Char)
  | conversion (msg : String)
  | emptyInput
  deriving DecidableEq

def ensureAscii (qb64 : Text) : Except CesrError Unit :=
  match qb64.zipIdx.find? fun entry => 128 ≤ entry.1.toNat with
  | some (ch, position) => .error (.invalidCharacter position ch)
  | none => .ok ()

def b64Decode (s : Text) : Except CesrError Bytes :=
  match Base64.decode s with
  | some bytes => .ok bytes
  | none => .error .base64Decode

def b64CharToIndex (c : Char) : Except CesrError ℕ :=
  match Base64.index? c with
  | some index => .ok index
  | none => .error (.invalidCharacter 0 c)

def indexToB64Char (idx : ℕ) : Except CesrError Char :=
  if idx ≥ 64 then .error (.conversion s!"index {idx} out of range for base64") else .ok (Base64.char idx)

def leadBytes (rawSize : ℕ) : ℕ := (3 - rawSize % 3) % 3

def qb64ToQb2 (qb64 : Text) : Except CesrError Bytes :=
  if qb64.length % 4 ≠ 0 then .error (.invalidCodeSize ((qb64.length + 3) / 4 * 4) qb64.length)
  else b64Decode qb64

def countLeadingZeros (data : Bytes) (max : ℕ) : ℕ := ((data.take max).takeWhile (· = 0)).length

def b64ToCount (s : Text) : Except CesrError ℕ :=
  s.foldlM (fun count c => do .ok (count * 64 + (← b64CharToIndex c))) 0

/-- The last `length` digits of a number to the base 64, and what is left of the number. -/
def countDigits : ℕ → ℕ → Except CesrError (Text × ℕ)
  | 0, remaining => .ok ([], remaining)
  | length + 1, remaining => do
    let last ← indexToB64Char (remaining % 64)
    let (digits, left) ← countDigits length (remaining / 64)
    .ok (digits ++ [last], left)

def countToB64 (count length : ℕ) : Except CesrError Text := do
  let (digits, remaining) ← countDigits length count
  if remaining > 0 then .error (.conversion s!"count {count} too large for {length} base64 chars") else .ok digits

/-! ## Matter -/

/-- A primitive: its code, raw bytes and sizes. -/
structure Matter where
  code : String
  raw : Bytes
  sizage : Sizage
  deriving DecidableEq

namespace Matter

def rawSizeFromSizage (sizage : Sizage) : ℕ :=
  if sizage.fs = 0 then 0
  else
    let totalBytes := sizage.fs * 3 / 4
    match sizage.hs with
    | 1 => totalBytes - 1
    | 2 => totalBytes - 2
    | 4 => totalBytes - 3
    | _ => totalBytes

def new (code : String) (raw : Bytes) : Except CesrError Matter :=
  match matterSizage code with
  | none => .error (.unknownCode code)
  | some sizage =>
    if sizage.fs > 0 ∧ raw.length ≠ rawSizeFromSizage sizage then
      .error (.invalidRawSize (rawSizeFromSizage sizage) raw.length)
    else
      .ok ⟨code, raw, sizage⟩

/-- The bytes the code takes of a fixed-length primitive. -/
def codeBytes (sizage : Sizage) : ℕ :=
  match sizage.hs with
  | 1 => 1
  | 2 => 2
  | 4 => 3
  | _ => 0

def extractRaw (qb64 : Text) (sizage : Sizage) (fs : ℕ) : Except CesrError Bytes := do
  let allBytes ← b64Decode (qb64.take fs)
  let lead := codeBytes sizage
  if allBytes.length ≤ lead then .error (.invalidRawSize (lead + 1) allBytes.length)
  else .ok (allBytes.drop lead)

/-- The data of a variable-length primitive without the zero bytes it starts with, at most two. -/
def stripLead (dataB64 : Text) : Except CesrError Bytes := do
  let allBytes ← b64Decode dataB64
  .ok (allBytes.drop (countLeadingZeros allBytes 2))

/-- The primitive of a known code at the start of a text. -/
def readText (qb64 : Text) (hs : ℕ) (code : String) (sizage : Sizage) : Except CesrError Matter :=
  if sizage.fs > 0 then
    if qb64.length < sizage.fs then .error .unexpectedEnd
    else do
      let raw ← extractRaw qb64 sizage sizage.fs
      .ok ⟨code, raw, sizage⟩
  else if qb64.length < hs + sizage.ss then .error .unexpectedEnd
  else do
    let count ← b64ToCount ((qb64.take (hs + sizage.ss)).drop hs)
    let fs := hs + sizage.ss + count * 4
    if qb64.length < fs then .error .unexpectedEnd
    else
      let raw ← stripLead ((qb64.take fs).drop (hs + sizage.ss))
      .ok ⟨code, raw, sizage⟩

def fromQb64 (qb64 : Text) : Except CesrError Matter :=
  match qb64.head? with
  | none => .error .emptyInput
  | some firstChar => do
    ensureAscii qb64
    match hardage firstChar with
    | none => .error (.unknownCode (String.singleton firstChar))
    | some hs =>
      if qb64.length < hs then .error .unexpectedEnd
      else
        let code := String.ofList (qb64.take hs)
        match matterSizage code with
        | none => .error (.unknownCode code)
        | some sizage => readText qb64 hs code sizage

/-- The primitive of a known code at the start of a binary stream. -/
def readBinary (qb2 : Bytes) (code : String) (sizage : Sizage) : Except CesrError Matter :=
  if sizage.fs > 0 then
    let bs := sizage.fs * 3 / 4
    if qb2.length < bs then .error .unexpectedEnd
    else do
      let raw ← extractRaw (Base64.encode (qb2.take bs)) sizage sizage.fs
      .ok ⟨code, raw, sizage⟩
  else
    let headerChars := sizage.hs + sizage.ss
    let headerBytes := headerChars * 3 / 4
    if qb2.length < headerBytes then .error .unexpectedEnd
    else do
      let headerB64 := Base64.encode (qb2.take headerBytes)
      let count ← b64ToCount ((headerB64.take (sizage.hs + sizage.ss)).drop sizage.hs)
      let fs := headerChars + count * 4
      let bs := fs * 3 / 4
      if qb2.length < bs then .error .unexpectedEnd
      else
        let fullB64 := Base64.encode (qb2.take bs)
        let raw ← stripLead ((fullB64.take fs).drop headerChars)
        .ok ⟨code, raw, sizage⟩

def fromQb2 (qb2 : Bytes) : Except CesrError Matter :=
  if qb2 = [] then .error .emptyInput
  else
    let sniffLen := min qb2.length 6
    if sniffLen < 3 then .error .unexpectedEnd
    else
      let aligned := sniffLen / 3 * 3
      let sniffB64 := Base64.encode (qb2.take aligned)
      match sniffB64.head? with
      | none => .error .emptyInput
      | some firstChar =>
        match hardage firstChar with
        | none => .error (.unknownCode (String.singleton firstChar))
        | some hs =>
          if sniffB64.length < hs then .error .unexpectedEnd
          else
            let code := String.ofList (sniffB64.take hs)
            match matterSizage code with
            | none => .error (.unknownCode code)
            | some sizage => readBinary qb2 code sizage

def computeLead (m : Matter) : ℕ := leadBytes m.raw.length

/-- The raw bytes after their lead. -/
def padded (m : Matter) : Bytes := List.replicate m.computeLead 0 ++ m.raw

def qb64 (m : Matter) : Except CesrError Text :=
  let encoded := Base64.encode m.padded
  if m.sizage.fs > 0 then
    let cs := m.sizage.fs - m.sizage.hs
    if encoded.length < cs then .error (.invalidRawSize cs encoded.length)
    else .ok (m.code.toList ++ encoded.drop (encoded.length - cs))
  else if encoded.length % 4 ≠ 0 then
    .error (.conversion "padded raw bytes did not produce aligned base64")
  else do
    let countB64 ← countToB64 (encoded.length / 4) m.sizage.ss
    .ok (m.code.toList ++ (countB64 ++ encoded))

def qb2 (m : Matter) : Except CesrError Bytes := do
  let qb64 ← m.qb64
  qb64ToQb2 qb64

def fullSize (m : Matter) : ℕ :=
  if m.sizage.fs > 0 then m.sizage.fs
  else m.sizage.hs + m.sizage.ss + (m.computeLead + m.raw.length) / 3 * 4

end Matter

end AffinidiTdk.Cesr
