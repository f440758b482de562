/-
Reading and writing N-Quads (`affinidi-rdf-encoding`, `nquads/escape.rs`, `nquads/serializer.rs`,
`nquads/parser.rs`). The parser's cursor is the text that is left of the line.
-/
import AffinidiTdk.Rdf.Model

namespace AffinidiTdk.Rdf.NQuads

/-! ## Escapes -/

/-- An upper-case hexadecimal digit. -/
def hexUpper (n : ℕ) : Char := if n < 10 then Char.ofNat (48 + n) else Char.ofNat (55 + n)

/-- `{cp:04X}` of a code point below 2^16. -/
def hex4 (cp : ℕ) : Text :=
    [hexUpper (cp / 4096 % 16), hexUpper (cp / 256 % 16), hexUpper (cp / 16 % 16), hexUpper (cp % 16)]

def escapeChar (ch : Char) : Text :=
  if ch = '\x08' then ['\\', 'b']
  else if ch = '\t' then ['\\', 't']
  else if ch = '\n' then ['\\', 'n']
  else if ch = '\x0c' then ['\\', 'f']
  else if ch = '\r' then ['\\', 'r']
  else if ch = '"' then ['\\', '"']
  else if ch = '\\' then ['\\', '\\']
  else if ch < '\x20' ∨ ch = '\x7f' then '\\' :: 'u' :: hex4 ch.toNat
  else [ch]

def escapeNquads (s : Text) : Text := s.flatMap escapeChar

/-- The value of a hexadecimal digit, of either case. -/
def digit16 (c : Char) : Option ℕ :=
  if '0' ≤ c ∧ c ≤ '9' then some (c.toNat - 48)
  else if 'A' ≤ c ∧ c ≤ 'F' then some (c.toNat - 55)
  else if 'a' ≤ c ∧ c ≤ 'f' then some (c.toNat - 87)
  else none

def isAsciiHexdigit (c : Char) : Bool := (digit16 c).isSome

/-- `u32::from_str_radix(_, 16)` of at most eight characters: a leading plus sign is read over. -/
def fromStrRadix16 (text : Text) : Option ℕ :=
  let digits := if text.head? = some '+' then text.tail else text
  if digits = [] then none
  else (digits.mapM digit16).map (List.foldl (fun n d => 16 * n + d) 0)

def charFromU32 (cp : ℕ) : Option Char := if cp.isValidChar then some (Char.ofNat cp) else none

/-- The length of a text in bytes. -/
def utf8Len (text : Text) : ℕ := (text.map fun c => c.utf8Size).sum

def str (text : Text) : String := String.ofList text

/-- The character after `\u`, whose escape may be a surrogate pair, and the rest. -/
def unescapeU (rest : Text) : Except String (Char × Text) := do
  let hex := rest.take 4
  let rest := rest.drop 4
  if utf8Len hex ≠ 4 then throw s!"incomplete \\u escape: \\u{str hex}"
  let cp ← (fromStrRadix16 hex).elim (throw s!"invalid \\u escape: \\u{str hex}") pure
  if 0xD800 ≤ cp ∧ cp ≤ 0xDBFF then
    if rest.take 2 ≠ ['\\', 'u'] then throw s!"expected low surrogate after \\u{str hex}"
    let rest := rest.drop 2
    let lowHex := rest.take 4
    let rest := rest.drop 4
    if utf8Len lowHex ≠ 4 then throw s!"incomplete low surrogate: \\u{str lowHex}"
    let lowCp ← (fromStrRadix16 lowHex).elim (throw s!"invalid low surrogate: \\u{str lowHex}") pure
    if ¬(0xDC00 ≤ lowCp ∧ lowCp ≤ 0xDFFF) then throw s!"invalid low surrogate: \\u{str lowHex}"
    let combined := 0x10000 + (cp - 0xD800) * 1024 + (lowCp - 0xDC00)
    let c ← (charFromU32 combined).elim (throw s!"invalid surrogate pair: \\u{str hex}\\u{str lowHex}") pure
    pure (c, rest)
  else
    let c ← (charFromU32 cp).elim (throw s!"invalid unicode codepoint: \\u{str hex}") pure
    pure (c, rest)

/-- The character after `\U` and the rest. -/
def unescapeLongU (rest : Text) : Except String (Char × Text) := do
  let hex := rest.take 8
  let rest := rest.drop 8
  if utf8Len hex ≠ 8 then throw s!"incomplete \\U escape: \\U{str hex}"
  let cp ← (fromStrRadix16 hex).elim (throw s!"invalid \\U escape: \\U{str hex}") pure
  let c ← (charFromU32 cp).elim (throw s!"invalid unicode codepoint: \\U{str hex}") pure
  pure (c, rest)

/-- The character after a backslash and the rest. -/
def unescapeOne : Text → Except String (Char × Text)
  | [] => throw "trailing backslash"
  | other :: rest =>
    if other = 'b' then pure ('\x08', rest)
    else if other = 't' then pure ('\t', rest)
    else if other = 'n' then pure ('\n', rest)
    else if other = 'f' then pure ('\x0c', rest)
    else if other = 'r' then pure ('\r', rest)
    else if other = '"' then pure ('"', rest)
    else if other = '\'' then pure ('\'', rest)
    else if other = '\\' then pure ('\\', rest)
    else if other = 'u' then unescapeU rest
    else if other = 'U' then unescapeLongU rest
    else throw s!"unknown escape sequence: \\{str [other]}"

/-- The loop of `unescape_nquads`; each turn takes a character, so a text has at most its length of them. -/
def unescapeLoop : ℕ → Text → Except String Text
  | 0, _ | _ + 1, [] => pure []
  | turns + 1, ch :: rest => do
    if ch = '\\' then
      let (c, rest) ← unescapeOne rest
      let out ← unescapeLoop turns rest
      pure (c :: out)
    else
      let out ← unescapeLoop turns rest
      pure (ch :: out)

def unescapeNquads (s : Text) : Except String Text := unescapeLoop s.length s

/-! ## Writing -/

def writeIri (iri : Text) : Text := '<' :: iri ++ ['>']

def writeBlank (id : Text) : Text := '_' :: ':' :: id

def writeLiteral (lit : Literal) : Text :=
  '"' :: escapeNquads lit.value ++ '"' ::
    match lit.language with
    | some lang => '@' :: lang
    | none => if lit.datatype.iri ≠ xsd.string then '^' :: '^' :: writeIri lit.datatype.iri else []

def writeSubject : Subject → Text
  | .named n => writeIri n.iri
  | .blank b => writeBlank b.id

def writeObject : Object → Text
  | .named n => writeIri n.iri
  | .blank b => writeBlank b.id
  | .literal lit => writeLiteral lit

/-- The graph and the blank after it; the default graph is not written. -/
def writeGraph : GraphLabel → Text
  | .named n => writeIri n.iri ++ [' ']
  | .blank b => writeBlank b.id ++ [' ']
  | .default => []

/-- A line without its end. -/
def serializeQuad (quad : Quad) : Text :=
  writeSubject quad.subject ++ ' ' :: writeIri quad.predicate.iri ++ ' ' :: writeObject quad.object ++
    ' ' :: writeGraph quad.graph ++ ['.']

/-- The line with `_:a` for the blank node and `_:z` for every other. -/
def serializeQuadSubstituted (quad : Quad) (targetBlankNode : Text) : Text :=
  serializeQuad (quad.rename fun id => if id = targetBlankNode then ['a'] else ['z'])

def serializeDataset (quads : List Quad) : Text := quads.flatMap fun q => serializeQuad q ++ ['\n']

/-! ## The cursor -/

/-- The cursor's failures name the line. -/
def fault (lineNum : ℕ) (msg : String) : RdfError := .nQuadsParseError (s!"line {lineNum}: " ++ msg)

variable (lineNum : ℕ)

def skipWhitespace (rest : Text) : Text := rest.dropWhile fun ch => ch = ' ' ∨ ch = '\t'

def expectChar (expected : Char) : Text → Except RdfError Text
  | ch :: rest =>
    if ch = expected then pure rest
    else throw (fault lineNum s!"expected '{str [expected]}', found '{str [ch]}'")
  | [] => throw (fault lineNum s!"expected '{str [expected]}', found end of input")

/-- `n` hexadecimal digits as a character. -/
def readHexChar (n : ℕ) (rest : Text) : Except RdfError (Char × Text) := do
  let hex := rest.take n
  if hex.length ≠ n ∨ ¬hex.all isAsciiHexdigit then throw (fault lineNum "incomplete unicode escape")
  let cp ← (fromStrRadix16 hex).elim (throw (fault lineNum "invalid unicode escape")) pure
  let c ← (charFromU32 cp).elim (throw (fault lineNum s!"invalid unicode codepoint U+{str hex}")) pure
  pure (c, rest.drop n)

/-- The character after a backslash as an error names it, a blank at the end of the text. -/
def escapeName (rest : Text) : String := str [rest.headD ' ']

/-- The loop of `parse_iri` after the opening bracket; each turn takes a character. -/
def iriLoop : ℕ → Text → Except RdfError (Text × Text)
  | 0, _ | _ + 1, [] => throw (fault lineNum "unterminated IRI")
  | turns + 1, ch :: rest => do
    if ch = '>' then pure ([], rest)
    else if ch = '\\' then
      let width ←
        if rest.head? = some 'u' then pure 4
        else if rest.head? = some 'U' then pure 8
        else throw (fault lineNum s!"invalid IRI escape \\{escapeName rest}")
      let (c, rest) ← readHexChar lineNum width rest.tail
      let (iri, rest) ← iriLoop turns rest
      pure (c :: iri, rest)
    else
      let (iri, rest) ← iriLoop turns rest
      pure (ch :: iri, rest)

def parseIri (rest : Text) : Except RdfError (NamedNode × Text) := do
  let rest ← expectChar lineNum '<' rest
  let (iri, rest) ← iriLoop lineNum (rest.length + 1) rest
  pure (⟨iri⟩, rest)

def parseBlankNode (rest : Text) : Except RdfError (BlankNode × Text) := do
  let rest ← expectChar lineNum '_' rest
  let rest ← expectChar lineNum ':' rest
  let inLabel (ch : Char) : Bool := !(ch = ' ' || ch = '\t' || ch = '.' || ch = '<')
  let id := rest.takeWhile inLabel
  if id = [] then throw (fault lineNum "empty blank node label")
  pure (⟨id⟩, rest.dropWhile inLabel)

/-- The scan for the closing quote. After an escape's first letter, `verbatim` further characters are
taken as they stand: four for `u`, eight for `U`. -/
def rawLoop : ℕ → Text → Except RdfError (Text × Text)
  | _, [] => throw (fault lineNum "unterminated string literal")
  | verbatim + 1, ch :: rest => do
    let (raw, rest) ← rawLoop verbatim rest
    pure (ch :: raw, rest)
  | 0, [ch] =>
    if ch = '\\' then throw (fault lineNum "trailing backslash in literal")
    else if ch = '"' then pure ([], [])
    else throw (fault lineNum "unterminated string literal")
  | 0, ch :: next :: rest => do
    if ch = '\\' then
      let (raw, rest) ← rawLoop (if next = 'u' then 4 else if next = 'U' then 8 else 0) rest
      pure ('\\' :: next :: raw, rest)
    else if ch = '"' then pure ([], next :: rest)
    else
      let (raw, rest) ← rawLoop 0 (next :: rest)
      pure (ch :: raw, rest)

def parseLiteral (rest : Text) : Except RdfError (Literal × Text) := do
  let rest ← expectChar lineNum '"' rest
  let (raw, rest) ← rawLoop lineNum 0 rest
  let value ← (unescapeNquads raw).mapError (fault lineNum)
  if rest.head? = some '@' then
    let inTag (ch : Char) : Bool := !(ch = ' ' || ch = '\t' || ch = '.')
    pure (.lang value (rest.tail.takeWhile inTag), rest.tail.dropWhile inTag)
  else if rest.head? = some '^' then
    let rest ← expectChar lineNum '^' rest.tail
    let (datatype, rest) ← parseIri lineNum rest
    pure (.typed value datatype, rest)
  else pure (.new value, rest)

def parseSubject (rest : Text) : Except RdfError (Subject × Text) :=
  match rest.head? with
  | some ch =>
    if ch = '<' then do
      let (n, rest) ← parseIri lineNum rest
      pure (.named n, rest)
    else if ch = '_' then do
      let (b, rest) ← parseBlankNode lineNum rest
      pure (.blank b, rest)
    else throw (fault lineNum s!"unexpected character '{str [ch]}' in subject position")
  | none => throw (fault lineNum "unexpected end of input in subject position")

def parseObject (rest : Text) : Except RdfError (Object × Text) :=
  match rest.head? with
  | some ch =>
    if ch = '<' then do
      let (n, rest) ← parseIri lineNum rest
      pure (.named n, rest)
    else if ch = '_' then do
      let (b, rest) ← parseBlankNode lineNum rest
      pure (.blank b, rest)
    else if ch = '"' then do
      let (lit, rest) ← parseLiteral lineNum rest
      pure (.literal lit, rest)
    else throw (fault lineNum s!"unexpected character '{str [ch]}' in object position")
  | none => throw (fault lineNum "unexpected end of input in object position")

def parseGraph (rest : Text) : Except RdfError (GraphLabel × Text) :=
  if rest.head? = some '<' then do
    let (n, rest) ← parseIri lineNum rest
    pure (.named n, rest)
  else if rest.head? = some '_' then do
    let (b, rest) ← parseBlankNode lineNum rest
    pure (.blank b, rest)
  else pure (.default, rest)

/-- The graph of a line, which may be left out, and the blanks after it. -/
def parseOptionalGraph (rest : Text) : Except RdfError (GraphLabel × Text) :=
  if rest.head? = some '.' then pure (.default, rest)
  else do
    let (g, rest) ← parseGraph lineNum rest
    pure (g, skipWhitespace rest)

def parseLine (line : Text) : Except RdfError Quad := do
  let (subject, rest) ← parseSubject lineNum line
  let (predicate, rest) ← parseIri lineNum (skipWhitespace rest)
  let (object, rest) ← parseObject lineNum (skipWhitespace rest)
  let (graph, rest) ← parseOptionalGraph lineNum (skipWhitespace rest)
  let rest ← expectChar lineNum '.' rest
  if skipWhitespace rest ≠ [] then throw (fault lineNum "unexpected content after '.'")
  pure ⟨subject, predicate, object, graph⟩

/-! ## Documents -/

/-- `str::lines`: a line ends at a line feed, with the carriage return before it. -/
def lines : Text → List Text
  | [] => []
  | '\r' :: '\n' :: rest | '\n' :: rest => [] :: lines rest
  | ch :: rest =>
    match lines rest with
    | [] => [[ch]]
    | line :: more => (ch :: line) :: more

/-- The Unicode property White_Space. -/
def isWhitespace (c : Char) : Bool :=
  let cp := c.toNat
  9 ≤ cp ∧ cp ≤ 13 ∨ cp = 0x20 ∨ cp = 0x85 ∨ cp = 0xA0 ∨ cp = 0x1680 ∨ 0x2000 ≤ cp ∧ cp ≤ 0x200A ∨
    cp = 0x2028 ∨ cp = 0x2029 ∨ cp = 0x202F ∨ cp = 0x205F ∨ cp = 0x3000

def trim (line : Text) : Text := ((line.dropWhile isWhitespace).reverse.dropWhile isWhitespace).reverse

/-- The quads of numbered lines; empty lines and comments are passed over. -/
def parseLines : List (Text × ℕ) → Except RdfError (List Quad)
  | [] => pure []
  | (line, lineNum) :: more => do
    let trimmed := trim line
    if trimmed = [] ∨ trimmed.head? = some '#' then parseLines more
    else
      let quad ← parseLine (lineNum + 1) trimmed
      let quads ← parseLines more
      pure (quad :: quads)

def parse (input : Text) : Except RdfError Dataset := do
  let quads ← parseLines (lines input).zipIdx
  pure ⟨quads⟩

end AffinidiTdk.Rdf.NQuads
