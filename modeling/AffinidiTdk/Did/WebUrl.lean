/-
The URL of a `did:web` document (`did-web`, `build_url`): the domain and the path segments of the identifier are
percent-decoded and put together. A decoded segment is checked for separators of a path, a decoded domain for none.
-/
import AffinidiTdk.Did.RoundTrip
import AffinidiTdk.Lib.Percent
import Mathlib.Data.List.TakeWhile

namespace AffinidiTdk.Did

open List Percent
open Abnf Fallible

/-! ## Building the URL -/

/-- The error of the resolver. -/
inductive DidWebError
  | invalidDid (msg : String)

def scheme : Text := "https://".toList

section

variable (decodeUtf8 : Text → Except String Text)

/-- A decoded segment is a single component of a path. -/
def isComponent (segment : Text) : Bool :=
  !(segment.isEmpty || segment == ".".toList || segment == "..".toList || segment.contains '/' ||
    segment.contains '\\')

/-- The loop over the path segments, onto the URL so far. -/
def pushSegments (url : Text) : List Text → Except DidWebError Text
  | [] => .ok url
  | segment :: segments => do
    let decodedSegment ← (decodeUtf8 segment).mapError fun e =>
      .invalidDid s!"path segment \"{str segment}\" is not valid UTF-8: {e}"
    if !isComponent decodedSegment then
      throw (.invalidDid s!"path segment \"{str segment}\" is not a valid single path component")
    pushSegments (url ++ '/' :: decodedSegment) segments

def buildUrl (domain : Text) (pathSegments : List Text) : Except DidWebError Text := do
  let decodedDomain ← (decodeUtf8 domain).mapError fun e => .invalidDid s!"domain is not valid UTF-8: {e}"
  if decodedDomain.isEmpty then throw (.invalidDid "domain is empty")
  let url := scheme ++ decodedDomain
  if pathSegments.isEmpty then .ok (url ++ "/.well-known/did.json".toList)
  else do
    let url ← pushSegments decodeUtf8 url pathSegments
    .ok (url ++ "/did.json".toList)

end

/-! ## What a URL says -/

/-- The path of the document under these segments. -/
def documentPath (segments : List Text) : Text :=
  if segments = [] then "/.well-known/did.json".toList
  else (segments.map ('/' :: ·)).flatten ++ "/did.json".toList

/-- The end of an authority: a host, and what may follow it is a port. -/
def isPort : Text → Bool
  | [] => true
  | c :: digits => c == ':' && digits.all Char.isDigit

/-- A name without a colon, or an address in brackets. -/
def IsHost (host : Text) : Prop :=
  (host ≠ [] ∧ host.head? ≠ some '[' ∧ ':' ∉ host) ∨ ∃ address, host = '[' :: address ++ [']'] ∧ ']' ∉ address

def IsHostPort (text : Text) : Prop := ∃ host port, text = host ++ port ∧ IsHost host ∧ isPort port = true

/-- What ends a host in a URL, or stands before it. -/
def hostDelimiters : List Char := ['/', '\\', '?', '#', '@']

/-- A single component of a path. -/
structure IsComponent (segment : Text) : Prop where
  ne_nil : segment ≠ []
  ne_dot : segment ≠ ".".toList
  ne_dots : segment ≠ "..".toList
  plain : ∀ c ∈ ['/', '\\', '?', '#'], c ∉ segment

/-- A host with an optional port, a component for each segment, and the document at the end of the path. -/
def KeepsShape (url : Text) (count : ℕ) : Prop :=
  ∃ host segments, url = scheme ++ host ++ documentPath segments ∧ IsHostPort host ∧
    (∀ c ∈ hostDelimiters, c ∉ host) ∧ segments.length = count ∧ ∀ segment ∈ segments, IsComponent segment

/-- What the URL parser takes out of a text before it reads it. -/
def removed : List Char := ['\t', '\n', '\r']

/-- The components that lead nowhere or up, in all their spellings. -/
def isDotSegment (segment : Text) : Bool :=
  [".", "..", "%2e", ".%2e", "%2e.", "%2e%2e"].contains (str (segment.map Char.toLower))

/-- A host that a URL shows as it is. -/
structure IsPlainHost (host : Text) : Prop where
  host_port : IsHostPort host
  plain : ∀ c ∈ hostDelimiters ++ removed, c ∉ host
  unescaped : '%' ∉ host

/-- A path segment that a URL shows as it is. -/
structure IsPlainComponent (component : Text) : Prop where
  ne_nil : component ≠ []
  plain : ∀ c ∈ ['/', '\\', '?', '#'] ++ removed, c ∉ component
  not_dot : isDotSegment component = false

def pathOf (components : List Text) : Text := (components.map ('/' :: ·)).flatten

/-- The URL parser of the HTTP client, as far as it takes a URL apart: into the text of its host and port, without
credentials and escapes, and the components of its path, with dot segments resolved. Whether host and port are valid,
how letters of a host are mapped and characters of a component escaped comes after this. -/
structure UrlReader where
  read : Text → Option (Text × List Text)

/-- The URL standard: a plain host and plain components are read as they stand; a host that is read holds no percent
sign, no component is a dot segment, and neither holds what is removed. -/
structure UrlReader.Documented (reader : UrlReader) : Prop where
  plain : ∀ {host components}, IsPlainHost host → components ≠ [] → (∀ component ∈ components,
    IsPlainComponent component) → reader.read (scheme ++ host ++ pathOf components) = some (host, components)
  host : ∀ {url host components}, reader.read url = some (host, components) → ∀ c ∈ '%' :: removed, c ∉ host
  components : ∀ {url host components}, reader.read url = some (host, components) → ∀ component ∈ components,
    (∀ c ∈ removed, c ∉ component) ∧ isDotSegment component = false

def documentComponents (segments : List Text) : List Text :=
  if segments = [] then [".well-known".toList, "did.json".toList] else segments ++ ["did.json".toList]

/-- The URL fetches the document at the host and the path that the identifier names. -/
def FetchesNamed (reader : UrlReader) (decodeUtf8 : Text → Except String Text) (domain : Text)
    (pathSegments : List Text) (url : Text) : Prop :=
  ∃ host segments, decodeUtf8 domain = .ok host ∧ pathSegments.mapM decodeUtf8 = .ok segments ∧
    reader.read url = some (host, documentComponents segments)

/-! ## When it does -/

/-- What follows an address: a closing bracket, and a port. -/
def isClosed : Text → Bool
  | [] => false
  | _ :: port => isPort port

/-- A host and port, read from the left. -/
def isHostPort (text : Text) : Bool :=
  if text.head? = some '[' then isClosed (text.dropWhile (· ≠ ']'))
  else !(text.takeWhile (· ≠ ':')).isEmpty && isPort (text.dropWhile (· ≠ ':'))

/-- Nothing that ends a host or that the URL parser removes is escaped in the domain, which decodes to a host with an
optional port and without a percent sign; neither a question mark, a number sign nor what is removed is escaped in a
segment, and no segment decodes to a dot segment. -/
structure Unescaped (decodeUtf8 : Text → Except String Text) (domain : Text) (pathSegments : List Text) : Prop where
  delimiters : ∀ c ∈ hostDelimiters ++ removed, Percent.octet c ∉ Percent.escapes domain
  host : ∀ host, decodeUtf8 domain = .ok host → isHostPort host = true ∧ '%' ∉ host
  segments : ∀ segment ∈ pathSegments, (∀ c ∈ ['?', '#'] ++ removed, Percent.octet c ∉ Percent.escapes segment) ∧
    ∀ decoded, decodeUtf8 segment = .ok decoded → isDotSegment decoded = false

/-! ## Hosts and ports -/

theorem colon_or_nil_of_isPort {port : Text} (h : isPort port = true) :
    port = [] ∨ ∃ digits, port = ':' :: digits := by
  cases port with
  | nil => exact .inl rfl
  | cons c digits =>
    rw [isPort, Bool.and_eq_true, beq_iff_eq] at h
    obtain ⟨rfl, -⟩ := h
    exact .inr ⟨digits, rfl⟩

theorem takeWhile_append_stop {stop : Char} {first rest : Text} (hfirst : stop ∉ first)
    (hrest : rest = [] ∨ ∃ tail, rest = stop :: tail) :
    (first ++ rest).takeWhile (· ≠ stop) = first ∧ (first ++ rest).dropWhile (· ≠ stop) = rest := by
  have hall : ∀ c ∈ first, decide (c ≠ stop) = true := by
    intro c hc
    refine decide_eq_true ?_
    rintro rfl
    exact hfirst hc
  rw [takeWhile_append_of_pos hall, dropWhile_append_of_pos hall]
  rcases hrest with rfl | ⟨tail, rfl⟩
  · simp
  · simp

theorem dropWhile_stop (stop : Char) (text : Text) :
    text.dropWhile (· ≠ stop) = [] ∨ ∃ tail, text.dropWhile (· ≠ stop) = stop :: tail := by
  induction text with
  | nil => exact .inl rfl
  | cons c text ih =>
    by_cases hc : c = stop
    · subst hc
      exact .inr ⟨text, by simp⟩
    · rwa [dropWhile_cons_of_pos (p := (· ≠ stop)) (decide_eq_true hc)]

theorem isClosed_dropWhile_iff {rest : Text} : isClosed (rest.dropWhile (· ≠ ']')) = true ↔
    ∃ address port, rest = address ++ ']' :: port ∧ ']' ∉ address ∧ isPort port = true := by
  constructor
  · intro h
    rcases dropWhile_stop ']' rest with hnil | ⟨port, hport⟩
    · rw [hnil] at h
      cases h
    · have hsplit := takeWhile_append_dropWhile (p := (· ≠ ']')) (l := rest)
      rw [hport] at h hsplit
      exact ⟨_, port, hsplit.symm, fun hmem => by simpa using mem_takeWhile_imp hmem, h⟩
  · rintro ⟨address, port, rfl, hbracket, hport⟩
    rw [(takeWhile_append_stop hbracket (.inr ⟨port, rfl⟩)).2]
    exact hport

theorem isHostPort_iff {text : Text} : isHostPort text = true ↔ IsHostPort text := by
  by_cases hhead : text.head? = some '['
  · -- an address in brackets
    obtain ⟨rest, rfl⟩ := head?_eq_some_iff.1 hhead
    rw [isHostPort, if_pos hhead, dropWhile_cons_of_pos (by decide), isClosed_dropWhile_iff]
    constructor
    · rintro ⟨address, port, rfl, hbracket, hport⟩
      exact ⟨'[' :: address ++ [']'], port, by simp, .inr ⟨address, rfl, hbracket⟩, hport⟩
    · rintro ⟨host, port, htext, ⟨hne, hname, -⟩ | ⟨address, rfl, hbracket⟩, hport⟩
      · rw [htext, head?_append_of_ne_nil _ hne] at hhead
        exact absurd hhead hname
      · refine ⟨address, port, ?_, hbracket, hport⟩
        simpa using htext
  · -- a name up to the colon
    rw [isHostPort, if_neg hhead, Bool.and_eq_true, Bool.not_eq_true', isEmpty_eq_false_iff]
    constructor
    · rintro ⟨hne, hport⟩
      have hsplit := takeWhile_append_dropWhile (p := (· ≠ ':')) (l := text)
      refine ⟨_, _, hsplit.symm, .inl ⟨hne, ?_, fun hmem => by simpa using mem_takeWhile_imp hmem⟩, hport⟩
      rwa [← hsplit, head?_append_of_ne_nil _ hne] at hhead
    · rintro ⟨host, port, rfl, ⟨hne, -, hcolon⟩ | ⟨address, rfl, -⟩, hport⟩
      · obtain ⟨htake, hdrop⟩ := takeWhile_append_stop hcolon (colon_or_nil_of_isPort hport)
        rw [htake, hdrop]
        exact ⟨hne, hport⟩
      · exact absurd rfl hhead

/-! ## The URL that is built -/

section

variable {decodeUtf8 : Text → Except String Text} {domain url host : Text} {pathSegments segments : List Text}

/-- The segments, decoded, are components but for what the check leaves out. -/
def Decoded (decodeUtf8 : Text → Except String Text) (pathSegments segments : List Text) : Prop :=
  List.Forall₂ (fun segment decoded => decodeUtf8 segment = .ok decoded ∧ isComponent decoded = true) pathSegments
    segments

theorem pushSegments_eq_ok_iff : pushSegments decodeUtf8 host pathSegments = .ok url ↔
    ∃ segments, Decoded decodeUtf8 pathSegments segments ∧ url = host ++ (segments.map ('/' :: ·)).flatten := by
  induction pathSegments generalizing host with
  | nil =>
    constructor
    · intro h
      cases h
      exact ⟨[], .nil, (append_nil _).symm⟩
    · rintro ⟨segments, hsegments, rfl⟩
      cases hsegments
      exact congrArg Except.ok (append_nil _).symm
  | cons segment rest ih =>
    unfold pushSegments
    simp only [bind_eq_ok_iff, guard_eq_ok_iff, mapError_eq_ok_iff, ih]
    constructor
    · rintro ⟨decoded, hdecoded, hcomponent, segments, hsegments, rfl⟩
      have hvalid : isComponent decoded = true := by simpa using hcomponent
      exact ⟨decoded :: segments, .cons ⟨hdecoded, hvalid⟩ hsegments, by simp⟩
    · rintro ⟨_, hsegments, rfl⟩
      obtain _ | @⟨_, decoded, _, segments, ⟨hdecoded, hvalid⟩, hsegments⟩ := hsegments
      exact ⟨decoded, hdecoded, by simp [hvalid], segments, hsegments, by simp⟩

theorem buildUrl_eq_ok_iff : buildUrl decodeUtf8 domain pathSegments = .ok url ↔
    ∃ host segments, decodeUtf8 domain = .ok host ∧ host ≠ [] ∧ Decoded decodeUtf8 pathSegments segments ∧
      url = scheme ++ host ++ documentPath segments := by
  unfold buildUrl
  simp only [bind_eq_ok_iff, guard_eq_ok_iff, mapError_eq_ok_iff]
  constructor
  · rintro ⟨host, hhost, hne, h⟩
    have hne : host ≠ [] := fun heq => hne (isEmpty_iff.2 heq)
    cases pathSegments with
    | nil =>
      cases h
      exact ⟨host, [], hhost, hne, .nil, rfl⟩
    | cons segment rest =>
      obtain ⟨pushed, hpushed, hurl⟩ := bind_eq_ok_iff.1 h
      obtain ⟨segments, hsegments, rfl⟩ := pushSegments_eq_ok_iff.1 hpushed
      cases hurl
      refine ⟨host, segments, hhost, hne, hsegments, ?_⟩
      have hcons : segments ≠ [] := by
        rintro rfl
        cases hsegments
      rw [documentPath, if_neg hcons, append_assoc, append_assoc]
  · rintro ⟨host, segments, hhost, hne, hsegments, rfl⟩
    refine ⟨host, hhost, fun h => hne (isEmpty_iff.1 h), ?_⟩
    cases hsegments with
    | nil => rfl
    | cons hsegment hrest =>
      refine bind_eq_ok_iff.2 ⟨_, pushSegments_eq_ok_iff.2 ⟨_, .cons hsegment hrest, rfl⟩, ?_⟩
      rw [documentPath, if_neg (cons_ne_nil _ _), append_assoc, append_assoc]

theorem isComponent_iff {segment : Text} : isComponent segment = true ↔
    segment ≠ [] ∧ segment ≠ ".".toList ∧ segment ≠ "..".toList ∧ '/' ∉ segment ∧ '\\' ∉ segment := by
  unfold isComponent
  rw [Bool.not_eq_true', Bool.or_eq_false_iff, Bool.or_eq_false_iff, Bool.or_eq_false_iff, Bool.or_eq_false_iff,
    isEmpty_eq_false_iff, beq_eq_false_iff_ne, beq_eq_false_iff_ne, ← Bool.not_eq_true, ← Bool.not_eq_true,
    contains_iff_mem, contains_iff_mem, and_assoc, and_assoc, and_assoc]

section

variable (h : Decoded decodeUtf8 pathSegments segments)
include h

theorem Decoded.mapM : pathSegments.mapM decodeUtf8 = .ok segments := by
  induction h with
  | nil => rfl
  | cons hsegment _ ih =>
    rw [mapM_cons, hsegment.1, ih]
    rfl

theorem Decoded.isComponent : ∀ segment ∈ segments, isComponent segment = true := by
  induction h with
  | nil => exact forall_mem_nil _
  | cons hsegment _ ih => exact forall_mem_cons.2 ⟨hsegment.2, ih⟩

theorem Decoded.forall_iff {p q : Text → Prop} (hsame : ∀ segment ∈ pathSegments, ∀ decoded, decodeUtf8 segment =
    .ok decoded → (p decoded ↔ q segment)) : (∀ decoded ∈ segments, p decoded) ↔ ∀ segment ∈ pathSegments,
    q segment := by
  induction h with
  | nil => exact iff_of_true (forall_mem_nil _) (forall_mem_nil _)
  | cons hsegment _ ih =>
    obtain ⟨hfirst, hrest⟩ := forall_mem_cons.1 hsame
    rw [forall_mem_cons, forall_mem_cons, hfirst _ hsegment.1, ih hrest]

end

/-! ## The shape is read off the URL -/

theorem count_documentPath {segments : List Text} (h : ∀ segment ∈ segments, '/' ∉ segment) :
    (documentPath segments).count '/' = if segments = [] then 2 else segments.length + 1 := by
  unfold documentPath
  split
  · decide
  · rw [count_append, count_flatten, map_map]
    have hone : ∀ segment ∈ segments, (count '/' ∘ fun segment => '/' :: segment) segment = 1 := by
      intro segment hsegment
      show ('/' :: segment).count '/' = 1
      rw [count_cons_self, count_eq_zero.2 (h segment hsegment)]
    rw [map_congr_left hone, map_const', sum_replicate_nat, Nat.mul_one]
    rfl

theorem host_unique {other : Text} {others : List Text}
    (h : host ++ documentPath segments = other ++ documentPath others)
    (hother : '/' ∉ other) (hlength : others.length = segments.length)
    (hsegments : ∀ segment ∈ segments, '/' ∉ segment) (hothers : ∀ segment ∈ others, '/' ∉ segment) :
    host = other ∧ documentPath segments = documentPath others := by
  have hcount : (documentPath segments).count '/' = (documentPath others).count '/' := by
    have hnil : others = [] ↔ segments = [] := by
      rw [← length_eq_zero_iff, hlength, length_eq_zero_iff]
    simp only [count_documentPath hsegments, count_documentPath hothers, hnil, hlength]
  have htotal := congrArg (count '/') h
  rw [count_append, count_append, hcount, count_eq_zero.2 hother] at htotal
  have hhost : '/' ∉ host := count_eq_zero.1 (by omega)
  have hslash : ∀ segments, ∃ tail, documentPath segments = '/' :: tail := by
    intro segments
    unfold documentPath
    cases segments with
    | nil => exact ⟨_, rfl⟩
    | cons segment rest => exact ⟨_, rfl⟩
  have hfirst := (takeWhile_append_stop hhost (.inr (hslash segments))).1
  rw [h, (takeWhile_append_stop hother (.inr (hslash others))).1] at hfirst
  subst hfirst
  exact ⟨rfl, append_cancel_left h⟩

theorem mem_documentPath {segment : Text} {c : Char} (hsegment : segment ∈ segments) (hc : c ∈ segment) :
    c ∈ documentPath segments := by
  rw [documentPath, if_neg (ne_nil_of_mem hsegment)]
  exact mem_append_left _ (mem_flatten.2 ⟨_, mem_map_of_mem hsegment, mem_cons_of_mem _ hc⟩)

theorem exists_segment {c : Char} (hc : c ∈ ['?', '#']) (h : c ∈ documentPath segments) :
    ∃ segment ∈ segments, c ∈ segment := by
  have hliteral : c ∉ "/.well-known/did.json".toList ∧ c ∉ "/did.json".toList ∧ c ≠ '/' := by
    rcases mem_pair.1 hc with rfl | rfl
    · decide
    · decide
  unfold documentPath at h
  split at h
  · exact absurd h hliteral.1
  · rcases mem_append.1 h with h | h
    · obtain ⟨_, hpart, hmem⟩ := mem_flatten.1 h
      obtain ⟨segment, hsegment, rfl⟩ := mem_map.1 hpart
      rcases mem_cons.1 hmem with rfl | hmem
      · exact absurd rfl hliteral.2.2
      · exact ⟨segment, hsegment, hmem⟩
    · exact absurd h hliteral.2.1

theorem keepsShape_iff (hcomponents : ∀ segment ∈ segments, isComponent segment = true) :
    KeepsShape (scheme ++ host ++ documentPath segments) segments.length ↔
      IsHostPort host ∧ (∀ c ∈ hostDelimiters, c ∉ host) ∧ ∀ segment ∈ segments, ∀ c ∈ ['?', '#'], c ∉ segment := by
  have hslash : ∀ segment ∈ segments, '/' ∉ segment := fun segment hsegment =>
    (isComponent_iff.1 (hcomponents segment hsegment)).2.2.2.1
  constructor
  · rintro ⟨other, others, hurl, hport, hdelimiters, hlength, hothers⟩
    rw [append_assoc, append_assoc] at hurl
    obtain ⟨rfl, hpath⟩ := host_unique (append_cancel_left hurl) (hdelimiters '/' (by decide)) hlength hslash
      fun segment hsegment => (hothers segment hsegment).plain '/' (by decide)
    refine ⟨hport, hdelimiters, fun segment hsegment c hc hmem => ?_⟩
    obtain ⟨component, hcomponent, hmem⟩ := exists_segment hc (hpath ▸ mem_documentPath hsegment hmem)
    refine (hothers component hcomponent).plain c ?_ hmem
    rcases mem_pair.1 hc with rfl | rfl
    · decide
    · decide
  · rintro ⟨hport, hdelimiters, hplain⟩
    refine ⟨host, segments, rfl, hport, hdelimiters, rfl, fun segment hsegment => ?_⟩
    obtain ⟨hne, hdot, hdots, hslash, hback⟩ := isComponent_iff.1 (hcomponents segment hsegment)
    refine ⟨hne, hdot, hdots, ?_⟩
    simp only [forall_mem_cons]
    exact ⟨hslash, hback, hplain segment hsegment '?' (by decide), hplain segment hsegment '#' (by decide),
      by rintro _ ⟨⟩⟩

/-- None of these is in the text. -/
def isFree {α : Type} [BEq α] (chars text : List α) : Bool := chars.all fun c => !text.contains c

theorem isFree_iff {α : Type} [BEq α] [LawfulBEq α] {chars text : List α} :
    isFree chars text = true ↔ ∀ c ∈ chars, c ∉ text := by
  simp [isFree]

theorem documentPath_eq : documentPath segments = pathOf (documentComponents segments) := by
  unfold documentPath documentComponents pathOf
  split
  · rfl
  · rw [map_append, flatten_append]
    rfl

/-- A plain host is read as it is, and so are the components of the segments and of the document. -/
theorem read_documentPath {reader : UrlReader} (hreader : reader.Documented) (hhost : IsPlainHost host)
    (hsegments : ∀ segment ∈ segments, IsPlainComponent segment) :
    reader.read (scheme ++ host ++ documentPath segments) = some (host, documentComponents segments) := by
  have hliteral : IsPlainComponent ".well-known".toList ∧ IsPlainComponent "did.json".toList :=
    ⟨⟨by decide, isFree_iff.1 (by decide), by decide⟩, ⟨by decide, isFree_iff.1 (by decide), by decide⟩⟩
  rw [documentPath_eq]
  unfold documentComponents
  split
  · exact hreader.plain hhost (cons_ne_nil _ _) ((forall_mem_cons.2 ⟨hliteral.1, forall_mem_singleton.2 hliteral.2⟩))
  · refine hreader.plain hhost (append_ne_nil_of_right_ne_nil _ (cons_ne_nil _ _)) fun component hcomponent => ?_
    rcases mem_append.1 hcomponent with hcomponent | hcomponent
    · exact hsegments component hcomponent
    · obtain rfl := mem_singleton.1 hcomponent
      exact hliteral.2

theorem mem_documentComponents {segment : Text} (h : segment ∈ segments) : segment ∈ documentComponents segments := by
  rw [documentComponents, if_neg (ne_nil_of_mem h)]
  exact mem_append_left _ h

/-! ## Identifiers -/

theorem mem_intercalate_of_mem {sep c : Char} {parts : List Text} {part : Text} (hpart : part ∈ parts)
    (hc : c ∈ part) : c ∈ [sep].intercalate parts := by
  induction parts with
  | nil => cases hpart
  | cons first rest ih =>
    by_cases hrest : rest = []
    · subst hrest
      obtain rfl := mem_singleton.1 hpart
      simpa [intercalate] using hc
    · rw [intercalate_cons_of_ne_nil hrest, mem_append, mem_append]
      rcases mem_cons.1 hpart with rfl | hpart
      · exact .inl (.inl hc)
      · exact .inr (ih hpart)

variable {Url : Type} {crates : Decoders Url} {text identifier : Text} {did : DID Url}

theorem plain_of_fromStr (hdid : DID.fromStr crates text = .ok did)
    (hweb : did.method = .web identifier domain pathSegments) {part : Text} (hpart : part ∈ domain :: pathSegments)
    {c : Char} (hc : c ∈ hostDelimiters ++ removed) : c ∉ part := by
  have hmethod := (valid_of_fromStr hdid).method_ok
  rw [hweb] at hmethod
  obtain ⟨hformat, hparse⟩ := unit_bind_eq_ok_iff.1 hmethod
  have hlookup : (parsers crates).lookup (DIDMethod.web identifier domain pathSegments).name = some parseWeb := rfl
  rw [hlookup] at hparse
  have hsame : (.web identifier ((segments identifier).headD []) (segments identifier).tail : DIDMethod) =
      .web identifier domain pathSegments := pure_eq_ok_iff.1 hparse
  obtain ⟨-, hdomain, hsegments⟩ := DIDMethod.web.inj hsame
  have hpercent : (isIdchar '%' || '%' == ':') = false := by decide
  have hencoded : identifier ∈ encoded fun c => isIdchar c || c == ':' := by
    unfold validateIdentifierFormat at hformat
    obtain ⟨-, hformat⟩ := guard_eq_ok_iff.1 hformat
    obtain ⟨-, hformat⟩ := guard_eq_ok_iff.1 hformat
    exact (validateSequence_eq_ok_iff hpercent identifier).1 (mapError_eq_ok_iff.1 hformat)
  have hplain : ∀ c ∈ identifier, (hostDelimiters ++ removed).contains c = false := plain_of_encoded hencoded (by
    intro c hc
    simp only [hostDelimiters, removed, cons_append, nil_append, contains_cons, contains_nil, Bool.or_false,
      Bool.or_eq_true, beq_iff_eq] at hc
    rcases hc with rfl | rfl | rfl | rfl | rfl | rfl | rfl | rfl
    all_goals decide)
  intro hmem
  have hidentifier : c ∈ identifier := by
    have hparts : part ∈ segments identifier ∨ part = [] := by
      subst hdomain hsegments
      cases hsegs : segments identifier with
      | nil =>
        rw [hsegs] at hpart
        exact .inr (mem_singleton.1 hpart)
      | cons first rest =>
        rw [hsegs] at hpart
        exact .inl hpart
    rcases hparts with hparts | rfl
    · have hjoin : [':'].intercalate (segments identifier) = identifier := intercalate_splitOn ':'
      rw [← hjoin]
      exact mem_intercalate_of_mem hparts hmem
    · cases hmem
  have hnot := hplain c hidentifier
  rw [contains_iff_mem.2 hc] at hnot
  cases hnot

/-- The URL of a `did:web` has the shape of a document's, and fetches what the identifier names, just where nothing
that ends a host, a path or a port, and nothing that the URL parser takes out or resolves, comes out of the escapes. -/
theorem buildUrl_keepsShape_iff {reader : UrlReader} (hreader : reader.Documented)
    (hdecode : Decodes decodeUtf8) (hdid : DID.fromStr crates text = .ok did)
    (hweb : did.method = .web identifier domain pathSegments)
    (hurl : buildUrl decodeUtf8 domain pathSegments = .ok url) :
    KeepsShape url pathSegments.length ∧ FetchesNamed reader decodeUtf8 domain pathSegments url ↔
      Unescaped decodeUtf8 domain pathSegments := by
  obtain ⟨host, segments, hhost, -, hsegments, rfl⟩ := buildUrl_eq_ok_iff.1 hurl
  have hall : (hostDelimiters ++ removed).all fun c => c.toNat < 128 := by decide
  have hascii : ∀ c ∈ hostDelimiters ++ removed, c.toNat < 128 := fun c hc =>
    of_decide_eq_true (all_eq_true.1 hall c hc)
  have hsubset : ['?', '#'] ++ removed ⊆ hostDelimiters ++ removed := by decide
  have hdelimiters : (∀ c ∈ hostDelimiters ++ removed, c ∉ host) ↔
      ∀ c ∈ hostDelimiters ++ removed, octet c ∉ escapes domain := by
    refine forall₂_congr fun c hc => not_congr ?_
    exact hdecode.mem_iff hhost (hascii c hc) (plain_of_fromStr hdid hweb mem_cons_self hc)
  have hplain : (∀ segment ∈ segments, (∀ c ∈ ['?', '#'] ++ removed, c ∉ segment) ∧ isDotSegment segment = false) ↔
      ∀ segment ∈ pathSegments, (∀ c ∈ ['?', '#'] ++ removed, octet c ∉ escapes segment) ∧
        ∀ decoded, decodeUtf8 segment = .ok decoded → isDotSegment decoded = false := by
    refine hsegments.forall_iff fun segment hsegment decoded hdecoded => and_congr ?_ ?_
    · refine forall₂_congr fun c hc => not_congr ?_
      exact hdecode.mem_iff hdecoded (hascii c (hsubset hc))
        (plain_of_fromStr hdid hweb (mem_cons_of_mem domain hsegment) (hsubset hc))
    · simp [hdecoded]
  have hport : IsHostPort host ∧ '%' ∉ host ↔
      ∀ other, decodeUtf8 domain = .ok other → isHostPort other = true ∧ '%' ∉ other := by
    simp [hhost, isHostPort_iff]
  rw [← Forall₂.length_eq hsegments.flip, keepsShape_iff hsegments.isComponent]
  constructor
  · rintro ⟨⟨hhostPort, hhostPlain, hsegmentsPlain⟩, host', segments', hhost', hsegments', hread⟩
    cases hhost'.symm.trans hhost
    cases hsegments'.symm.trans hsegments.mapM
    have hremoved := forall_mem_cons.1 (hreader.host hread)
    refine ⟨hdelimiters.1 (forall_mem_append.2 ⟨hhostPlain, hremoved.2⟩), hport.1 ⟨hhostPort, hremoved.1⟩,
      hplain.1 fun segment hsegment => ?_⟩
    obtain ⟨hkept, hdot⟩ := hreader.components hread segment (mem_documentComponents hsegment)
    exact ⟨forall_mem_append.2 ⟨hsegmentsPlain segment hsegment, hkept⟩, hdot⟩
  · intro h
    have hhostPlain := hdelimiters.2 h.delimiters
    have hsegmentsPlain := hplain.2 h.segments
    obtain ⟨hhostPort, hescape⟩ := hport.2 h.host
    refine ⟨⟨hhostPort, (forall_mem_append.1 hhostPlain).1, fun segment hsegment =>
      (forall_mem_append.1 (hsegmentsPlain segment hsegment).1).1⟩, host, segments, hhost, hsegments.mapM, ?_⟩
    refine read_documentPath hreader ⟨hhostPort, hhostPlain, hescape⟩ fun segment hsegment => ?_
    obtain ⟨hne, -, -, hslash, hback⟩ := isComponent_iff.1 (hsegments.isComponent segment hsegment)
    obtain ⟨hother, hdot⟩ := hsegmentsPlain segment hsegment
    exact ⟨hne, forall_mem_cons.2 ⟨hslash, forall_mem_cons.2 ⟨hback, hother⟩⟩, hdot⟩

end

/-! ## Two identifiers -/

/-- A reader that refuses what the URL parser takes out or resolves. -/
def strictReader : UrlReader where
  read url := (stripPrefix scheme url).bind fun rest =>
    let (authority, rest) := cut rest fun c => ['/', '\\', '?', '#'].contains c
    let host := (authority.reverse.takeWhile (· ≠ '@')).reverse
    let components := ((cut rest fun c => ['?', '#'].contains c).1.splitOn '/').tail
    if isFree ('%' :: removed) host && components.all fun component =>
        isFree removed component && !isDotSegment component then some (host, components)
    else none

theorem pathOf_eq_intercalate (components : List Text) :
    pathOf components = ['/'].intercalate ([] :: components) := by
  induction components with
  | nil => rfl
  | cons component rest ih =>
    rw [intercalate_cons_of_ne_nil (cons_ne_nil _ _), nil_append]
    show '/' :: (component ++ pathOf rest) = _
    rw [ih]
    cases rest with
    | nil => simp [intercalate]
    | cons next rest =>
      rw [intercalate_cons_of_ne_nil (cons_ne_nil _ _), intercalate_cons_of_ne_nil (cons_ne_nil _ _)]
      simp

theorem mem_pathOf {c : Char} {components : List Text} (hc : c ∈ pathOf components) :
    c = '/' ∨ ∃ component ∈ components, c ∈ component := by
  obtain ⟨_, hpart, hmem⟩ := mem_flatten.1 hc
  obtain ⟨component, hcomponent, rfl⟩ := mem_map.1 hpart
  exact (mem_cons.1 hmem).imp_right fun hmem => ⟨component, hcomponent, hmem⟩

section

variable {host : Text} {components : List Text}

theorem cut_authority (hhost : IsPlainHost host) (hne : components ≠ []) :
    cut (host ++ pathOf components) (fun c => ['/', '\\', '?', '#'].contains c) = (host, pathOf components) := by
  refine cut_append (fun c hc => Bool.eq_false_iff.2 fun hend => hhost.plain c ?_ hc) fun c hc => ?_
  · have hsub : ['/', '\\', '?', '#'] ⊆ hostDelimiters ++ removed := by decide
    exact hsub (contains_iff_mem.1 hend)
  · cases components with
    | nil => contradiction
    | cons component rest =>
      cases hc
      decide

variable (hcomponents : ∀ component ∈ components, IsPlainComponent component)
include hcomponents

theorem cut_pathOf : cut (pathOf components) (fun c => ['?', '#'].contains c) = (pathOf components, []) := by
  have happend : cut (pathOf components ++ []) (fun c => ['?', '#'].contains c) = (pathOf components, []) := by
    refine cut_append (fun c hc => Bool.eq_false_iff.2 fun hend => ?_) (by rintro _ ⟨⟩)
    have hsub : ['?', '#'] ⊆ ['/', '\\', '?', '#'] ++ removed := by decide
    rcases mem_pathOf hc with rfl | ⟨component, hcomponent, hc⟩
    · exact absurd hend (by decide)
    · exact (hcomponents component hcomponent).plain c (hsub (contains_iff_mem.1 hend)) hc
  rwa [append_nil] at happend

theorem splitOn_pathOf : (pathOf components).splitOn '/' = [] :: components := by
  rw [pathOf_eq_intercalate]
  refine splitOn_intercalate '/' (forall_mem_cons.2 ⟨not_mem_nil, fun component hcomponent => ?_⟩) (cons_ne_nil _ _)
  exact (hcomponents component hcomponent).plain '/' (by decide)

end

theorem strictReader_documented : strictReader.Documented := by
  have hread : ∀ {url host components}, strictReader.read url = some (host, components) →
      (∀ c ∈ '%' :: removed, c ∉ host) ∧
        ∀ component ∈ components, (∀ c ∈ removed, c ∉ component) ∧ isDotSegment component = false := by
    intro url host components h
    obtain ⟨rest, -, h⟩ := Option.bind_eq_some_iff.1 h
    obtain ⟨hkept, h⟩ := Option.ite_none_right_eq_some.1 h
    cases h
    obtain ⟨hhost, hcomponents⟩ := Bool.and_eq_true_iff.1 hkept
    refine ⟨isFree_iff.1 hhost, fun component hcomponent => ?_⟩
    obtain ⟨hfree, hdot⟩ := Bool.and_eq_true_iff.1 (all_eq_true.1 hcomponents component hcomponent)
    exact ⟨isFree_iff.1 hfree, by simpa using hdot⟩
  refine ⟨fun {host components} hhost hne hcomponents => ?_, fun h => (hread h).1, fun h => (hread h).2⟩
  have hname : host.reverse.takeWhile (· ≠ '@') = host.reverse := by
    refine takeWhile_eq_self_iff.2 fun c hc => decide_eq_true ?_
    rintro rfl
    exact hhost.plain '@' (by decide) (mem_reverse.1 hc)
  have hstrip : stripPrefix scheme (scheme ++ host ++ pathOf components) = some (host ++ pathOf components) := by
    rw [append_assoc]
    exact stripPrefix_eq_some_iff.2 rfl
  have hkept : (isFree ('%' :: removed) host && components.all fun component =>
      isFree removed component && !isDotSegment component) = true := by
    refine Bool.and_eq_true_iff.2 ⟨isFree_iff.2 (forall_mem_cons.2 ⟨hhost.unescaped,
      (forall_mem_append.1 hhost.plain).2⟩), all_eq_true.2 fun component hcomponent => ?_⟩
    have hplain := hcomponents component hcomponent
    exact Bool.and_eq_true_iff.2 ⟨isFree_iff.2 (forall_mem_append.1 hplain.plain).2, by simpa using hplain.not_dot⟩
  unfold strictReader
  simp only [hstrip, Option.bind_some, cut_authority hhost hne, cut_pathOf hcomponents, hname, reverse_reverse,
    splitOn_pathOf hcomponents, tail_cons]
  exact if_pos hkept

def webDid (identifier domain : Text) (pathSegments : List Text) : DID Text :=
  ⟨.web identifier domain pathSegments, none, none, none, "did:web:".toList ++ identifier⟩

theorem decode_alice : decode "example.com%3A8443".toList = .ok "example.com:8443".toList :=
  decode_decodes.eq_ok_iff.2 (by decide +kernel)

/-- Alice's document behind a port is fetched where it is named. -/
theorem buildUrl_keepsShape_alice :
    KeepsShape "https://example.com:8443/user/alice/did.json".toList 2 ∧
      FetchesNamed strictReader decode "example.com%3A8443".toList ["user".toList, "alice".toList]
        "https://example.com:8443/user/alice/did.json".toList := by
  have hdid : DID.fromStr plainDecoders "did:web:example.com%3A8443:user:alice".toList =
      .ok (webDid "example.com%3A8443:user:alice".toList "example.com%3A8443".toList
        ["user".toList, "alice".toList]) := by
    decide +kernel
  have hsegments : ∀ segment ∈ ["user".toList, "alice".toList], decode segment = .ok segment ∧
      isComponent segment = true := by
    intro segment hsegment
    rcases mem_pair.1 hsegment with rfl | rfl
    · exact ⟨decode_decodes.eq_ok_iff.2 (by decide +kernel), by decide⟩
    · exact ⟨decode_decodes.eq_ok_iff.2 (by decide +kernel), by decide⟩
  have hurl : buildUrl decode "example.com%3A8443".toList ["user".toList, "alice".toList] =
      .ok "https://example.com:8443/user/alice/did.json".toList :=
    buildUrl_eq_ok_iff.2 ⟨_, _, decode_alice, by decide, forall₂_same.2 hsegments, rfl⟩
  have hdomain : isFree ((hostDelimiters ++ removed).map octet) (escapes "example.com%3A8443".toList) = true := by
    decide +kernel
  have hfree : ["user".toList, "alice".toList].all fun segment =>
      isFree ((['?', '#'] ++ removed).map octet) (escapes segment) := by
    decide +kernel
  refine (buildUrl_keepsShape_iff strictReader_documented decode_decodes hdid rfl hurl).2 ⟨?_, ?_, ?_⟩
  · exact fun c hc => isFree_iff.1 hdomain _ (mem_map_of_mem hc)
  · intro host hhost
    cases decode_alice.symm.trans hhost
    decide
  · intro segment hsegment
    refine ⟨fun c hc => isFree_iff.1 (all_eq_true.1 hfree segment hsegment) _ (mem_map_of_mem hc),
      fun decoded hdecoded => ?_⟩
    cases (hsegments segment hsegment).1.symm.trans hdecoded
    rcases mem_pair.1 hsegment with rfl | rfl
    · decide
    · decide

/-- An escaped at sign: the document of a bank is fetched from somewhere else. -/
theorem buildUrl_otherHost : ∃ did url,
    DID.fromStr plainDecoders "did:web:bank.com%40evil.com".toList = .ok did ∧
    did.method = .web "bank.com%40evil.com".toList "bank.com%40evil.com".toList [] ∧
    buildUrl decode "bank.com%40evil.com".toList [] = .ok url ∧
    strictReader.read url = some ("evil.com".toList, [".well-known".toList, "did.json".toList]) ∧
    ¬KeepsShape url 0 ∧ ¬FetchesNamed strictReader decode "bank.com%40evil.com".toList [] url := by
  have hdecode : decode "bank.com%40evil.com".toList = .ok "bank.com@evil.com".toList :=
    decode_decodes.eq_ok_iff.2 (by decide +kernel)
  have hread : strictReader.read (scheme ++ "bank.com@evil.com".toList ++ documentPath []) =
      some ("evil.com".toList, [".well-known".toList, "did.json".toList]) := by
    decide +kernel
  refine ⟨webDid "bank.com%40evil.com".toList "bank.com%40evil.com".toList [], _, by decide +kernel, rfl,
    buildUrl_eq_ok_iff.2 ⟨_, [], hdecode, by decide, .nil, rfl⟩, hread, fun hshape => ?_, ?_⟩
  · have hcomponents : ∀ segment ∈ ([] : List Text), isComponent segment = true := forall_mem_nil _
    exact ((keepsShape_iff hcomponents).1 hshape).2.1 '@' (by decide) (by decide)
  · rintro ⟨host, segments, hhost, -, hnamed⟩
    cases hdecode.symm.trans hhost
    rw [hread] at hnamed
    have hhost : "evil.com".toList = "bank.com@evil.com".toList := congrArg Prod.fst (Option.some.inj hnamed)
    exact absurd hhost (by decide)

end AffinidiTdk.Did
