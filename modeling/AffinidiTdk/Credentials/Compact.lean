/-
SD-JWTs, their disclosures and their compact form (`affinidi-sd-jwt`, `disclosure.rs` and `lib.rs`).
The JSON codec and the hash function are parameters; base64url is the library's. The compact form is
read back as it was written. The parser also takes layouts that are not written so: it skips empty
segments and does not ask for the separator after the last disclosure.
-/
import AffinidiTdk.Lib.Base64
import AffinidiTdk.Lib.Except
import AffinidiTdk.Lib.Json
import AffinidiTdk.Lib.Text

namespace AffinidiTdk.Credentials

open Fallible List Option Text

/-! ## Disclosures -/

/-- The error kinds of the SD-JWT crate. -/
inductive SdJwtError
  | invalidFormat (msg : String)
  | invalidDisclosure (msg : String)
  | signing (msg : String)
  | verification (msg : String)
  | invalidFrame (msg : String)
  | json
  | keyBinding (msg : String)
  deriving DecidableEq

/-- `SdHasher`. -/
structure Hasher where
  algName : String
  hash : List UInt8 → List UInt8

def Hasher.hashB64 (hasher : Hasher) (input : String) : String :=
  String.ofList (Base64.encode (hasher.hash (Text.utf8 input)))

/-- `serde_json::to_string` of a value and `serde_json::from_str` of an array. -/
structure JsonCodec where
  toStr : Json → String
  fromStr : String → Option (List Json)

/-- A disclosure with its encoded form and the digest of that form. -/
structure Disclosure where
  salt : String
  claimName : Option String
  claimValue : Json
  serialized : String
  digest : String
  deriving DecidableEq

variable (codec : JsonCodec) (hasher : Hasher)

namespace Disclosure

/-- The array a disclosure encodes: salt, name where there is one, value. -/
def array (salt : String) (claimName : Option String) (claimValue : Json) : List Json :=
  .str salt :: (claimName.toList.map .str ++ [claimValue])

def build (salt : String) (claimName : Option String) (claimValue : Json) : Disclosure :=
  let jsonStr := codec.toStr (.arr (array salt claimName claimValue))
  let serialized := String.ofList (Base64.encode (Text.utf8 jsonStr))
  ⟨salt, claimName, claimValue, serialized, hasher.hashB64 serialized⟩

def parse (serialized : String) : Except SdJwtError Disclosure :=
  match Base64.decode serialized.toList with
  | none => .error (.invalidDisclosure "base64 decode failed")
  | some bytes =>
    match Text.fromUtf8 bytes with
    | none => .error (.invalidDisclosure "invalid UTF-8")
    | some jsonStr =>
      match codec.fromStr jsonStr with
      | none => .error .json
      | some [salt, name, value] =>
        match salt.asStr with
        | none => .error (.invalidDisclosure "salt must be a string")
        | some salt =>
          match name.asStr with
          | none => .error (.invalidDisclosure "claim name must be a string")
          | some name => .ok ⟨salt, some name, value, serialized, hasher.hashB64 serialized⟩
      | some [salt, value] =>
        match salt.asStr with
        | none => .error (.invalidDisclosure "salt must be a string")
        | some salt => .ok ⟨salt, none, value, serialized, hasher.hashB64 serialized⟩
      | some arr => .error (.invalidDisclosure s!"expected 2 or 3 elements, got {arr.length}")

end Disclosure

/-! ## The compact form -/

/-- The parts of the compact form. -/
structure SdJwt where
  jws : String
  disclosures : List Disclosure
  kbJwt : Option String
  deriving DecidableEq

namespace SdJwt

def serializeWithoutKb (x : SdJwt) : String :=
    Text.join '~' (x.jws :: x.disclosures.map Disclosure.serialized) ++ "~"

def serialize (x : SdJwt) : String :=
  match x.kbJwt with
  | some kb => x.serializeWithoutKb ++ kb
  | none => x.serializeWithoutKb

/-- `split('.').count() == 3`. -/
def threeParts (s : String) : Bool := (Text.split '.' s).length = 3

/-- The segments after the JWS that may be disclosures, and the KB-JWT, told by the last segment. -/
def segments (rest : List String) : List String × Option String :=
  match rest.getLast? with
  | none => ([], none)
  | some last =>
    if last = "" then (rest.dropLast, none)
    else if threeParts last then (rest.dropLast, some last)
    else (rest, none)

def parse (serialized : String) : Except SdJwtError SdJwt :=
  if serialized = "" then .error (.invalidFormat "empty input")
  else
    let parts := Text.split '~' serialized
    let jws := parts.headD ""
    if ¬threeParts jws then .error (.invalidFormat "JWS must have 3 dot-separated parts")
    else do
      let disclosures ← ((segments parts.tail).1.filter (· ≠ "")).mapM (Disclosure.parse codec hasher)
      .ok ⟨jws, disclosures, (segments parts.tail).2⟩

end SdJwt

/-! ## Reading back what was serialized -/

def Base64url (s : String) : Prop := ∀ c ∈ s.toList, (Base64.index? c).isSome

instance : DecidablePred Base64url := fun s => List.decidableBAll _ s.toList

/-- Three base64url parts with dots between them. -/
def CompactJws (s : String) : Prop := ∃ parts, parts.length = 3 ∧ (∀ part ∈ parts, Base64url part) ∧ s =
    Text.join '.' parts

theorem tilde_not_mem {s : String} (h : Base64url s) : '~' ∉ s.toList := fun hmem =>
  absurd (h _ hmem) (by decide)

theorem base64url_encode (bytes : List UInt8) : Base64url (String.ofList (Base64.encode bytes)) := by
  rw [Base64url, String.toList_ofList]
  exact Base64.index?_of_mem_encode bytes

namespace CompactJws

variable {s : String}

theorem threeParts (h : CompactJws s) : SdJwt.threeParts s = true := by
  obtain ⟨parts, hlength, hparts, rfl⟩ := h
  have hne : parts ≠ [] := by
    rintro rfl
    cases hlength
  have hdots : ∀ part ∈ parts, '.' ∉ part.toList := fun part hpart hmem =>
    absurd (hparts part hpart _ hmem) (by decide)
  rw [SdJwt.threeParts, split_join hdots hne, hlength]
  rfl

theorem tilde_not_mem (h : CompactJws s) : '~' ∉ s.toList := by
  obtain ⟨parts, -, hparts, rfl⟩ := h
  rw [Text.join, String.toList_ofList]
  intro hmem
  rcases mem_intercalate hmem with hdot | ⟨list, hlist, hmem⟩
  · exact absurd hdot (by decide)
  · obtain ⟨part, hpart, rfl⟩ := mem_map.1 hlist
    exact Credentials.tilde_not_mem (hparts part hpart) hmem

theorem ne_empty (h : CompactJws s) : s ≠ "" := by
  rintro rfl
  exact absurd h.threeParts (by decide)

end CompactJws

namespace Disclosure

variable {codec hasher}

/-- What a disclosure relies on in the JSON codec: its array is read back, from a text that is not empty. -/
def ReadsBack (codec : JsonCodec) (array : List Json) : Prop :=
  codec.fromStr (codec.toStr (.arr array)) = some array ∧ codec.toStr (.arr array) ≠ ""

variable {claimName : Option String} {claimValue : Json}

theorem parse_build {salt : String} (h : ReadsBack codec (array salt claimName claimValue)) :
    parse codec hasher (build codec hasher salt claimName claimValue).serialized =
    .ok (build codec hasher salt claimName claimValue) := by
  unfold parse build
  simp only [String.toList_ofList, Base64.decode_encode, fromUtf8_utf8, h.1]
  cases claimName <;> rfl

theorem serialized_ne_empty {salt : String} (h : ReadsBack codec (array salt claimName claimValue)) :
    (build codec hasher salt claimName claimValue).serialized ≠ "" := by
  intro hempty
  have hlist := congrArg String.toList hempty
  rw [build, String.toList_ofList] at hlist
  exact h.2 (utf8_injective (Base64.encode_injective (hlist.trans (by decide))))

theorem parse_eq_ok {serialized : String} {d : Disclosure} (h : parse codec hasher serialized = .ok d) :
    d.serialized = serialized := by
  unfold parse at h
  repeat' split at h
  all_goals first | cases h; rfl | cases h

end Disclosure

namespace SdJwt

variable {codec hasher} {x y : SdJwt} {s t : String}

theorem serialize_eq_join (x : SdJwt) :
    x.serialize = Text.join '~' ((x.jws :: x.disclosures.map Disclosure.serialized) ++ [x.kbJwt.getD ""]) := by
  rw [join_append_singleton '~' _ (cons_ne_nil _ _)]
  unfold serialize serializeWithoutKb
  cases x.kbJwt with
  | none => rw [getD_none, String.append_empty]; rfl
  | some kb => rfl

/-- No separator stands inside the parts. -/
structure NoTilde (x : SdJwt) : Prop where
  jws : '~' ∉ x.jws.toList
  disclosures : ∀ d ∈ x.disclosures, '~' ∉ d.serialized.toList
  kbJwt : '~' ∉ (x.kbJwt.getD "").toList

theorem split_serialize (h : x.NoTilde) :
    Text.split '~' x.serialize = x.jws :: (x.disclosures.map Disclosure.serialized ++ [x.kbJwt.getD ""]) := by
  rw [serialize_eq_join]
  refine split_join ?_ (by simp)
  intro part hpart
  rcases mem_append.1 hpart with hpart | hpart
  · rcases mem_cons.1 hpart with rfl | hpart
    · exact h.jws
    · obtain ⟨d, hd, rfl⟩ := mem_map.1 hpart
      exact h.disclosures d hd
  · obtain rfl := mem_singleton.1 hpart
    exact h.kbJwt

theorem segments_append (segs : List String) (last : String) :
    segments (segs ++ [last]) =
      if last = "" then (segs, none) else if threeParts last then (segs, some last) else (segs ++ [last], none) := by
  rw [segments, getLast?_concat, dropLast_concat]

variable {ds : List Disclosure}

theorem mapM_parse_serialized (h : ∀ d ∈ ds, Disclosure.parse codec hasher d.serialized = .ok d) :
    (ds.map Disclosure.serialized).mapM (Disclosure.parse codec hasher) = .ok ds := by
  induction ds with
  | nil => rfl
  | cons d ds ih =>
    rw [map_cons, mapM_cons, h d mem_cons_self, ok_bind, ih fun other hother => h other (mem_cons_of_mem d hother)]
    rfl

theorem serialized_of_mapM {segs : List String} (h : segs.mapM (Disclosure.parse codec hasher) = .ok ds) :
    ds.map Disclosure.serialized = segs := by
  induction segs generalizing ds with
  | nil =>
    obtain rfl := pure_eq_ok_iff.1 h
    rfl
  | cons seg segs ih =>
    rw [mapM_cons] at h
    obtain ⟨d, hd, h⟩ := bind_eq_ok_iff.1 h
    obtain ⟨rest, hrest, h⟩ := bind_eq_ok_iff.1 h
    obtain rfl := pure_eq_ok_iff.1 h
    rw [map_cons, Disclosure.parse_eq_ok hd, ih hrest]

/-- What the compact form is read back as: three base64url parts each for the JWS and the KB-JWT, and
disclosures as they are built. -/
structure WellFormed (codec : JsonCodec) (hasher : Hasher) (x : SdJwt) : Prop where
  jws : CompactJws x.jws
  kbJwt : ∀ kb, x.kbJwt = some kb → CompactJws kb
  disclosures : ∀ d ∈ x.disclosures, ∃ salt claimName claimValue,
    d = Disclosure.build codec hasher salt claimName claimValue ∧
      Disclosure.ReadsBack codec (Disclosure.array salt claimName claimValue)

theorem WellFormed.noTilde (h : x.WellFormed codec hasher) : x.NoTilde where
  jws := h.jws.tilde_not_mem
  disclosures d hd := by
    obtain ⟨salt, claimName, claimValue, rfl, -⟩ := h.disclosures d hd
    exact tilde_not_mem (base64url_encode _)
  kbJwt := by
    cases hkb : x.kbJwt with
    | none => exact not_mem_nil
    | some kb => exact (h.kbJwt kb hkb).tilde_not_mem

theorem parse_serialize (h : x.WellFormed codec hasher) : parse codec hasher x.serialize = .ok x := by
  have hsplit := split_serialize h.noTilde
  have hne : x.serialize ≠ "" := by
    intro hempty
    rw [hempty] at hsplit
    have hlength := congrArg List.length hsplit
    rw [length_cons, length_append] at hlength
    exact absurd hlength (by simp [Text.split])
  have hparsed : ∀ d ∈ x.disclosures, Disclosure.parse codec hasher d.serialized = .ok d := by
    intro d hd
    obtain ⟨salt, claimName, claimValue, rfl, hreads⟩ := h.disclosures d hd
    exact Disclosure.parse_build hreads
  have hnonempty : ∀ seg ∈ x.disclosures.map Disclosure.serialized, seg ≠ "" := by
    intro seg hseg
    obtain ⟨d, hd, rfl⟩ := mem_map.1 hseg
    obtain ⟨salt, claimName, claimValue, rfl, hreads⟩ := h.disclosures d hd
    exact Disclosure.serialized_ne_empty hreads
  have hsegments : segments (x.disclosures.map Disclosure.serialized ++ [x.kbJwt.getD ""]) =
      (x.disclosures.map Disclosure.serialized, x.kbJwt) := by
    rw [segments_append]
    cases hkb : x.kbJwt with
    | none => rw [getD_none, if_pos rfl]
    | some kb =>
      rw [getD_some, if_neg (h.kbJwt kb hkb).ne_empty, if_pos (h.kbJwt kb hkb).threeParts]
  have hfilter : (x.disclosures.map Disclosure.serialized).filter (· ≠ "") =
      x.disclosures.map Disclosure.serialized :=
    filter_eq_self.2 fun seg hseg => decide_eq_true (hnonempty seg hseg)
  simp only [parse, if_neg hne, hsplit, headD_cons, tail_cons, h.jws.threeParts, hsegments, hfilter,
    mapM_parse_serialized hparsed, ok_bind, not_true_eq_false, if_false]

/-! ## Serializing what was read -/

/-- The layout that is written: a separator after the JWS and after every disclosure, no segment empty,
and after the last separator nothing or a KB-JWT. -/
def Layout (s : String) : Prop :=
  ∃ jws segs last, Text.split '~' s = jws :: (segs ++ [last]) ∧ (∀ seg ∈ segs, seg ≠ "") ∧
    (last = "" ∨ threeParts last = true)

/-- What is read: the JWS is the first segment, and the disclosures are the segments that are not empty. -/
theorem parse_eq_ok (h : parse codec hasher s = .ok x) :
    ∃ rest, Text.split '~' s = x.jws :: rest ∧
      x.disclosures.map Disclosure.serialized = (segments rest).1.filter (· ≠ "") ∧ x.kbJwt = (segments rest).2 := by
  unfold parse at h
  dsimp only at h
  cases hsplit : Text.split '~' s with
  | nil => exact absurd hsplit (split_ne_nil '~' s)
  | cons jws rest =>
    rw [hsplit, headD_cons, tail_cons] at h
    split_ifs at h
    obtain ⟨ds, hds, h⟩ := bind_eq_ok_iff.1 h
    cases h
    exact ⟨rest, rfl, serialized_of_mapM hds, rfl⟩

variable {rest : List String}

theorem mem_of_mem_segments {seg : String} (h : seg ∈ (segments rest).1) : seg ∈ rest := by
  unfold segments at h
  split at h
  · cases h
  · split_ifs at h
    · exact mem_of_mem_dropLast h
    · exact mem_of_mem_dropLast h
    · exact h

theorem kb_of_segments {kb : String} (h : (segments rest).2 = some kb) : kb ∈ rest := by
  unfold segments at h
  split at h
  · cases h
  · rename_i last hlast
    split_ifs at h
    cases h
    exact mem_of_getLast? hlast

theorem noTilde_of_parse (h : parse codec hasher s = .ok x) : x.NoTilde := by
  obtain ⟨rest, hsplit, hds, hkb⟩ := parse_eq_ok h
  have hrest : ∀ part ∈ rest, '~' ∉ part.toList := fun part hpart =>
    not_mem_of_mem_split (hsplit ▸ mem_cons_of_mem x.jws hpart)
  refine ⟨not_mem_of_mem_split (hsplit ▸ mem_cons_self), ?_, ?_⟩
  · intro d hd
    have hmem : d.serialized ∈ (segments rest).1.filter (· ≠ "") := hds ▸ mem_map_of_mem hd
    exact hrest _ (mem_of_mem_segments (mem_of_mem_filter hmem))
  · cases hx : x.kbJwt with
    | none => exact not_mem_nil
    | some kb => exact hrest kb (kb_of_segments (hkb.symm.trans hx))

/-- A string that is read is written again as it was if and only if it has the layout that is written. -/
theorem serialize_eq_iff_layout (h : parse codec hasher s = .ok x) : x.serialize = s ↔ Layout s := by
  obtain ⟨rest, hsplit, hds, hkb⟩ := parse_eq_ok h
  have hwritten := split_serialize (noTilde_of_parse h)
  have hsame : x.serialize = s ↔
      (segments rest).1.filter (· ≠ "") ++ [(segments rest).2.getD ""] = rest := by
    constructor
    · intro heq
      rw [heq, hsplit, hds, hkb] at hwritten
      exact (List.cons.inj hwritten).2.symm
    · intro heq
      refine split_inj (c := '~') ?_
      rw [hwritten, hsplit, hds, hkb, heq]
  rw [hsame]
  rcases eq_nil_or_concat' rest with rfl | ⟨segs, last, rfl⟩
  · refine iff_of_false (by simp) ?_
    rintro ⟨jws, segs, last, hlayout, -⟩
    rw [hsplit] at hlayout
    exact absurd (List.cons.inj hlayout).2 (by simp)
  · have hlayout : Layout s ↔ (∀ seg ∈ segs, seg ≠ "") ∧ (last = "" ∨ threeParts last = true) := by
      constructor
      · rintro ⟨jws, segs', last', heq, hcond⟩
        rw [hsplit] at heq
        obtain ⟨rfl, hlast⟩ := append_inj' (List.cons.inj heq).2 rfl
        obtain rfl := singleton_inj.1 hlast
        exact hcond
      · exact fun hcond => ⟨x.jws, segs, last, hsplit, hcond⟩
    have hfilter : segs.filter (· ≠ "") = segs ↔ ∀ seg ∈ segs, seg ≠ "" := by
      rw [filter_eq_self]
      simp only [decide_eq_true_eq]
    rw [hlayout, segments_append]
    by_cases hempty : last = ""
    · rw [if_pos hempty, getD_none, hempty, append_cancel_right_eq, hfilter]
      simp only [true_or, and_true]
    · by_cases hthree : threeParts last = true
      · rw [if_neg hempty, if_pos hthree, getD_some, append_cancel_right_eq, hfilter]
        simp only [hthree, or_true, and_true]
      · -- the last segment was taken for a disclosure, and a separator follows it now
        rw [if_neg hempty, if_neg hthree, getD_none]
        refine iff_of_false (fun heq => ?_) (fun hcond => hcond.2.elim hempty hthree)
        exact hempty (singleton_inj.1 (append_inj' heq rfl).2).symm

/-- Of two strings in the layout with the same text under the `sd_hash`, only the KB-JWT may differ. -/
theorem eq_of_serializeWithoutKb_eq (hs : parse codec hasher s = .ok x) (ht : parse codec hasher t = .ok y)
    (hlayout : Layout s) (hlayout' : Layout t) (heq : x.serializeWithoutKb = y.serializeWithoutKb)
    (hkb : x.kbJwt = y.kbJwt) : s = t := by
  rw [← (serialize_eq_iff_layout hs).2 hlayout, ← (serialize_eq_iff_layout ht).2 hlayout', serialize, serialize, heq,
    hkb]

/-- The compact form: a well-formed SD-JWT is read back from it; a string that is read is written again
as it was if and only if it has the layout that is written; and of two strings with that layout and the
same text under the `sd_hash` only the KB-JWT may differ. -/
theorem compact_form (codec : JsonCodec) (hasher : Hasher) :
    (∀ x : SdJwt, x.WellFormed codec hasher → parse codec hasher x.serialize = .ok x) ∧
    (∀ s x, parse codec hasher s = .ok x → (x.serialize = s ↔ Layout s)) ∧
    (∀ s t x y, parse codec hasher s = .ok x → parse codec hasher t = .ok y → Layout s → Layout t →
      x.serializeWithoutKb = y.serializeWithoutKb → x.kbJwt = y.kbJwt → s = t) :=
  ⟨fun _ => parse_serialize, fun _ _ => serialize_eq_iff_layout, fun _ _ _ _ => eq_of_serializeWithoutKb_eq⟩

/-- A codec that knows the JSON text of one disclosure. -/
def aliceCodec : JsonCodec where
  toStr _ := "[\"salt\",\"name\",\"Alice\"]"
  fromStr text :=
    if text = "[\"salt\",\"name\",\"Alice\"]" then some [.str "salt", .str "name", .str "Alice"] else none

def plainHasher : Hasher := ⟨"sha-256", id⟩

def alice : SdJwt :=
  ⟨Text.join '.' ["aGVhZGVy", "cGF5bG9hZA", "c2ln"],
    [Disclosure.build aliceCodec plainHasher "salt" (some "name") (.str "Alice")],
    some (Text.join '.' ["a2I", "bm9uY2U", "c2ln"])⟩

theorem alice_wellFormed : alice.WellFormed aliceCodec plainHasher where
  jws := ⟨_, rfl, by decide +kernel, rfl⟩
  kbJwt kb hkb := by
    cases hkb
    exact ⟨_, rfl, by decide +kernel, rfl⟩
  disclosures d hd := by
    obtain rfl := mem_singleton.1 hd
    exact ⟨_, _, _, rfl, by decide +kernel, by decide +kernel⟩

theorem compact_form_alice :
    parse aliceCodec plainHasher alice.serialize = .ok alice ∧ Layout alice.serialize ∧
      (∀ t, parse aliceCodec plainHasher t = .ok alice → Layout t → alice.serialize = t) := by
  have hread := (compact_form aliceCodec plainHasher).1 alice alice_wellFormed
  have hlayout := ((compact_form aliceCodec plainHasher).2.1 _ _ hread).1 rfl
  exact ⟨hread, hlayout, fun t ht ht' =>
    (compact_form aliceCodec plainHasher).2.2 _ _ _ _ hread ht hlayout ht' rfl rfl⟩

/-- A JWS alone is read, and so is one with two separators after it; both are written with one. -/
theorem separators_not_kept :
    parse aliceCodec plainHasher "a.b.c" = .ok ⟨"a.b.c", [], none⟩ ∧
      parse aliceCodec plainHasher "a.b.c~~" = .ok ⟨"a.b.c", [], none⟩ ∧
      (⟨"a.b.c", [], none⟩ : SdJwt).serialize = "a.b.c~" ∧
      ¬(∀ s x, parse aliceCodec plainHasher s = .ok x → x.serialize = s) ∧
      ¬(∀ s t x y, parse aliceCodec plainHasher s = .ok x → parse aliceCodec plainHasher t = .ok y →
        x.serializeWithoutKb = y.serializeWithoutKb → s = t) := by
  have hfirst : parse aliceCodec plainHasher "a.b.c" = .ok ⟨"a.b.c", [], none⟩ := by decide +kernel
  have hsecond : parse aliceCodec plainHasher "a.b.c~~" = .ok ⟨"a.b.c", [], none⟩ := by decide +kernel
  have hwritten : (⟨"a.b.c", [], none⟩ : SdJwt).serialize = "a.b.c~" := by decide +kernel
  refine ⟨hfirst, hsecond, hwritten, fun hall => ?_, fun hall => ?_⟩
  · exact absurd (hwritten.symm.trans (hall _ _ hfirst)) (by decide)
  · exact absurd (hall _ _ _ _ hfirst hsecond rfl) (by decide)

end SdJwt

end AffinidiTdk.Credentials
