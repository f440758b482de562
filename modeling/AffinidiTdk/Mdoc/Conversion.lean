/-
Attribute values between JSON and CBOR (`issuer_signed_item.rs`, `json_to_cbor` and `cbor_to_json`). A JSON integer
past the signed 64-bit range becomes a float; a CBOR integer below that range makes the conversion panic; and the keys
of a CBOR map are taken as texts, those that are no text in their debug form, so that different keys can meet.
-/
import AffinidiTdk.Lib.Cbor
import AffinidiTdk.Lib.Json
import Mathlib.Data.Finset.Card

namespace AffinidiTdk.Mdoc

open Json.Fields

open Cbor (Value)

/-! ## The conversions -/

/-- What is used of other crates: the debug form of a value, and floats from an integer, from the text of a JSON number
and back, where the number is finite. -/
structure Formats where
  debug : Value → String
  ofInteger : ℤ → UInt64
  ofText : String → UInt64
  toText : UInt64 → Option String
  hex : List UInt8 → String

variable (formats : Formats)

mutual

def jsonToCbor : Json → Value
  | .null => .null
  | .bool b => .bool b
  | .int n => if -2 ^ 63 ≤ n ∧ n < 2 ^ 63 then .integer n else .float (formats.ofInteger n)
  | .float text => .float (formats.ofText text)
  | .str s => .text s
  | .arr items => .array (jsonItemsToCbor items)
  | .obj fields => .map (jsonFieldsToCbor fields)

def jsonItemsToCbor : List Json → List Value
  | [] => []
  | item :: items => jsonToCbor item :: jsonItemsToCbor items

def jsonFieldsToCbor : List (String × Json) → List (Value × Value)
  | [] => []
  | (key, value) :: fields => (.text key, jsonToCbor value) :: jsonFieldsToCbor fields

end

/-- The object that the members make, inserted one after the other. -/
def insertMembers (members : Json.Fields) : Json.Fields :=
  members.foldl (fun (obj : Json.Fields) member => obj.insert member.1 member.2) []

/-- The text that a key of a map becomes. -/
def keyText : Value → String
  | .text s => s
  | other => formats.debug other

mutual

/-- The JSON value, where the conversion does not panic: a number of `serde_json` has 64 bits. -/
def cborToJson : Value → Option Json
  | .null => some .null
  | .bool b => some (.bool b)
  | .integer i => if -2 ^ 63 ≤ i ∧ i < 2 ^ 64 then some (.int i) else none
  | .float bits => some ((formats.toText bits).elim .null .float)
  | .text s => some (.str s)
  | .bytes b => some (.str (formats.hex b))
  | .array items => do
    let items ← cborItemsToJson items
    pure (.arr items)
  | .map entries => do
    let members ← cborEntriesToJson entries
    pure (.obj (insertMembers members))
  | .tag _ inner => cborToJson inner

def cborItemsToJson : List Value → Option (List Json)
  | [] => some []
  | item :: items => do
    let value ← cborToJson item
    let values ← cborItemsToJson items
    pure (value :: values)

/-- The members that the loop over the entries of a map inserts, one after the other. -/
def cborEntriesToJson : List (Value × Value) → Option (List (String × Json))
  | [] => some []
  | (key, item) :: entries => do
    let value ← cborToJson item
    let members ← cborEntriesToJson entries
    pure ((keyText formats key, value) :: members)

end

/-! ## Numbers and parts -/

section Numbers

variable (p : ℤ → Prop)

mutual

/-- Every number of the JSON value is an integer with the property. -/
def Numbers : Json → Prop
  | .int n => p n
  | .float _ => False
  | .arr items => NumbersItems items
  | .obj fields => NumbersFields fields
  | _ => True

def NumbersItems : List Json → Prop
  | [] => True
  | item :: items => Numbers item ∧ NumbersItems items

def NumbersFields : List (String × Json) → Prop
  | [] => True
  | (_, value) :: fields => Numbers value ∧ NumbersFields fields

end

end Numbers

section Everywhere

variable (p : Value → Prop)

mutual

/-- The property holds of the value and of all values in it; the keys of a map are none of them. -/
def Everywhere : Value → Prop
  | .array items => p (.array items) ∧ EverywhereItems items
  | .map entries => p (.map entries) ∧ EverywhereEntries entries
  | .tag tag inner => p (.tag tag inner) ∧ Everywhere inner
  | value => p value

def EverywhereItems : List Value → Prop
  | [] => True
  | item :: items => Everywhere item ∧ EverywhereItems items

def EverywhereEntries : List (Value × Value) → Prop
  | [] => True
  | (_, item) :: entries => Everywhere item ∧ EverywhereEntries entries

end

end Everywhere

/-- An integer is one that a JSON number can hold. -/
def Representable : Value → Prop
  | .integer i => -2 ^ 63 ≤ i ∧ i < 2 ^ 64
  | _ => True

/-- Different keys of a map have different texts. -/
def KeysDistinct : Value → Prop
  | .map entries => ∀ e ∈ entries, ∀ e' ∈ entries, keyText formats e.1 = keyText formats e'.1 → e.1 = e'.1
  | _ => True

open Classical in
/-- A map is converted to an object with as many members as the map has different keys. -/
def KeepsEntries : Value → Prop
  | .map entries => ∀ fields, cborToJson formats (.map entries) = some (.obj fields) →
    fields.length = (entries.map Prod.fst).toFinset.card
  | _ => True

variable {formats}

/-! ## Members -/

theorem insertMembers_of_sorted {members : Json.Fields} (h : members.Sorted) : insertMembers members = members := by
  have hnodup : (keys members ++ keys []).Nodup := by
    simpa [keys] using h.nodup
  have hperm : (insertMembers members).Perm members := by
    simpa [insertMembers] using foldl_insert_perm hnodup
  exact (Sorted.foldl_insert .nil members).eq_of_perm h hperm

theorem mem_keys_foldl {members obj : Json.Fields} {key : String} :
    key ∈ (members.foldl (fun (obj : Json.Fields) member => obj.insert member.1 member.2) obj).keys ↔
      key ∈ members.keys ∨ key ∈ obj.keys := by
  induction members generalizing obj with
  | nil => simp [keys]
  | cons member members ih =>
    rw [List.foldl_cons, ih, mem_keys_insert]
    simp [keys, or_assoc, or_left_comm]

theorem length_insertMembers (members : Json.Fields) : (insertMembers members).length =
    members.keys.toFinset.card := by
  have hsorted : (insertMembers members).Sorted := Sorted.foldl_insert .nil members
  have hkeys : (insertMembers members).keys.toFinset = members.keys.toFinset := by
    ext key
    rw [List.mem_toFinset, List.mem_toFinset, insertMembers, mem_keys_foldl]
    simp [keys]
  rw [← hkeys, List.toFinset_card_of_nodup hsorted.nodup, keys, List.length_map]

theorem keys_of_entries {entries : List (Value × Value)} {members : Json.Fields}
    (h : cborEntriesToJson formats entries = some members) :
    members.keys = entries.map fun e => keyText formats e.1 := by
  induction entries generalizing members with
  | nil =>
    cases h
    rfl
  | cons entry entries ih =>
    obtain ⟨value, -, h⟩ := Option.bind_eq_some_iff.1 h
    obtain ⟨rest, hrest, h⟩ := Option.bind_eq_some_iff.1 h
    cases h
    rw [List.map_cons, ← ih hrest]
    rfl

theorem keyText_jsonFieldsToCbor (fields : List (String × Json)) :
    (jsonFieldsToCbor formats fields).map (fun e => keyText formats e.1) = keys fields := by
  induction fields with
  | nil => rfl
  | cons field fields ih =>
    rw [jsonFieldsToCbor, List.map_cons, ih]
    rfl

/-! ## From JSON and back -/

/-- The integers of the signed and the unsigned 64-bit range. -/
def JsonRange (n : ℤ) : Prop := -2 ^ 63 ≤ n ∧ n < 2 ^ 64

/-- No integer past the signed range. -/
def SignedRange (n : ℤ) : Prop := n < 2 ^ 63

mutual

theorem cborToJson_jsonToCbor : (value : Json) → value.Ordered → Numbers JsonRange value →
    (cborToJson formats (jsonToCbor formats value) = some value ↔ Numbers SignedRange value)
  | .null, _, _ => iff_of_true rfl trivial
  | .bool _, _, _ => iff_of_true rfl trivial
  | .str _, _, _ => iff_of_true rfl trivial
  | .float _, _, h => h.elim
  | .int n, _, h => by
    obtain ⟨hlow, hhigh⟩ := h
    rw [jsonToCbor, Numbers, SignedRange]
    split_ifs with hrange
    · rw [cborToJson, if_pos ⟨hlow, hhigh⟩]
      exact iff_of_true rfl hrange.2
    · refine iff_of_false ?_ (fun hlt => hrange ⟨hlow, hlt⟩)
      rw [cborToJson]
      cases formats.toText (formats.ofInteger n) <;> simp
  | .arr items, hordered, h => by
    rw [jsonToCbor, cborToJson, Numbers, ← cborItemsToJson_jsonItemsToCbor items hordered h]
    simp [Option.bind_eq_some_iff]
  | .obj fields, hordered, h => by
    rw [jsonToCbor, cborToJson, Numbers, ← cborEntriesToJson_jsonFieldsToCbor fields hordered.2 h]
    constructor
    · intro heq
      obtain ⟨members, hmembers, heq⟩ := Option.bind_eq_some_iff.1 heq
      -- the converted members have the keys of the object, so they are inserted as they stand
      have hkeys : keys members = keys fields := by
        rw [keys_of_entries hmembers, keyText_jsonFieldsToCbor]
      have hsorted : Sorted members := by
        have hpair : (keys fields).Pairwise (· < ·) := List.pairwise_map.2 hordered.1
        rw [← hkeys] at hpair
        exact List.pairwise_map.1 hpair
      rw [insertMembers_of_sorted hsorted] at heq
      cases heq
      exact hmembers
    · intro hmembers
      refine Option.bind_eq_some_iff.2 ⟨fields, hmembers, ?_⟩
      rw [insertMembers_of_sorted hordered.1]
      rfl

theorem cborItemsToJson_jsonItemsToCbor : (items : List Json) → Json.OrderedItems items →
    NumbersItems JsonRange items →
    (cborItemsToJson formats (jsonItemsToCbor formats items) = some items ↔ NumbersItems SignedRange items)
  | [], _, _ => iff_of_true rfl trivial
  | item :: items, hordered, h => by
    rw [jsonItemsToCbor, cborItemsToJson, NumbersItems, ← cborToJson_jsonToCbor item hordered.1 h.1,
      ← cborItemsToJson_jsonItemsToCbor items hordered.2 h.2]
    constructor
    · intro heq
      obtain ⟨value, hvalue, heq⟩ := Option.bind_eq_some_iff.1 heq
      obtain ⟨values, hvalues, heq⟩ := Option.bind_eq_some_iff.1 heq
      cases heq
      exact ⟨hvalue, hvalues⟩
    · rintro ⟨hvalue, hvalues⟩
      rw [hvalue, hvalues]
      rfl

theorem cborEntriesToJson_jsonFieldsToCbor : (fields : List (String × Json)) → Json.OrderedFields fields →
    NumbersFields JsonRange fields →
    (cborEntriesToJson formats (jsonFieldsToCbor formats fields) = some fields ↔ NumbersFields SignedRange fields)
  | [], _, _ => iff_of_true rfl trivial
  | (key, value) :: fields, hordered, h => by
    rw [jsonFieldsToCbor, cborEntriesToJson, NumbersFields, ← cborToJson_jsonToCbor value hordered.1 h.1,
      ← cborEntriesToJson_jsonFieldsToCbor fields hordered.2 h.2]
    constructor
    · intro heq
      obtain ⟨back, hback, heq⟩ := Option.bind_eq_some_iff.1 heq
      obtain ⟨members, hmembers, heq⟩ := Option.bind_eq_some_iff.1 heq
      cases heq
      exact ⟨hback, hmembers⟩
    · rintro ⟨hvalue, hfields⟩
      rw [hvalue, hfields]
      rfl

end

/-! ## From CBOR -/

mutual

/-- The conversion does not panic exactly where every integer is one that a JSON number can hold. -/
theorem exists_cborToJson_iff : (value : Value) →
    ((∃ json, cborToJson formats value = some json) ↔ Everywhere Representable value)
  | .null => iff_of_true ⟨_, rfl⟩ trivial
  | .bool _ => iff_of_true ⟨_, rfl⟩ trivial
  | .text _ => iff_of_true ⟨_, rfl⟩ trivial
  | .bytes _ => iff_of_true ⟨_, rfl⟩ trivial
  | .float _ => iff_of_true ⟨_, rfl⟩ trivial
  | .integer i => by
    show (∃ json, cborToJson formats (.integer i) = some json) ↔ -2 ^ 63 ≤ i ∧ i < 2 ^ 64
    rw [cborToJson]
    split_ifs with h
    · exact iff_of_true ⟨_, rfl⟩ h
    · exact iff_of_false (by simp) h
  | .tag tag inner => by
    rw [Everywhere, cborToJson, exists_cborToJson_iff inner]
    exact ⟨fun h => ⟨trivial, h⟩, fun h => h.2⟩
  | .array items => by
    rw [Everywhere, cborToJson, ← exists_cborItemsToJson_iff items]
    constructor
    · rintro ⟨json, h⟩
      obtain ⟨values, hvalues, -⟩ := Option.bind_eq_some_iff.1 h
      exact ⟨trivial, values, hvalues⟩
    · rintro ⟨-, values, hvalues⟩
      exact ⟨_, Option.bind_eq_some_iff.2 ⟨values, hvalues, rfl⟩⟩
  | .map entries => by
    rw [Everywhere, cborToJson, ← exists_cborEntriesToJson_iff entries]
    constructor
    · rintro ⟨json, h⟩
      obtain ⟨members, hmembers, -⟩ := Option.bind_eq_some_iff.1 h
      exact ⟨trivial, members, hmembers⟩
    · rintro ⟨-, members, hmembers⟩
      exact ⟨_, Option.bind_eq_some_iff.2 ⟨members, hmembers, rfl⟩⟩

theorem exists_cborItemsToJson_iff : (items : List Value) →
    ((∃ values, cborItemsToJson formats items = some values) ↔ EverywhereItems Representable items)
  | [] => iff_of_true ⟨_, rfl⟩ trivial
  | item :: items => by
    rw [EverywhereItems, cborItemsToJson, ← exists_cborToJson_iff item, ← exists_cborItemsToJson_iff items]
    constructor
    · rintro ⟨values, h⟩
      obtain ⟨value, hvalue, h⟩ := Option.bind_eq_some_iff.1 h
      obtain ⟨rest, hrest, -⟩ := Option.bind_eq_some_iff.1 h
      exact ⟨⟨value, hvalue⟩, rest, hrest⟩
    · rintro ⟨⟨value, hvalue⟩, rest, hrest⟩
      exact ⟨_, Option.bind_eq_some_iff.2 ⟨value, hvalue, Option.bind_eq_some_iff.2 ⟨rest, hrest, rfl⟩⟩⟩

theorem exists_cborEntriesToJson_iff : (entries : List (Value × Value)) →
    ((∃ members, cborEntriesToJson formats entries = some members) ↔ EverywhereEntries Representable entries)
  | [] => iff_of_true ⟨_, rfl⟩ trivial
  | (key, item) :: entries => by
    rw [EverywhereEntries, cborEntriesToJson, ← exists_cborToJson_iff item, ← exists_cborEntriesToJson_iff entries]
    constructor
    · rintro ⟨members, h⟩
      obtain ⟨value, hvalue, h⟩ := Option.bind_eq_some_iff.1 h
      obtain ⟨rest, hrest, -⟩ := Option.bind_eq_some_iff.1 h
      exact ⟨⟨value, hvalue⟩, rest, hrest⟩
    · rintro ⟨⟨value, hvalue⟩, rest, hrest⟩
      exact ⟨_, Option.bind_eq_some_iff.2 ⟨value, hvalue, Option.bind_eq_some_iff.2 ⟨rest, hrest, rfl⟩⟩⟩

end

/-- A map that is converted keeps its entries exactly where its different keys have different texts. -/
theorem keepsEntries_iff {value : Value} (h : ∃ json, cborToJson formats value = some json) :
    KeepsEntries formats value ↔ KeysDistinct formats value := by
  classical
  cases value with
  | map entries =>
    obtain ⟨json, h⟩ := h
    rw [cborToJson] at h
    obtain ⟨members, hmembers, h⟩ := Option.bind_eq_some_iff.1 h
    cases h
    have hlength : (insertMembers members).length =
      ((entries.map Prod.fst).toFinset.image (keyText formats)).card := by
      rw [length_insertMembers, keys_of_entries hmembers]
      congr 1
      ext key
      simp
    have hcard : KeepsEntries formats (.map entries) ↔
        (insertMembers members).length = (entries.map Prod.fst).toFinset.card := by
      rw [KeepsEntries, cborToJson, hmembers]
      constructor
      · exact fun hkeeps => hkeeps _ rfl
      · rintro heq fields hfields
        cases hfields
        exact heq
    rw [hcard, hlength, Finset.card_image_iff, KeysDistinct]
    constructor
    · intro hinj e he e' he' htext
      exact hinj (by simpa using ⟨e.2, he⟩) (by simpa using ⟨e'.2, he'⟩) htext
    · intro hdistinct k hk k' hk' htext
      simp only [List.coe_toFinset, List.mem_map, Set.mem_ofPred_eq] at hk hk'
      obtain ⟨e, he, rfl⟩ := hk
      obtain ⟨e', he', rfl⟩ := hk'
      exact hdistinct e he e' he' htext
  | _ => exact Iff.rfl

mutual

theorem everywhere_keepsEntries_iff : (value : Value) → Everywhere Representable value →
    (Everywhere (KeepsEntries formats) value ↔ Everywhere (KeysDistinct formats) value)
  | .null, _ => Iff.rfl
  | .bool _, _ => Iff.rfl
  | .text _, _ => Iff.rfl
  | .bytes _, _ => Iff.rfl
  | .float _, _ => Iff.rfl
  | .integer _, _ => Iff.rfl
  | .tag tag inner, h => by
    rw [Everywhere, Everywhere, everywhere_keepsEntries_iff inner h.2]
    exact Iff.rfl
  | .array items, h => by
    rw [Everywhere, Everywhere, everywhereItems_keepsEntries_iff items h.2]
    exact Iff.rfl
  | .map entries, h => by
    rw [Everywhere, Everywhere, everywhereEntries_keepsEntries_iff entries h.2,
      keepsEntries_iff ((exists_cborToJson_iff (.map entries)).2 h)]

theorem everywhereItems_keepsEntries_iff : (items : List Value) → EverywhereItems Representable items →
    (EverywhereItems (KeepsEntries formats) items ↔ EverywhereItems (KeysDistinct formats) items)
  | [], _ => Iff.rfl
  | item :: items, h => by
    rw [EverywhereItems, EverywhereItems, everywhere_keepsEntries_iff item h.1,
      everywhereItems_keepsEntries_iff items h.2]

theorem everywhereEntries_keepsEntries_iff : (entries : List (Value × Value)) →
    EverywhereEntries Representable entries →
    (EverywhereEntries (KeepsEntries formats) entries ↔ EverywhereEntries (KeysDistinct formats) entries)
  | [], _ => Iff.rfl
  | (_, item) :: entries, h => by
    rw [EverywhereEntries, EverywhereEntries, everywhere_keepsEntries_iff item h.1,
      everywhereEntries_keepsEntries_iff entries h.2]

end

/-- **When the conversions are faithful**: a JSON value with integers of the signed and the unsigned range comes back
exactly where none is past the signed range; a CBOR value is converted, each map with all its entries, exactly where
its integers are those of a JSON number and the keys of each map have different texts. -/
theorem conversions_faithful_iff (formats : Formats) :
    (∀ value : Json, value.Ordered → Numbers JsonRange value →
      (cborToJson formats (jsonToCbor formats value) = some value ↔ Numbers SignedRange value)) ∧
    ∀ value : Value, ((∃ json, cborToJson formats value = some json) ∧ Everywhere (KeepsEntries formats) value) ↔
      Everywhere Representable value ∧ Everywhere (KeysDistinct formats) value := by
  refine ⟨fun value => cborToJson_jsonToCbor value, fun value => ?_⟩
  rw [exists_cborToJson_iff]
  exact and_congr_right fun h => everywhere_keepsEntries_iff value h

/-- The formats, on the values that are used below. -/
def shownFormats : Formats where
  debug
    | .integer i => s!"Integer(Integer({i}))"
    | _ => "Null"
  ofInteger n := if n = 2 ^ 63 then 0x43E0000000000000 else 0
  ofText _ := 0
  toText bits := if bits = 0x43E0000000000000 then some "9.223372036854776e18" else some "0.0"
  hex bytes := if bytes = [0xCA, 0xFE] then "cafe" else ""

/-- A score comes back with the name; the tagged bytes of a map with a text and an integer key are converted. -/
theorem score_converted :
    cborToJson shownFormats (jsonToCbor shownFormats (.obj [("name", .str "Alice"), ("score", .int 42)])) =
        some (.obj [("name", .str "Alice"), ("score", .int 42)]) ∧
      ∃ json, cborToJson shownFormats (.map [(.text "a", .tag 24 (.bytes [0xCA, 0xFE])), (.integer 1, .integer (-1))]) =
        some json := by
  obtain ⟨hjson, hcbor⟩ := conversions_faithful_iff shownFormats
  refine ⟨(hjson _ ?_ ?_).2 ?_, ((hcbor _).2 ⟨?_, ?_⟩).1⟩
  · exact ⟨by unfold Sorted; decide +kernel, trivial, trivial, trivial⟩
  · simp [Numbers, NumbersFields, JsonRange]
  · simp [Numbers, NumbersFields, SignedRange]
  · simp [Everywhere, EverywhereEntries, Representable]
  · simp [Everywhere, EverywhereEntries, KeysDistinct, keyText, shownFormats]
    decide

/-- One past the signed range comes back as a float, one below it is not converted at all, and of the entries under the
integer 1 and under the text of its debug form one is left. -/
theorem width_unfaithful :
    cborToJson shownFormats (jsonToCbor shownFormats (.int (2 ^ 63))) = some (.float "9.223372036854776e18") ∧
    cborToJson shownFormats (jsonToCbor shownFormats (.int (2 ^ 63))) ≠ some (.int (2 ^ 63)) ∧
    cborToJson shownFormats (.integer (-2 ^ 63 - 1)) = none ∧
    cborToJson shownFormats (.map [(.integer 1, .bool true), (.text "Integer(Integer(1))", .bool false)]) =
      some (.obj [("Integer(Integer(1))", .bool false)]) := by
  refine ⟨by decide, by decide, by decide, by decide⟩

end AffinidiTdk.Mdoc
