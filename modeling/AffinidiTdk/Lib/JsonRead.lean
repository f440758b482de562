/-
Reading the compact text of a JSON value. What comes back is the value itself up to its floats, which a reader may
round, as long as its arrays and objects are not nested deeper than the reader allows. The reader at the end of the
module reads exactly such texts.
-/
import AffinidiTdk.Lib.JsonText

namespace Json

open List Option Nat

variable {f : String → String} {isFloat : String → Prop}

/-! ## Shape -/

mutual

/-- How deep arrays and objects are nested; a value that is neither is not nested. -/
def nesting : Json → ℕ
  | arr items => nestingItems items + 1
  | obj fields => nestingFields fields + 1
  | _ => 0

def nestingItems : List Json → ℕ
  | [] => 0
  | item :: items => max item.nesting (nestingItems items)

def nestingFields : List (String × Json) → ℕ
  | [] => 0
  | (_, value) :: fields => max value.nesting (nestingFields fields)

end

mutual

/-- The texts of the floats of a value. -/
def floats : Json → List String
  | float text => [text]
  | arr items => floatsItems items
  | obj fields => floatsFields fields
  | _ => []

def floatsItems : List Json → List String
  | [] => []
  | item :: items => item.floats ++ floatsItems items

def floatsFields : List (String × Json) → List String
  | [] => []
  | (_, value) :: fields => value.floats ++ floatsFields fields

end

mutual

/-- The value with every float put in place of another. -/
def mapFloats (f : String → String) : Json → Json
  | float text => float (f text)
  | arr items => arr (mapFloatsItems f items)
  | obj fields => obj (mapFloatsFields f fields)
  | value => value

def mapFloatsItems (f : String → String) : List Json → List Json
  | [] => []
  | item :: items => item.mapFloats f :: mapFloatsItems f items

def mapFloatsFields (f : String → String) : List (String × Json) → List (String × Json)
  | [] => []
  | (key, value) :: fields => (key, value.mapFloats f) :: mapFloatsFields f fields

end

mutual

/-- A value that a program can hold: integers of 64 bits, floats with one of the texts that floats have, and no two
members of an object under one key. -/
def Valid (isFloat : String → Prop) : Json → Prop
  | int n => -2 ^ 63 ≤ n ∧ n < 2 ^ 64
  | float text => isFloat text
  | arr items => ValidItems isFloat items
  | obj fields => (fields.map Prod.fst).Nodup ∧ ValidFields isFloat fields
  | _ => True

def ValidItems (isFloat : String → Prop) : List Json → Prop
  | [] => True
  | item :: items => item.Valid isFloat ∧ ValidItems isFloat items

def ValidFields (isFloat : String → Prop) : List (String × Json) → Prop
  | [] => True
  | (_, value) :: fields => value.Valid isFloat ∧ ValidFields isFloat fields

end

mutual

theorem mapFloats_eq_self_iff : (value : Json) → (value.mapFloats f = value ↔ ∀ text ∈ value.floats, f text = text)
  | null | bool _ | int _ | str _ | float text => by simp [mapFloats, floats]
  | arr items => by rw [mapFloats, floats, arr.injEq, mapFloatsItems_eq_self_iff]
  | obj fields => by rw [mapFloats, floats, obj.injEq, mapFloatsFields_eq_self_iff]

theorem mapFloatsItems_eq_self_iff : (items : List Json) →
    (mapFloatsItems f items = items ↔ ∀ text ∈ floatsItems items, f text = text)
  | [] => by simp [mapFloatsItems, floatsItems]
  | item :: items => by
    rw [mapFloatsItems, floatsItems, List.cons.injEq, mapFloats_eq_self_iff item, mapFloatsItems_eq_self_iff items,
      forall_mem_append]

theorem mapFloatsFields_eq_self_iff : (fields : List (String × Json)) →
    (mapFloatsFields f fields = fields ↔ ∀ text ∈ floatsFields fields, f text = text)
  | [] => by simp [mapFloatsFields, floatsFields]
  | (key, value) :: fields => by
    rw [mapFloatsFields, floatsFields, List.cons.injEq, Prod.mk.injEq, mapFloats_eq_self_iff value,
      mapFloatsFields_eq_self_iff fields, forall_mem_append, and_iff_right rfl]

end

theorem mapFloatsFields_eq_map (f : String → String) (fields : List (String × Json)) :
    mapFloatsFields f fields = fields.map fun field => (field.1, field.2.mapFloats f) := by
  induction fields with
  | nil => rfl
  | cons field fields ih => rw [mapFloatsFields, ih, map_cons]

theorem lookup_mapFloatsFields (key : String) (fields : List (String × Json)) :
    (mapFloatsFields f fields).lookup key = (fields.lookup key).map (mapFloats f) := by
  induction fields with
  | nil => rfl
  | cons field fields ih =>
    obtain ⟨name, value⟩ := field
    rw [mapFloatsFields, lookup_cons, lookup_cons, ih]
    cases key == name with
    | true => rfl
    | false => rfl

theorem get?_mapFloats (key : String) (value : Json) :
    (value.mapFloats f).get? key = (value.get? key).map (mapFloats f) := by
  cases value with
  | obj fields => exact lookup_mapFloatsFields key fields
  | _ => rfl

variable {n : ℕ} {items : List Json}

theorem nestingItems_le_iff : nestingItems items ≤ n ↔ ∀ item ∈ items, item.nesting ≤ n := by
  induction items with
  | nil => simp [nestingItems]
  | cons item items ih => rw [nestingItems, max_le_iff, ih, forall_mem_cons]

variable {fields : List (String × Json)}

theorem nestingFields_le_iff : nestingFields fields ≤ n ↔ ∀ field ∈ fields, field.2.nesting ≤ n := by
  induction fields with
  | nil => simp [nestingFields]
  | cons field fields ih => rw [nestingFields, max_le_iff, ih, forall_mem_cons]

theorem validItems_iff : ValidItems isFloat items ↔ ∀ item ∈ items, item.Valid isFloat := by
  induction items with
  | nil => simp [ValidItems]
  | cons item items ih => rw [ValidItems, ih, forall_mem_cons]

theorem validFields_iff : ValidFields isFloat fields ↔ ∀ field ∈ fields, field.2.Valid isFloat := by
  induction fields with
  | nil => simp [ValidFields]
  | cons field fields ih => rw [ValidFields, ih, forall_mem_cons]

/-! ## Readers -/

/-- A reader of JSON texts: the texts that floats are written as, and for each of them the float that is read from it,
by its text again. -/
structure Reader where
  parse : String → Except String Json
  isFloat : String → Prop
  reread : String → String

/-- A reader that gives back what was written, with the floats as it reads them, and refuses what is nested deeper
than a limit. -/
structure Reader.Lawful (limit : ℕ) (reader : Reader) : Prop where
  parse_toText : ∀ {value : Json}, value.Valid reader.isFloat → value.nesting ≤ limit →
    reader.parse value.toText = .ok (value.mapFloats reader.reread)
  parse_deep : ∀ {value : Json}, value.Valid reader.isFloat → limit < value.nesting →
    ∃ e, reader.parse value.toText = .error e

/-- A value of any program, without floats, nested at most that deep. -/
structure Plain (n : ℕ) (value : Json) : Prop where
  valid : ∀ isFloat, value.Valid isFloat
  nesting : value.nesting ≤ n
  floats : value.floats = []

theorem plain_str (n : ℕ) (s : String) : Plain n (str s) := ⟨fun _ => trivial, zero_le n, rfl⟩

theorem plain_arr (h : ∀ item ∈ items, Plain n item) : Plain (n + 1) (arr items) := by
  refine ⟨fun isFloat => validItems_iff.2 fun item hitem => (h item hitem).valid isFloat,
    succ_le_succ (nestingItems_le_iff.2 fun item hitem => (h item hitem).nesting), ?_⟩
  show floatsItems items = []
  induction items with
  | nil => rfl
  | cons item items ih =>
    obtain ⟨hitem, hitems⟩ := forall_mem_cons.1 h
    rw [floatsItems, hitem.floats, ih hitems, append_nil]

theorem plain_obj (hnodup : (fields.map Prod.fst).Nodup) (h : ∀ field ∈ fields, Plain n field.2) : Plain (n + 1)
    (obj fields) := by
  refine ⟨fun isFloat => ⟨hnodup, validFields_iff.2 fun field hfield => (h field hfield).valid isFloat⟩,
    succ_le_succ (nestingFields_le_iff.2 fun field hfield => (h field hfield).nesting), ?_⟩
  show floatsFields fields = []
  clear hnodup
  induction fields with
  | nil => rfl
  | cons field fields ih =>
    obtain ⟨hfield, hfields⟩ := forall_mem_cons.1 h
    rw [floatsFields, hfield.floats, ih hfields, append_nil]

theorem Reader.Lawful.parse_plain {limit : ℕ} {reader : Reader} (h : reader.Lawful limit) {value : Json}
    (hplain : Plain limit value) : reader.parse value.toText = .ok value := by
  have hfloats : value.mapFloats reader.reread = value := by
    refine (mapFloats_eq_self_iff value).2 fun text htext => ?_
    rw [hplain.floats] at htext
    cases htext
  rw [h.parse_toText (hplain.valid _) hplain.nesting, hfloats]

theorem Plain.mono {m : ℕ} {value : Json} (h : Plain m value) (hle : m ≤ n) : Plain n value :=
  ⟨h.valid, h.nesting.trans hle, h.floats⟩

/-! ## Reading compact texts -/

namespace Compact

def unhex (c : Char) : ℕ := if c.toNat < 58 then c.toNat - 48 else c.toNat - 87

/-- The character that stands behind a backslash. -/
def unescape (c : Char) : Char :=
  if c = 'b' then '\x08'
  else if c = 't' then '\t'
  else if c = 'n' then '\n'
  else if c = 'f' then '\x0c'
  else if c = 'r' then '\r'
  else c

/-- A string from behind its opening quote to its closing one. -/
def readString : List Char → Option (List Char × List Char)
  | [] => none
  | '"' :: rest => some ([], rest)
  | '\\' :: 'u' :: c₁ :: c₂ :: c₃ :: c₄ :: rest =>
    (readString rest).map fun r =>
      (Char.ofNat (unhex c₁ * 16 ^ 3 + unhex c₂ * 16 ^ 2 + unhex c₃ * 16 + unhex c₄) :: r.1, r.2)
  | '\\' :: c :: rest => (readString rest).map fun r => (unescape c :: r.1, r.2)
  | c :: rest => (readString rest).map fun r => (c :: r.1, r.2)

def isNumberChar (c : Char) : Bool := c.isDigit || c ∈ ['-', '+', '.', 'e', 'E']

def readNat (token : List Char) : Option ℕ :=
  if token ≠ [] ∧ token.all Char.isDigit then some (Nat.ofDigitChars 10 token 0) else none

def readInt : List Char → Option ℤ
  | '-' :: token => (readNat token).map fun (n : ℕ) => -(n : ℤ)
  | token => (readNat token).map fun (n : ℕ) => (n : ℤ)

/-- The texts taken for floats: those of number characters that are no integers. -/
def IsFloat (text : String) : Prop :=
  text.toList ≠ [] ∧ (∀ c ∈ text.toList, isNumberChar c = true) ∧ readInt text.toList = none

def readNumber (token : List Char) : Json :=
  match readInt token with
  | some n => .int n
  | none => .float (String.ofList token)

mutual

/-- A value at the head of a text, and what follows it; `depth` counts the levels that may still be entered. -/
def readValue : ℕ → ℕ → List Char → Option (Json × List Char)
  | 0, _, _ => none
  | _ + 1, _, 'n' :: 'u' :: 'l' :: 'l' :: rest => some (null, rest)
  | _ + 1, _, 't' :: 'r' :: 'u' :: 'e' :: rest => some (bool true, rest)
  | _ + 1, _, 'f' :: 'a' :: 'l' :: 's' :: 'e' :: rest => some (bool false, rest)
  | _ + 1, _, '"' :: rest => (readString rest).map fun r => (str (String.ofList r.1), r.2)
  | _ + 1, 0, '[' :: _ => none
  | _ + 1, _ + 1, '[' :: ']' :: rest => some (arr [], rest)
  | fuel + 1, depth + 1, '[' :: rest => (readItems fuel depth rest).map fun r => (arr r.1, r.2)
  | _ + 1, 0, '\x7b' :: _ => none
  | _ + 1, _ + 1, '\x7b' :: '\x7d' :: rest => some (obj [], rest)
  | fuel + 1, depth + 1, '\x7b' :: rest => (readFields fuel depth rest).map fun r => (obj r.1, r.2)
  | _ + 1, _, text =>
    if text.takeWhile isNumberChar = [] then none
    else some (readNumber (text.takeWhile isNumberChar), text.dropWhile isNumberChar)

/-- The items of an array, from the first one to the closing bracket. -/
def readItems : ℕ → ℕ → List Char → Option (List Json × List Char)
  | 0, _, _ => none
  | fuel + 1, depth, text =>
    match readValue fuel depth text with
    | some (item, ',' :: rest) => (readItems fuel depth rest).map fun r => (item :: r.1, r.2)
    | some (item, ']' :: rest) => some ([item], rest)
    | _ => none

/-- The members of an object, from the first key to the closing brace. -/
def readFields : ℕ → ℕ → List Char → Option (List (String × Json) × List Char)
  | 0, _, _ => none
  | fuel + 1, depth, '"' :: text =>
    match readString text with
    | some (key, ':' :: text) =>
      match readValue fuel depth text with
      | some (value, ',' :: rest) =>
        (readFields fuel depth rest).map fun r => ((String.ofList key, value) :: r.1, r.2)
      | some (value, '\x7d' :: rest) => some ([(String.ofList key, value)], rest)
      | _ => none
    | _ => none
  | _ + 1, _, _ => none

end

/-- A whole text, with arrays and objects nested up to 127 deep. -/
def read (text : String) : Except String Json :=
  match readValue (text.toList.length + 1) 127 text.toList with
  | some (value, []) => .ok value
  | some _ => .error "trailing characters"
  | none => .error "no value, or one that is nested too deep"

/-! ### What was written is read again -/

theorem unhex_hexLower_all : ∀ n < 16, unhex (hexLower n) = n := by decide

theorem unhex_hexLower {n : ℕ} (h : n < 16) : unhex (hexLower n) = n := unhex_hexLower_all n h

theorem readString_escapeChar (c : Char) (text : List Char) :
    readString (escapeChar c ++ text) = (readString text).map fun r => (c :: r.1, r.2) := by
  unfold escapeChar
  split_ifs with hquote hslash h8 h9 h10 h12 h13 hcontrol
  · subst hquote; rfl
  · subst hslash; rfl
  · subst h8; rfl
  · subst h9; rfl
  · subst h10; rfl
  · subst h12; rfl
  · subst h13; rfl
  · have hlt : c.toNat < 32 := hcontrol
    have hchar : Char.ofNat (unhex '0' * 16 ^ 3 + unhex '0' * 16 ^ 2 + unhex (hexLower (c.toNat / 16)) * 16 +
        unhex (hexLower (c.toNat % 16))) = c := by
      have hzero : unhex '0' = 0 := rfl
      have hsum : 0 * 16 ^ 3 + 0 * 16 ^ 2 + c.toNat / 16 * 16 + c.toNat % 16 = c.toNat := by omega
      rw [unhex_hexLower (by omega), unhex_hexLower (by omega), hzero, hsum, Char.ofNat_toNat]
    show (readString text).map _ = _
    rw [hchar]
  · show readString (c :: text) = _
    rw [readString]
    · rintro rfl
      exact hquote rfl
    · intro c₁ c₂ c₃ c₄ rest heq
      exact absurd heq hslash
    · intro c₁ rest heq
      exact absurd heq hslash

/-- A quoted string is read back. -/
theorem readString_quoted (s : List Char) (rest : List Char) :
    readString (s.flatMap escapeChar ++ '"' :: rest) = some (s, rest) := by
  induction s with
  | nil => rfl
  | cons c s ih => rw [flatMap_cons, append_assoc, readString_escapeChar, ih, map_some]

theorem readNat_toDigits (n : ℕ) : readNat (toDigits 10 n) = some n := by
  have hdigits : (toDigits 10 n).all Char.isDigit = true :=
    all_eq_true.2 fun c hc => isDigit_of_mem_toDigits (by decide) (by decide) hc
  rw [readNat, if_pos ⟨toDigits_ne_nil, hdigits⟩, ofDigitChars_ten_toDigits]

theorem toList_toString (n : ℤ) :
    (toString n).toList = if n < 0 then '-' :: toDigits 10 n.natAbs else toDigits 10 n.natAbs := by
  cases n with
  | ofNat m | negSucc m => simp [toString, Int.repr]

variable {c : Char}

theorem isNumberChar_of_isDigit (h : c.isDigit = true) : isNumberChar c = true := by
  rw [isNumberChar, h, Bool.true_or]

theorem isNumberChar_toString {n : ℤ} (h : c ∈ (toString n).toList) : isNumberChar c = true := by
  have hdigit : ∀ d ∈ toDigits 10 n.natAbs, isNumberChar d = true := fun d hd =>
    isNumberChar_of_isDigit (isDigit_of_mem_toDigits (by decide) (by decide) hd)
  rw [toList_toString] at h
  split_ifs at h with hneg
  · rcases mem_cons.1 h with rfl | h
    · rfl
    · exact hdigit c h
  · exact hdigit c h

variable {token : List Char}

theorem readInt_of_ne (h : ∀ rest, token ≠ '-' :: rest) :
    readInt token = (readNat token).map fun (n : ℕ) => (n : ℤ) := by
  unfold readInt
  split
  · rename_i rest
    exact absurd rfl (h rest)
  · rfl

theorem readInt_toString (n : ℤ) : readInt (toString n).toList = some n := by
  rw [toList_toString]
  split_ifs with hneg
  · rw [readInt, readNat_toDigits, map_some]
    exact congrArg some (by omega)
  · have hminus : ∀ rest, toDigits 10 n.natAbs ≠ '-' :: rest := by
      intro rest heq
      have hmem : '-' ∈ toDigits 10 n.natAbs := heq ▸ mem_cons_self
      exact absurd (isDigit_of_mem_toDigits (by decide) (by decide) hmem) (by decide)
    rw [readInt_of_ne hminus, readNat_toDigits, map_some]
    exact congrArg some (by omega)

theorem toString_ne_nil (n : ℤ) : (toString n).toList ≠ [] := by
  rw [toList_toString]
  split_ifs with hneg
  · exact cons_ne_nil _ _
  · exact toDigits_ne_nil

/-- What may stand behind a value: anything but a character of numbers. -/
def Delimited (rest : List Char) : Prop := ∀ c ∈ rest.head?, isNumberChar c = false

variable {rest : List Char}

theorem takeWhile_token (htoken : ∀ c ∈ token, isNumberChar c = true) (hrest : Delimited rest) :
    (token ++ rest).takeWhile isNumberChar = token ∧ (token ++ rest).dropWhile isNumberChar = rest := by
  have htake : rest.takeWhile isNumberChar = [] := by
    cases rest with
    | nil => rfl
    | cons c rest => rw [takeWhile_cons, hrest c rfl]; rfl
  have hdrop : rest.dropWhile isNumberChar = rest := by
    cases rest with
    | nil => rfl
    | cons c rest => rw [dropWhile_cons, hrest c rfl]; rfl
  rw [takeWhile_append_of_pos htoken, dropWhile_append_of_pos htoken, htake, hdrop, append_nil]
  exact ⟨rfl, rfl⟩

theorem readValue_token (hne : token ≠ []) (htoken : ∀ c ∈ token, isNumberChar c = true) (hrest : Delimited rest)
    (fuel depth : ℕ) : readValue (fuel + 1) depth (token ++ rest) = some (readNumber token, rest) := by
  obtain ⟨htake, hdrop⟩ := takeWhile_token htoken hrest
  obtain ⟨c, token, rfl⟩ := exists_cons_of_ne_nil hne
  have hc : isNumberChar c = true := htoken c mem_cons_self
  rw [cons_append] at htake hdrop ⊢
  rw [readValue, if_neg (htake ▸ hne), htake, hdrop]
  -- the other heads are no characters of numbers
  all_goals
    intros
    rename_i heq
    obtain ⟨rfl, -⟩ := List.cons.inj heq
    exact absurd hc (by decide)

theorem delimited_cons (h : isNumberChar c = false) : Delimited (c :: rest) := by
  intro d hd
  cases hd
  exact h

theorem exists_chars_eq_cons {value : Json} (h : value.Valid IsFloat) : ∃ c text, value.chars = c :: text ∧
    c ≠ ']' := by
  have hnumber : ∀ token : List Char, token ≠ [] → (∀ c ∈ token, isNumberChar c = true) →
      ∃ c text, token = c :: text ∧ c ≠ ']' := by
    intro token hne htoken
    obtain ⟨c, text, rfl⟩ := exists_cons_of_ne_nil hne
    refine ⟨c, text, rfl, ?_⟩
    rintro rfl
    exact absurd (htoken _ mem_cons_self) (by decide)
  cases value with
  | null => exact ⟨_, _, rfl, by decide⟩
  | bool b => cases b <;> exact ⟨_, _, rfl, by decide⟩
  | int n => exact hnumber _ (toString_ne_nil n) fun c hc => isNumberChar_toString hc
  | float text => exact hnumber _ h.1 h.2.1
  | str s | arr items | obj fields => exact ⟨_, _, rfl, by decide⟩

theorem length_chars_pos {value : Json} (h : value.Valid IsFloat) : 0 < value.chars.length := by
  obtain ⟨c, text, heq, -⟩ := exists_chars_eq_cons h
  rw [heq]
  exact succ_pos _

theorem charsItems_ne {item : Json} (h : item.Valid IsFloat) (items : List Json) (rest more : List Char) :
    charsItems (item :: items) ++ more ≠ ']' :: rest := by
  obtain ⟨c, text, hchars, hc⟩ := exists_chars_eq_cons h
  intro heq
  cases items with
  | nil =>
    rw [charsItems, hchars, cons_append] at heq
    exact hc (List.cons.inj heq).1
  | cons next items =>
    rw [charsItems, hchars, cons_append, cons_append] at heq
    exact hc (List.cons.inj heq).1

/-- What stands behind a member that these ones follow. -/
def moreFields : List (String × Json) → List Char
  | [] => []
  | field :: fields => ',' :: charsFields (field :: fields)

theorem charsFields_eq_cons (key : String) (value : Json) (fields : List (String × Json)) :
    charsFields ((key, value) :: fields) =
      '"' :: (key.toList.flatMap escapeChar ++ '"' :: ':' :: (value.chars ++ moreFields fields)) := by
  cases fields with
  | nil | cons next fields => simp [charsFields, quoted, moreFields]

theorem length_charsFields (key : String) (value : Json) (fields : List (String × Json)) :
    value.chars.length + (moreFields fields).length + 3 ≤ (charsFields ((key, value) :: fields)).length := by
  rw [charsFields_eq_cons, length_cons, length_append, length_cons, length_cons, length_append]
  omega

section

variable {key : String} {value : Json} {fuel depth : ℕ} {text rest : List Char}

theorem readFields_next (h : readValue fuel depth text = some (value, ',' :: rest)) :
    readFields (fuel + 1) depth ('"' :: (key.toList.flatMap escapeChar ++ '"' :: ':' :: text)) =
      (readFields fuel depth rest).map fun r => ((key, value) :: r.1, r.2) := by
  rw [readFields, readString_quoted]
  simp only [h, String.ofList_toList]

theorem readFields_last (h : readValue fuel depth text = some (value, '\x7d' :: rest)) :
    readFields (fuel + 1) depth ('"' :: (key.toList.flatMap escapeChar ++ '"' :: ':' :: text)) =
      some ([(key, value)], rest) := by
  rw [readFields, readString_quoted]
  simp only [h, String.ofList_toList]

theorem readFields_none (h : readValue fuel depth text = none) :
    readFields (fuel + 1) depth ('"' :: (key.toList.flatMap escapeChar ++ '"' :: ':' :: text)) = none := by
  rw [readFields, readString_quoted]
  simp only [h]

end

mutual

/-- A value is read again from its text where the levels suffice, and refused where they do not. -/
theorem readValue_chars : (value : Json) → (fuel depth : ℕ) → (rest : List Char) → value.Valid IsFloat →
    value.chars.length ≤ fuel → Delimited rest →
    readValue fuel depth (value.chars ++ rest) = if value.nesting ≤ depth then some (value, rest) else none
  | value, 0, _, _, hvalid, hfuel, _ => absurd hfuel (not_le.2 (length_chars_pos hvalid))
  | null, _ + 1, _, _, _, _, _ => rfl
  | bool b, _ + 1, _, _, _, _, _ => by cases b <;> rfl
  | int n, fuel + 1, depth, rest, _, _, hrest => by
    show readValue (fuel + 1) depth ((toString n).toList ++ rest) = some (int n, rest)
    rw [readValue_token (toString_ne_nil n) (fun c hc => isNumberChar_toString hc) hrest, readNumber,
      readInt_toString]
  | float text, fuel + 1, depth, rest, hvalid, _, hrest => by
    obtain ⟨hne, hchars, hint⟩ := hvalid
    show readValue (fuel + 1) depth (text.toList ++ rest) = some (float text, rest)
    rw [readValue_token hne hchars hrest, readNumber, hint, String.ofList_toList]
  | str s, fuel + 1, depth, rest, _, _, _ => by
    show readValue (fuel + 1) depth ('"' :: s.toList.flatMap escapeChar ++ ['"'] ++ rest) = some (str s, rest)
    rw [append_assoc, cons_append, readValue, singleton_append, readString_quoted, map_some]
    show some (str (String.ofList s.toList), rest) = _
    rw [String.ofList_toList]
  | arr items, fuel + 1, depth, rest, hvalid, hfuel, _ => by
    show readValue (fuel + 1) depth ('[' :: charsItems items ++ [']'] ++ rest) = _
    rw [chars, length_append, length_cons, length_singleton] at hfuel
    rw [append_assoc, singleton_append, cons_append, nesting]
    cases depth with
    | zero => rfl
    | succ depth =>
      cases items with
      | nil => rfl
      | cons item items =>
        have hitems := readItems_chars (item :: items) fuel depth rest (cons_ne_nil _ _) hvalid (by omega)
        rw [readValue, hitems]
        · simp only [add_le_add_iff_right]
          split_ifs with h
          · rfl
          · rfl
        · exact fun more heq => charsItems_ne hvalid.1 items more _ heq
  | obj fields, fuel + 1, depth, rest, hvalid, hfuel, _ => by
    show readValue (fuel + 1) depth ('\x7b' :: charsFields fields ++ ['\x7d'] ++ rest) = _
    rw [chars, length_append, length_cons, length_singleton] at hfuel
    rw [append_assoc, singleton_append, cons_append, nesting]
    cases depth with
    | zero => rfl
    | succ depth =>
      cases fields with
      | nil => rfl
      | cons field fields =>
        have hfields := readFields_chars (field :: fields) fuel depth rest (cons_ne_nil _ _) hvalid.2 (by omega)
        rw [readValue, hfields]
        · simp only [add_le_add_iff_right]
          split_ifs with h
          · rfl
          · rfl
        · intro more heq
          rw [charsFields_eq_cons, cons_append] at heq
          exact absurd (List.cons.inj heq).1 (by decide)

theorem readItems_chars : (items : List Json) → (fuel depth : ℕ) → (rest : List Char) → items ≠ [] →
    ValidItems IsFloat items → (charsItems items).length + 1 ≤ fuel →
    readItems fuel depth (charsItems items ++ ']' :: rest) =
      if nestingItems items ≤ depth then some (items, rest) else none
  | [], _, _, _, hne, _, _ => absurd rfl hne
  | [item], fuel + 1, depth, rest, _, hvalid, hfuel => by
    rw [charsItems] at hfuel ⊢
    rw [readItems, readValue_chars item fuel depth _ hvalid.1 (by omega) (delimited_cons rfl)]
    simp only [nestingItems, max_zero]
    split_ifs with h
    · rfl
    · rfl
  | item :: next :: items, fuel + 1, depth, rest, _, hvalid, hfuel => by
    have hpos := length_chars_pos hvalid.1
    rw [charsItems, length_append, length_cons] at hfuel
    rw [charsItems, append_assoc, cons_append, readItems,
      readValue_chars item fuel depth _ hvalid.1 (by omega) (delimited_cons rfl)]
    have hitems := readItems_chars (next :: items) fuel depth rest (cons_ne_nil _ _) hvalid.2 (by omega)
    have hnesting : nestingItems (item :: next :: items) ≤ depth ↔
        item.nesting ≤ depth ∧ nestingItems (next :: items) ≤ depth := max_le_iff
    by_cases h : item.nesting ≤ depth
    · rw [if_pos h]
      show (readItems fuel depth (charsItems (next :: items) ++ ']' :: rest)).map _ = _
      rw [hitems]
      simp only [hnesting, h, true_and]
      split_ifs with hrest
      · rfl
      · rfl
    · rw [if_neg h, if_neg fun hand => h (hnesting.1 hand).1]

theorem readFields_chars : (fields : List (String × Json)) → (fuel depth : ℕ) → (rest : List Char) → fields ≠ [] →
    ValidFields IsFloat fields → (charsFields fields).length + 1 ≤ fuel →
    readFields fuel depth (charsFields fields ++ '\x7d' :: rest) =
      if nestingFields fields ≤ depth then some (fields, rest) else none
  | [], _, _, _, hne, _, _ => absurd rfl hne
  | [(key, value)], fuel + 1, depth, rest, _, hvalid, hfuel => by
    have hlength := length_charsFields key value []
    have hvalue := readValue_chars value fuel depth ('\x7d' :: rest) hvalid.1 (by omega) (delimited_cons rfl)
    rw [charsFields_eq_cons, moreFields, append_nil]
    simp only [cons_append, append_assoc, nestingFields, max_zero]
    split_ifs at hvalue ⊢ with h
    · exact readFields_last hvalue
    · exact readFields_none hvalue
  | (key, value) :: next :: fields, fuel + 1, depth, rest, _, hvalid, hfuel => by
    have hpos := length_chars_pos hvalid.1
    have hlength := length_charsFields key value (next :: fields)
    have hmore : (moreFields (next :: fields)).length = (charsFields (next :: fields)).length + 1 := rfl
    have hvalue : readValue fuel depth (value.chars ++ (moreFields (next :: fields) ++ '\x7d' :: rest)) =
        if value.nesting ≤ depth then some
          (value, ',' :: (charsFields (next :: fields) ++ '\x7d' :: rest)) else none :=
      readValue_chars value fuel depth _ hvalid.1 (by omega) (delimited_cons rfl)
    have hfields := readFields_chars (next :: fields) fuel depth rest (cons_ne_nil _ _) hvalid.2 (by omega)
    have hnesting : nestingFields ((key, value) :: next :: fields) ≤ depth ↔
        value.nesting ≤ depth ∧ nestingFields (next :: fields) ≤ depth := max_le_iff
    rw [charsFields_eq_cons]
    simp only [cons_append, append_assoc]
    by_cases h : value.nesting ≤ depth
    · rw [if_pos h] at hvalue
      rw [readFields_next hvalue, hfields]
      simp only [hnesting, h, true_and]
      split_ifs with hrest
      · rfl
      · rfl
    · rw [if_neg h] at hvalue
      rw [readFields_none hvalue, if_neg fun hand => h (hnesting.1 hand).1]

end

/-- The reader of compact texts gives back what was written. -/
def reader : Reader := ⟨read, IsFloat, id⟩

/-- The reader gives back what was printed, down to a depth of 127. -/
theorem reader_lawful : reader.Lawful 127 := by
  have hread : ∀ {value : Json}, value.Valid IsFloat →
      readValue (value.toText.toList.length + 1) 127 value.toText.toList =
        if value.nesting ≤ 127 then some (value, []) else none := by
    intro value hvalid
    have hchars : value.toText.toList = value.chars := String.toList_ofList
    have hvalue := readValue_chars value (value.chars.length + 1) 127 [] hvalid (by omega) (by rintro c ⟨⟩)
    rw [hchars]
    rw [append_nil] at hvalue
    exact hvalue
  constructor
  · intro value hvalid hnesting
    show read value.toText = .ok (value.mapFloats id)
    have hfloats : value.mapFloats id = value := (mapFloats_eq_self_iff value).2 fun _ _ => rfl
    rw [read, hread hvalid, if_pos hnesting, hfloats]
  · intro value hvalid hnesting
    show ∃ e, read value.toText = .error e
    rw [read, hread hvalid, if_neg (not_le.2 hnesting)]
    exact ⟨_, rfl⟩

end Compact

end Json
