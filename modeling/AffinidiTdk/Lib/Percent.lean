/-
Percent-encoded texts: the octets that a text stands for, and those among them that are written as escapes. A text
that is read from the octets has an ASCII character where there is its octet, and nowhere else.
-/
import AffinidiTdk.Lib.Text

namespace Percent

open List

def hexValue (c : Char) : Option ℕ :=
  if c.isDigit then some (c.toNat - 48)
  else if 'a' ≤ c ∧ c ≤ 'f' then some (c.toNat - 87)
  else if 'A' ≤ c ∧ c ≤ 'F' then some (c.toNat - 55)
  else none

/-- The octet of a percent sign and two hexadecimal digits. -/
def escape (c high low : Char) : Option UInt8 :=
  if c = '%' then (hexValue high).bind fun h => (hexValue low).map fun l => UInt8.ofNat (16 * h + l) else none

/-- A text as octets that are escaped and characters that stand for themselves. -/
def units : List Char → List (UInt8 ⊕ Char)
  | [] => []
  | [c] => [.inr c]
  | [c, d] => [.inr c, .inr d]
  | c :: d :: e :: rest =>
    match escape c d e with
    | some octet => .inl octet :: units rest
    | none => .inr c :: units (d :: e :: rest)

def octets (text : List Char) : List UInt8 :=
  (units text).flatMap (Sum.elim (fun octet => [octet]) String.utf8EncodeChar)

/-- The octets that are written as escapes. -/
def escapes (text : List Char) : List UInt8 := (units text).filterMap Sum.getLeft?

/-- The octets of a text that is not encoded. -/
def utf8 (text : List Char) : List UInt8 := text.flatMap String.utf8EncodeChar

/-- The octet of an ASCII character. -/
def octet (c : Char) : UInt8 := UInt8.ofNat c.toNat

/-! ## ASCII characters -/

variable {c : Char}

theorem utf8EncodeChar_ascii (hc : c.toNat < 128) : String.utf8EncodeChar c = [octet c] :=
  if_pos (Nat.le_of_lt_succ hc)

theorem le_of_mem_utf8EncodeChar (hc : 128 ≤ c.toNat) {octet : UInt8} (h : octet ∈ String.utf8EncodeChar c) :
    128 ≤ octet.toNat := by
  have hrange : ∀ m n : ℕ, m + n < 256 → 128 ≤ n → 128 ≤ (UInt8.ofNat (m + n)).toNat := by
    intro m n hlt hn
    rw [UInt8.toNat_ofNat', Nat.mod_eq_of_lt hlt]
    omega
  have hmod : ∀ m n : ℕ, 0 < n → m % n < n := fun m n => Nat.mod_lt m
  have h8 := hmod (c.val.toNat / 262144) 8 (by decide)
  have h16 := hmod (c.val.toNat / 4096) 16 (by decide)
  have h32 := hmod (c.val.toNat / 64) 32 (by decide)
  have h64 := hmod (c.val.toNat / 4096) 64 (by decide)
  have h64' := hmod (c.val.toNat / 64) 64 (by decide)
  have h64'' := hmod c.val.toNat 64 (by decide)
  have hbig : ¬c.val.toNat ≤ 127 := by
    show ¬c.toNat ≤ 127
    omega
  unfold String.utf8EncodeChar at h
  simp only [if_neg hbig] at h
  split at h
  · simp only [mem_cons, not_mem_nil, or_false] at h
    rcases h with rfl | rfl
    · exact hrange _ _ (by omega) (by decide)
    · exact hrange _ _ (by omega) (by decide)
  · split at h
    · simp only [mem_cons, not_mem_nil, or_false] at h
      rcases h with rfl | rfl | rfl
      · exact hrange _ _ (by omega) (by decide)
      · exact hrange _ _ (by omega) (by decide)
      · exact hrange _ _ (by omega) (by decide)
    · simp only [mem_cons, not_mem_nil, or_false] at h
      rcases h with rfl | rfl | rfl | rfl
      · exact hrange _ _ (by omega) (by decide)
      · exact hrange _ _ (by omega) (by decide)
      · exact hrange _ _ (by omega) (by decide)
      · exact hrange _ _ (by omega) (by decide)

theorem toNat_octet (hc : c.toNat < 128) : (octet c).toNat = c.toNat := by
  rw [octet, UInt8.toNat_ofNat', Nat.mod_eq_of_lt (by omega)]

theorem mem_utf8EncodeChar {d : Char} (hc : c.toNat < 128) : octet c ∈ String.utf8EncodeChar d ↔ c = d := by
  constructor
  · intro h
    by_cases hd : d.toNat < 128
    · rw [utf8EncodeChar_ascii hd, mem_singleton] at h
      have hnat := congrArg UInt8.toNat h
      rw [toNat_octet hc, toNat_octet hd] at hnat
      exact Char.toNat_inj.1 hnat
    · have hlow := le_of_mem_utf8EncodeChar (Nat.le_of_not_lt hd) h
      rw [toNat_octet hc] at hlow
      omega
  · rintro rfl
    rw [utf8EncodeChar_ascii hc]
    exact mem_singleton.2 rfl

variable {text : List Char}

theorem mem_utf8 (hc : c.toNat < 128) : octet c ∈ utf8 text ↔ c ∈ text := by
  rw [utf8, mem_flatMap]
  constructor
  · rintro ⟨d, hd, hmem⟩
    rwa [(mem_utf8EncodeChar hc).1 hmem]
  · intro h
    exact ⟨c, h, (mem_utf8EncodeChar hc).2 rfl⟩

theorem mem_escapes {octet : UInt8} : octet ∈ escapes text ↔ .inl octet ∈ units text := by
  rw [escapes, mem_filterMap]
  constructor
  · rintro ⟨unit, hunit, hleft⟩
    rwa [Sum.getLeft?_eq_some_iff.1 hleft] at hunit
  · intro h
    exact ⟨.inl octet, h, rfl⟩

theorem mem_of_mem_units : {text : List Char} → .inr c ∈ units text → c ∈ text
  | [], h => by cases h
  | [d], h => by
    cases mem_singleton.1 h
    exact mem_singleton.2 rfl
  | [d, e], h => by
    rcases mem_pair.1 h with h | h
    · exact mem_pair.2 (.inl (Sum.inr.inj h))
    · exact mem_pair.2 (.inr (Sum.inr.inj h))
  | d :: e :: f :: rest, h => by
    unfold units at h
    split at h
    · rcases mem_cons.1 h with h | h
      · cases h
      · have hrest := mem_of_mem_units h
        simp only [mem_cons]
        exact .inr (.inr (.inr hrest))
    · rcases mem_cons.1 h with h | h
      · exact mem_cons.2 (.inl (Sum.inr.inj h))
      · exact mem_cons_of_mem d (mem_of_mem_units h)

/-- An ASCII character that the text does not have comes out of it where it is escaped. -/
theorem octet_mem_octets (hc : c.toNat < 128) (hmem : c ∉ text) :
    octet c ∈ octets text ↔ octet c ∈ escapes text := by
  rw [mem_escapes, octets, mem_flatMap]
  constructor
  · rintro ⟨unit, hunit, h⟩
    cases unit with
    | inl other => rwa [mem_singleton.1 h]
    | inr d =>
      obtain rfl := (mem_utf8EncodeChar hc).1 h
      exact absurd (mem_of_mem_units hunit) hmem
  · intro h
    exact ⟨_, h, mem_singleton.2 rfl⟩

/-! ## Decoding -/

/-- A decoder gives the text whose octets an encoded text stands for, where there is one. -/
structure Decodes (decode : List Char → Except String (List Char)) : Prop where
  eq_ok_iff : ∀ {encoded text : List Char}, decode encoded = .ok text ↔ utf8 text = octets encoded

theorem Decodes.mem_iff {decode : List Char → Except String (List Char)} (hdecode : Decodes decode)
    {encoded : List Char} (h : decode encoded = .ok text) (hc : c.toNat < 128) (hmem : c ∉ encoded) : c ∈ text ↔
    octet c ∈ escapes encoded := by
  rw [← octet_mem_octets hc hmem, ← hdecode.eq_ok_iff.1 h, mem_utf8 hc]

/-- The decoder over the texts of the language. -/
def decode (encoded : List Char) : Except String (List Char) :=
  match Text.fromUtf8 (octets encoded) with
  | some text => .ok text.toList
  | none => .error "invalid utf-8 sequence"

theorem utf8_toList (s : String) : utf8 s.toList = Text.utf8 s := by
  rw [Text.utf8]
  show _ = s.toByteArray.data.toList
  rw [← String.utf8Encode_toList, List.utf8Encode]
  simp [utf8]

theorem decode_decodes : Decodes decode := by
  refine ⟨fun {encoded text} => ?_⟩
  have htext : utf8 text = Text.utf8 (String.ofList text) := by
    rw [← utf8_toList, String.toList_ofList]
  unfold decode
  constructor
  · intro h
    cases hread : Text.fromUtf8 (octets encoded) with
    | none =>
      rw [hread] at h
      cases h
    | some s =>
      rw [hread] at h
      cases h
      rw [utf8_toList, Text.utf8_of_fromUtf8 hread]
  · intro h
    rw [← h, htext, Text.fromUtf8_utf8]
    show Except.ok (String.ofList text).toList = _
    rw [String.toList_ofList]

end Percent
