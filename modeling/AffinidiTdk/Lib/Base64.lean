/-
Base64url without padding (RFC 4648, section 5): three bytes are four characters, and one or two
bytes at the end are two or three. Decoding refuses a text that encoding does not make: a single
character over, or bits left over that are not zero.
-/
import Mathlib.Algebra.GroupWithZero.Nat
import Mathlib.Data.List.Basic

namespace Base64

open List Option

/-! ## The alphabet -/

/-- The character of six bits. -/
def char (n : ℕ) : Char :=
  if n < 26 then Char.ofNat (65 + n)
  else if n < 52 then Char.ofNat (71 + n)
  else if n < 62 then Char.ofNat (n - 4)
  else if n = 62 then '-' else '_'

def index? (c : Char) : Option ℕ :=
  if 65 ≤ c.toNat ∧ c.toNat ≤ 90 then some (c.toNat - 65)
  else if 97 ≤ c.toNat ∧ c.toNat ≤ 122 then some (c.toNat - 71)
  else if 48 ≤ c.toNat ∧ c.toNat ≤ 57 then some (c.toNat + 4)
  else if c = '-' then some 62
  else if c = '_' then some 63
  else none

variable {n : ℕ}

theorem index?_char (h : n < 64) : index? (char n) = some n := by
  have hall : ∀ n : Fin 64, index? (char n) = some n.1 := by decide
  exact hall ⟨n, h⟩

variable {c : Char}

theorem index?_eq_some (h : index? c = some n) : n < 64 ∧ char n = c := by
  unfold index? at h
  have hc : Char.ofNat c.toNat = c := Char.ofNat_toNat c
  split_ifs at h with hupper hlower hdigit hdash hunder
  · cases h
    refine ⟨by omega, ?_⟩
    rw [char, if_pos (by omega), Nat.add_sub_cancel' hupper.1, hc]
  · cases h
    refine ⟨by omega, ?_⟩
    rw [char, if_neg (by omega), if_pos (by omega), Nat.add_sub_cancel' (by omega), hc]
  · cases h
    refine ⟨by omega, ?_⟩
    rw [char, if_neg (by omega), if_neg (by omega), if_pos (by omega), Nat.add_sub_cancel, hc]
  · cases h
    exact ⟨by decide, hdash.symm⟩
  · cases h
    exact ⟨by decide, hunder.symm⟩

/-! ## Groups -/

/-- The number three bytes spell. -/
def word (a b c : UInt8) : ℕ := a.toNat * 2 ^ 16 + b.toNat * 2 ^ 8 + c.toNat

/-- A number of 24 bits as three bytes. -/
def bytes (n : ℕ) : List UInt8 := [UInt8.ofNat (n / 2 ^ 16), UInt8.ofNat (n / 2 ^ 8), UInt8.ofNat n]

def encodeGroup (n : ℕ) : List Char :=
    [char (n / 2 ^ 18 % 64), char (n / 2 ^ 12 % 64), char (n / 2 ^ 6 % 64), char (n % 64)]

def decodeGroup (w x y z : Char) : Option ℕ := do
  let i ← index? w
  let j ← index? x
  let k ← index? y
  let l ← index? z
  some (i * 2 ^ 18 + j * 2 ^ 12 + k * 2 ^ 6 + l)

theorem word_lt (a b c : UInt8) : word a b c < 2 ^ 24 := by
  have ha := a.toNat_lt
  have hb := b.toNat_lt
  have hc := c.toNat_lt
  unfold word
  omega

theorem bytes_word (a b c : UInt8) : bytes (word a b c) = [a, b, c] := by
  have ha := a.toNat_lt
  have hb := b.toNat_lt
  have hc := c.toNat_lt
  have hfirst : UInt8.ofNat (word a b c / 2 ^ 16) = a := by
    rw [← UInt8.toNat_inj, UInt8.toNat_ofNat', word]
    omega
  have hsecond : UInt8.ofNat (word a b c / 2 ^ 8) = b := by
    rw [← UInt8.toNat_inj, UInt8.toNat_ofNat', word]
    omega
  have hthird : UInt8.ofNat (word a b c) = c := by
    rw [← UInt8.toNat_inj, UInt8.toNat_ofNat', word]
    omega
  rw [bytes, hfirst, hsecond, hthird]

theorem word_bytes (h : n < 2 ^ 24) :
    word (UInt8.ofNat (n / 2 ^ 16)) (UInt8.ofNat (n / 2 ^ 8)) (UInt8.ofNat n) = n := by
  rw [word, UInt8.toNat_ofNat', UInt8.toNat_ofNat', UInt8.toNat_ofNat']
  omega

theorem index?_of_mem_encodeGroup (h : c ∈ encodeGroup n) : (index? c).isSome := by
  have hchar : ∀ k, (index? (char (k % 64))).isSome := fun k => by
    rw [index?_char (Nat.mod_lt k (by decide))]
    rfl
  simp only [encodeGroup, mem_cons, not_mem_nil, or_false] at h
  rcases h with rfl | rfl | rfl | rfl <;> exact hchar _

theorem decodeGroup_char {i j k l : ℕ} (hi : i < 64) (hj : j < 64) (hk : k < 64) (hl : l < 64) :
    decodeGroup (char i) (char j) (char k) (char l) = some (i * 2 ^ 18 + j * 2 ^ 12 + k * 2 ^ 6 + l) := by
  simp only [decodeGroup, index?_char hi, index?_char hj, index?_char hk, index?_char hl, bind_eq_bind, bind_some]

theorem decodeGroup_encodeGroup (h : n < 2 ^ 24) : decodeGroup (char (n / 2 ^ 18 % 64)) (char (n / 2 ^ 12 % 64))
    (char (n / 2 ^ 6 % 64)) (char (n % 64)) = some n := by
  rw [decodeGroup_char (Nat.mod_lt _ (by decide)) (Nat.mod_lt _ (by decide)) (Nat.mod_lt _ (by decide))
    (Nat.mod_lt _ (by decide))]
  refine congrArg some ?_
  omega

variable {w x y z : Char}

theorem decodeGroup_eq_some (h : decodeGroup w x y z = some n) : n < 2 ^ 24 ∧ encodeGroup n = [w, x, y, z] := by
  simp only [decodeGroup, bind_eq_bind, bind_eq_some_iff] at h
  obtain ⟨i, hi, j, hj, k, hk, l, hl, hn⟩ := h
  obtain ⟨hi64, rfl⟩ := index?_eq_some hi
  obtain ⟨hj64, rfl⟩ := index?_eq_some hj
  obtain ⟨hk64, rfl⟩ := index?_eq_some hk
  obtain ⟨hl64, rfl⟩ := index?_eq_some hl
  cases hn
  refine ⟨by omega, ?_⟩
  have h₁ : (i * 2 ^ 18 + j * 2 ^ 12 + k * 2 ^ 6 + l) / 2 ^ 18 % 64 = i := by omega
  have h₂ : (i * 2 ^ 18 + j * 2 ^ 12 + k * 2 ^ 6 + l) / 2 ^ 12 % 64 = j := by omega
  have h₃ : (i * 2 ^ 18 + j * 2 ^ 12 + k * 2 ^ 6 + l) / 2 ^ 6 % 64 = k := by omega
  have h₄ : (i * 2 ^ 18 + j * 2 ^ 12 + k * 2 ^ 6 + l) % 64 = l := by omega
  rw [encodeGroup, h₁, h₂, h₃, h₄]

/-! ## Texts -/

/-- Three bytes in four characters, and what is left over without padding. -/
def encode : List UInt8 → List Char
  | [] => []
  | [a] => (encodeGroup (word a 0 0)).take 2
  | [a, b] => (encodeGroup (word a b 0)).take 3
  | a :: b :: c :: rest => encodeGroup (word a b c) ++ encode rest

/-- The inverse of `encode`: spare bits that are not zero are refused. -/
def decode : List Char → Option (List UInt8)
  | [] => some []
  | [_] => none
  | [w, x] => do
    let n ← decodeGroup w x 'A' 'A'
    if n % 2 ^ 16 = 0 then some ((bytes n).take 1) else none
  | [w, x, y] => do
    let n ← decodeGroup w x y 'A'
    if n % 2 ^ 8 = 0 then some ((bytes n).take 2) else none
  | w :: x :: y :: z :: rest => do
    let n ← decodeGroup w x y z
    let tail ← decode rest
    some (bytes n ++ tail)

theorem decode_group (i j k l : ℕ) (hi : i < 64) (hj : j < 64) (hk : k < 64) (hl : l < 64) (rest : List Char) :
    decode (char i :: char j :: char k :: char l :: rest) =
      (decode rest).map fun tail => bytes (i * 2 ^ 18 + j * 2 ^ 12 + k * 2 ^ 6 + l) ++ tail := by
  rw [decode, decodeGroup_char hi hj hk hl, bind_eq_bind, bind_some]
  cases decode rest <;> rfl

/-- Decoding gives back what was encoded. -/
theorem decode_encode : (bs : List UInt8) → decode (encode bs) = some bs
  | [] => rfl
  | [a] => by
    have hn := word_lt a 0 0
    have h₃ : word a 0 0 / 2 ^ 6 % 64 = 0 := by unfold word; simp; omega
    have h₄ : word a 0 0 % 64 = 0 := by unfold word; simp; omega
    have hgroup := decodeGroup_encodeGroup hn
    rw [h₃, h₄] at hgroup
    have hzero : word a 0 0 % 2 ^ 16 = 0 := by unfold word; simp
    show decode [char _, char _] = _
    rw [decode, show 'A' = char 0 from rfl, hgroup, bind_eq_bind, bind_some, if_pos hzero, bytes_word]
    rfl
  | [a, b] => by
    have hn := word_lt a b 0
    have h₄ : word a b 0 % 64 = 0 := by unfold word; simp; omega
    have hgroup := decodeGroup_encodeGroup hn
    rw [h₄] at hgroup
    have hzero : word a b 0 % 2 ^ 8 = 0 := by unfold word; simp; omega
    show decode [char _, char _, char _] = _
    rw [decode, show 'A' = char 0 from rfl, hgroup, bind_eq_bind, bind_some, if_pos hzero, bytes_word]
    rfl
  | a :: b :: c :: rest => by
    have ih := decode_encode rest
    show decode (char _ :: char _ :: char _ :: char _ :: encode rest) = _
    rw [decode, decodeGroup_encodeGroup (word_lt a b c), bind_eq_bind, bind_some, ih, bytes_word]
    rfl

theorem encode_injective : Function.Injective encode := fun bs cs h => by
  have hdecode := congrArg decode h
  rw [decode_encode, decode_encode] at hdecode
  exact some.inj hdecode

theorem encode_bytes (h : n < 2 ^ 24) (rest : List UInt8) :
    encode (bytes n ++ rest) = encodeGroup n ++ encode rest := by
  show encodeGroup (word _ _ _) ++ encode rest = _
  rw [word_bytes h]

theorem encode_decode : {text : List Char} → {bs : List UInt8} → decode text = some bs → encode bs = text
  | [], bs, h => by
    cases h
    rfl
  | [_], bs, h => by cases h
  | [w, x], bs, h => by
    simp only [decode, bind_eq_bind, bind_eq_some_iff] at h
    obtain ⟨n, hn, h⟩ := h
    split_ifs at h with hzero
    cases h
    obtain ⟨hlt, hgroup⟩ := decodeGroup_eq_some hn
    have hword : word (UInt8.ofNat (n / 2 ^ 16)) 0 0 = n := by
      rw [word, UInt8.toNat_ofNat']
      simp only [UInt8.toNat_zero]
      omega
    show (encodeGroup (word _ 0 0)).take 2 = _
    rw [hword, hgroup]
    rfl
  | [w, x, y], bs, h => by
    simp only [decode, bind_eq_bind, bind_eq_some_iff] at h
    obtain ⟨n, hn, h⟩ := h
    split_ifs at h with hzero
    cases h
    obtain ⟨hlt, hgroup⟩ := decodeGroup_eq_some hn
    have hword : word (UInt8.ofNat (n / 2 ^ 16)) (UInt8.ofNat (n / 2 ^ 8)) 0 = n := by
      rw [word, UInt8.toNat_ofNat', UInt8.toNat_ofNat']
      simp only [UInt8.toNat_zero]
      omega
    show (encodeGroup (word _ _ 0)).take 3 = _
    rw [hword, hgroup]
    rfl
  | w :: x :: y :: z :: rest, bs, h => by
    simp only [decode, bind_eq_bind, bind_eq_some_iff] at h
    obtain ⟨n, hn, tail, htail, h⟩ := h
    cases h
    obtain ⟨hlt, hgroup⟩ := decodeGroup_eq_some hn
    rw [encode_bytes hlt, hgroup, encode_decode htail]
    rfl

/-! ## Aligned texts -/

theorem encode_append : (bs rest : List UInt8) → bs.length % 3 = 0 → encode (bs ++ rest) = encode bs ++ encode rest
  | [], rest, _ => rfl
  | [_], rest, h => by cases h
  | [_, _], rest, h => by cases h
  | a :: b :: c :: bs, rest, h => by
    have hbs : bs.length % 3 = 0 := by
      simp only [length_cons] at h
      omega
    show encodeGroup (word a b c) ++ encode (bs ++ rest) = _
    rw [encode_append bs rest hbs, ← append_assoc]
    rfl

theorem length_encode : (bs : List UInt8) → bs.length % 3 = 0 → (encode bs).length = bs.length / 3 * 4
  | [], _ => rfl
  | [_], h => by cases h
  | [_, _], h => by cases h
  | a :: b :: c :: bs, h => by
    have hbs : bs.length % 3 = 0 := by
      simp only [length_cons] at h
      omega
    show (encodeGroup (word a b c) ++ encode bs).length = _
    rw [length_append, length_encode bs hbs]
    simp only [encodeGroup, length_cons, length_nil]
    omega

variable {bs : List UInt8}

theorem encode_take {k : ℕ} (h : k * 3 ≤ bs.length) : encode (bs.take (k * 3)) = (encode bs).take (k * 4) := by
  have htake : (bs.take (k * 3)).length = k * 3 := length_take_of_le h
  have haligned : (bs.take (k * 3)).length % 3 = 0 := by
    rw [htake, Nat.mul_mod_left]
  have hlength : (encode (bs.take (k * 3))).length = k * 4 := by
    rw [length_encode _ haligned, htake, Nat.mul_div_cancel _ (by decide)]
  conv_rhs => rw [← take_append_drop (k * 3) bs, encode_append _ _ haligned]
  rw [← hlength, take_left]

theorem length_of_decode : {text : List Char} → {bs : List UInt8} → decode text = some bs → text.length % 4 = 0 →
    bs.length = text.length / 4 * 3
  | [], bs, h, _ => by
    cases h
    rfl
  | [_], _, _, h => by cases h
  | [_, _], _, _, h => by cases h
  | [_, _, _], _, _, h => by cases h
  | w :: x :: y :: z :: text, bs, h, hlength => by
    simp only [decode, bind_eq_bind, bind_eq_some_iff] at h
    obtain ⟨n, -, tail, htail, h⟩ := h
    cases h
    have htext : text.length % 4 = 0 := by
      simp only [length_cons] at hlength
      omega
    have ih := length_of_decode htail htext
    simp only [bytes, length_append, length_cons, length_nil, ih]
    omega

theorem decode_cons_four {c₁ c₂ c₃ c₄ : Char} (hc₁ : (index? c₁).isSome) (hc₂ : (index? c₂).isSome)
    (hc₃ : (index? c₃).isSome) (hc₄ : (index? c₄).isSome) (rest : List UInt8) :
    ∃ first second third,
      decode (c₁ :: c₂ :: c₃ :: c₄ :: encode rest) = some (first :: second :: third :: rest) := by
  obtain ⟨i, hi⟩ := isSome_iff_exists.1 hc₁
  obtain ⟨hi64, rfl⟩ := index?_eq_some hi
  obtain ⟨j, hj⟩ := isSome_iff_exists.1 hc₂
  obtain ⟨hj64, rfl⟩ := index?_eq_some hj
  obtain ⟨k, hk⟩ := isSome_iff_exists.1 hc₃
  obtain ⟨hk64, rfl⟩ := index?_eq_some hk
  obtain ⟨l, hl⟩ := isSome_iff_exists.1 hc₄
  obtain ⟨hl64, rfl⟩ := index?_eq_some hl
  have hdecode := decode_group i j k l hi64 hj64 hk64 hl64 (encode rest)
  rw [decode_encode, map_some] at hdecode
  exact ⟨_, _, _, hdecode⟩

theorem exists_decode : (text : List Char) → text.length % 4 = 0 → (∀ c ∈ text, (index? c).isSome) →
    ∃ bs, decode text = some bs
  | [], _, _ => ⟨[], rfl⟩
  | [_], h, _ => by cases h
  | [_, _], h, _ => by cases h
  | [_, _, _], h, _ => by cases h
  | w :: x :: y :: z :: text, h, halpha => by
    have htext : text.length % 4 = 0 := by
      simp only [length_cons] at h
      omega
    simp only [forall_mem_cons] at halpha
    obtain ⟨hw, hx, hy, hz, halpha⟩ := halpha
    obtain ⟨bs, hbs⟩ := exists_decode text htext halpha
    obtain ⟨first, second, third, hgroup⟩ := decode_cons_four hw hx hy hz bs
    rw [encode_decode hbs] at hgroup
    exact ⟨_, hgroup⟩

/-! ## Characters in the place of lead bytes -/

/-- With another first character a text decodes to the same bytes after the first. -/
theorem decode_cons_drop_one (hc : (index? c).isSome) (b d : UInt8) (rest : List UInt8) :
    ∃ first, decode (c :: (encode (0 :: b :: d :: rest)).drop 1) = some (first :: b :: d :: rest) := by
  obtain ⟨i, hi⟩ := isSome_iff_exists.1 hc
  obtain ⟨hi64, rfl⟩ := index?_eq_some hi
  have hdecode := decode_group i (word 0 b d / 2 ^ 12 % 64) (word 0 b d / 2 ^ 6 % 64) (word 0 b d % 64) hi64
    (Nat.mod_lt _ (by decide)) (Nat.mod_lt _ (by decide)) (Nat.mod_lt _ (by decide)) (encode rest)
  rw [decode_encode, map_some] at hdecode
  have hb := b.toNat_lt
  have hd := d.toNat_lt
  have hword : word 0 b d = b.toNat * 2 ^ 8 + d.toNat := by simp [word]
  generalize hn : i * 2 ^ 18 + word 0 b d / 2 ^ 12 % 64 * 2 ^ 12 + word 0 b d / 2 ^ 6 % 64 * 2 ^ 6 + word 0 b d %
    64 = n
    at hdecode
  have hsecond : UInt8.ofNat (n / 2 ^ 8) = b := by
    rw [← UInt8.toNat_inj, UInt8.toNat_ofNat']
    omega
  have hthird : UInt8.ofNat n = d := by
    rw [← UInt8.toNat_inj, UInt8.toNat_ofNat']
    omega
  refine ⟨UInt8.ofNat (n / 2 ^ 16), hdecode.trans ?_⟩
  rw [bytes, hsecond, hthird]
  rfl

theorem decode_cons_drop_two {c₁ c₂ : Char} (hc₁ : (index? c₁).isSome) (hc₂ : (index? c₂).isSome) (d : UInt8)
    (rest : List UInt8) :
    ∃ first second, decode (c₁ :: c₂ :: (encode (0 :: 0 :: d :: rest)).drop 2) =
      some (first :: second :: d :: rest) := by
  obtain ⟨i, hi⟩ := isSome_iff_exists.1 hc₁
  obtain ⟨hi64, rfl⟩ := index?_eq_some hi
  obtain ⟨j, hj⟩ := isSome_iff_exists.1 hc₂
  obtain ⟨hj64, rfl⟩ := index?_eq_some hj
  have hdecode := decode_group i j (word 0 0 d / 2 ^ 6 % 64) (word 0 0 d % 64) hi64 hj64
    (Nat.mod_lt _ (by decide)) (Nat.mod_lt _ (by decide)) (encode rest)
  rw [decode_encode, map_some] at hdecode
  have hd := d.toNat_lt
  have hword : word 0 0 d = d.toNat := by simp [word]
  generalize hn : i * 2 ^ 18 + j * 2 ^ 12 + word 0 0 d / 2 ^ 6 % 64 * 2 ^ 6 + word 0 0 d % 64 = n at hdecode
  have hthird : UInt8.ofNat n = d := by
    rw [← UInt8.toNat_inj, UInt8.toNat_ofNat']
    omega
  refine ⟨UInt8.ofNat (n / 2 ^ 16), UInt8.ofNat (n / 2 ^ 8), hdecode.trans ?_⟩
  rw [bytes, hthird]
  rfl

variable {rest : List Char}

section

variable (h : decode (w :: x :: y :: z :: rest) = some bs)
include h

theorem decode_group_eq_some :
    ∃ n tail, n < 2 ^ 24 ∧ encodeGroup n = [w, x, y, z] ∧ encode tail = rest ∧ bs = bytes n ++ tail := by
  simp only [decode, bind_eq_bind, bind_eq_some_iff] at h
  obtain ⟨n, hn, tail, htail, h⟩ := h
  obtain ⟨hlt, hgroup⟩ := decodeGroup_eq_some hn
  exact ⟨n, tail, hlt, hgroup, encode_decode htail, (some.inj h).symm⟩

/-- With a zero in the place of the first byte a text loses its first character and two bits of its second. -/
theorem encode_zero_drop_one :
    ∃ j, index? x = some j ∧ encode (0 :: bs.drop 1) = 'A' :: char (j % 16) :: y :: z :: rest := by
  obtain ⟨n, tail, hlt, hgroup, rfl, rfl⟩ := decode_group_eq_some h
  simp only [encodeGroup, List.cons.injEq] at hgroup
  obtain ⟨-, rfl, rfl, rfl, -⟩ := hgroup
  refine ⟨n / 2 ^ 12 % 64, index?_char (Nat.mod_lt _ (by decide)), ?_⟩
  have hword : word 0 (UInt8.ofNat (n / 2 ^ 8)) (UInt8.ofNat n) = n % 2 ^ 16 := by
    rw [word, UInt8.toNat_ofNat', UInt8.toNat_ofNat']
    simp only [UInt8.toNat_zero]
    omega
  have h₁ : n % 2 ^ 16 / 2 ^ 18 % 64 = 0 := by omega
  have h₂ : n % 2 ^ 16 / 2 ^ 12 % 64 = n / 2 ^ 12 % 64 % 16 := by omega
  have h₃ : n % 2 ^ 16 / 2 ^ 6 % 64 = n / 2 ^ 6 % 64 := by omega
  have h₄ : n % 2 ^ 16 % 64 = n % 64 := by omega
  show encodeGroup (word 0 _ _) ++ encode tail = _
  rw [hword, encodeGroup, h₁, h₂, h₃, h₄]
  rfl

theorem encode_zero_drop_two : ∃ k, index? y = some k ∧ encode (0 :: 0 :: bs.drop 2) = 'A' :: 'A' :: char (k % 4)
    :: z :: rest := by
  obtain ⟨n, tail, hlt, hgroup, rfl, rfl⟩ := decode_group_eq_some h
  simp only [encodeGroup, List.cons.injEq] at hgroup
  obtain ⟨-, -, rfl, rfl, -⟩ := hgroup
  refine ⟨n / 2 ^ 6 % 64, index?_char (Nat.mod_lt _ (by decide)), ?_⟩
  have hword : word 0 0 (UInt8.ofNat n) = n % 2 ^ 8 := by
    rw [word, UInt8.toNat_ofNat']
    simp only [UInt8.toNat_zero]
    omega
  have h₁ : n % 2 ^ 8 / 2 ^ 18 % 64 = 0 := by omega
  have h₂ : n % 2 ^ 8 / 2 ^ 12 % 64 = 0 := by omega
  have h₃ : n % 2 ^ 8 / 2 ^ 6 % 64 = n / 2 ^ 6 % 64 % 4 := by omega
  have h₄ : n % 2 ^ 8 % 64 = n % 64 := by omega
  show encodeGroup (word 0 0 _) ++ encode tail = _
  rw [hword, encodeGroup, h₁, h₂, h₃, h₄]
  rfl

end

theorem char_inj {m : ℕ} (hm : m < 64) (hn : n < 64) : char m = char n ↔ m = n := by
  refine ⟨fun h => ?_, congrArg char⟩
  have hindex := congrArg index? h
  rw [index?_char hm, index?_char hn] at hindex
  exact some.inj hindex

theorem index?_of_mem_encode : (bs : List UInt8) → ∀ c ∈ encode bs, (index? c).isSome
  | [], c, hc => by cases hc
  | [a], c, hc => index?_of_mem_encodeGroup (mem_of_mem_take hc)
  | [a, b], c, hc => index?_of_mem_encodeGroup (mem_of_mem_take hc)
  | a :: b :: d :: bs, c, hc => by
    rcases mem_append.1 hc with hgroup | hrest
    · exact index?_of_mem_encodeGroup hgroup
    · exact index?_of_mem_encode bs c hrest

end Base64
