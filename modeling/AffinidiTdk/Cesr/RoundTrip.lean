/-
The round trip of a CESR primitive through both domains. A fixed-length code replaces the characters
of its lead bytes, so decoding finds the raw bytes behind a known number of bytes. A variable-length
code keeps its lead bytes in the data and does not state how many they are: decoding strips the zero
bytes it finds, which are the lead bytes only when the raw bytes do not start with a zero of their own.
-/
import AffinidiTdk.Cesr.Matter

namespace AffinidiTdk.Cesr

open Base64 Fallible List

/-! ## The table -/

/-- What the codec relies on in an entry: the code has its hard size, which its first character tells,
and the sizes are whole groups of four characters. -/
def EntryOk (entry : String × Sizage) : Prop :=
  entry.1.toList.length = entry.2.hs ∧
  (entry.1.toList.all fun c => (Base64.index? c).isSome) ∧
  (entry.1.toList.head?.bind hardage) = some entry.2.hs ∧
  (entry.2.fs > 0 ∧ entry.2.fs % 4 = 0 ∧ entry.2.fs > 4 ∧ (entry.2.hs = 1 ∨ entry.2.hs = 2 ∨ entry.2.hs = 4) ∨
    entry.2.fs = 0 ∧ (entry.2.hs = 2 ∧ entry.2.ss = 2 ∨ entry.2.hs = 4 ∧ entry.2.ss = 4))

instance : DecidablePred EntryOk := fun _ => inferInstanceAs (Decidable (_ ∧ _))

theorem matterTable_ok : ∀ entry ∈ matterTable, EntryOk entry := by decide +kernel

theorem entryOk_of_matterSizage {code : String} {sizage : Sizage} (h : matterSizage code = some sizage) :
    EntryOk (code, sizage) := by
  obtain ⟨before, after, htable, -⟩ := lookup_eq_some_iff.1 h
  refine matterTable_ok _ ?_
  rw [htable]
  exact mem_append_right _ mem_cons_self

/-! ## Texts of the alphabet -/

/-- All characters are of the base64url alphabet. -/
def Alphabetic (text : Text) : Prop := ∀ c ∈ text, (Base64.index? c).isSome

theorem toNat_lt_of_index? {c : Char} (h : (index? c).isSome) : c.toNat < 128 := by
  obtain ⟨n, hn⟩ := Option.isSome_iff_exists.1 h
  obtain ⟨hlt, rfl⟩ := index?_eq_some hn
  have hall : ∀ n : Fin 64, (char n).toNat < 128 := by decide
  exact hall ⟨n, hlt⟩

theorem ensureAscii_eq_ok {text : Text} (h : Alphabetic text) : ensureAscii text = .ok () := by
  have hnone : (text.zipIdx.find? fun entry => decide (128 ≤ entry.1.toNat)) = none := by
    rw [find?_eq_none]
    rintro ⟨c, i⟩ hmem hbig
    have hc := toNat_lt_of_index? (h c (fst_mem_of_mem_zipIdx hmem))
    have hle := of_decide_eq_true hbig
    exact absurd hc (Nat.not_lt.2 hle)
  rw [ensureAscii, hnone]

theorem b64CharToIndex_char {n : ℕ} (h : n < 64) : b64CharToIndex (char n) = .ok n := by
  rw [b64CharToIndex, index?_char h]

theorem b64ToCount_append {digits : Text} {count n : ℕ} (h : b64ToCount digits = .ok count) (hn : n < 64) :
    b64ToCount (digits ++ [char n]) = .ok (count * 64 + n) := by
  rw [b64ToCount, foldlM_append]
  rw [b64ToCount] at h
  rw [h]
  simp only [foldlM_cons, foldlM_nil, ok_bind, b64CharToIndex_char hn]
  rfl

theorem countDigits_eq (length remaining : ℕ) :
    ∃ digits, countDigits length remaining = .ok (digits, remaining / 64 ^ length) ∧ digits.length = length ∧
      Alphabetic digits ∧ b64ToCount digits = .ok (remaining % 64 ^ length) := by
  induction length generalizing remaining with
  | zero =>
    refine ⟨[], ?_, rfl, fun c hc => absurd hc not_mem_nil, ?_⟩
    · rw [countDigits, Nat.pow_zero, Nat.div_one]
    · rw [Nat.pow_zero, Nat.mod_one]
      rfl
  | succ length ih =>
    obtain ⟨digits, hdigits, hlength, halpha, hcount⟩ := ih (remaining / 64)
    have hlast : remaining % 64 < 64 := Nat.mod_lt _ (by decide)
    have hchar : indexToB64Char (remaining % 64) = .ok (char (remaining % 64)) := by
      rw [indexToB64Char, if_neg (Nat.not_le.2 hlast)]
    refine ⟨digits ++ [char (remaining % 64)], ?_, ?_, ?_, ?_⟩
    · simp only [countDigits, hchar, ok_bind, hdigits]
      rw [Nat.div_div_eq_div_mul, ← Nat.pow_succ']
    · rw [length_append, hlength, length_singleton]
    · intro c hc
      rcases mem_append.1 hc with hmem | hmem
      · exact halpha c hmem
      · obtain rfl := mem_singleton.1 hmem
        rw [index?_char hlast]
        rfl
    · rw [b64ToCount_append hcount hlast, Nat.pow_succ']
      refine congrArg Except.ok ?_
      rw [Nat.mod_mul]
      omega

theorem countToB64_eq {count length : ℕ} (h : count < 64 ^ length) :
    ∃ digits, countToB64 count length = .ok digits ∧ digits.length = length ∧ Alphabetic digits ∧
      b64ToCount digits = .ok count := by
  obtain ⟨digits, hdigits, hlength, halpha, hcount⟩ := countDigits_eq length count
  rw [Nat.div_eq_of_lt h] at hdigits
  rw [Nat.mod_eq_of_lt h] at hcount
  refine ⟨digits, ?_, hlength, halpha, hcount⟩
  simp only [countToB64, hdigits, ok_bind, Nat.lt_irrefl, if_false]

namespace Matter

/-! ## Both domains decode alike -/

variable {text : Text} {code : String} {sizage : Sizage}

theorem fromQb64_eq (halpha : Alphabetic text) (hsizage : matterSizage code = some sizage)
    (hcode : text.take sizage.hs = code.toList) : fromQb64 text = readText text sizage.hs code sizage := by
  obtain ⟨hlength, -, hhard, -⟩ := entryOk_of_matterSizage hsizage
  dsimp only at hlength hhard
  have htext : ¬text.length < sizage.hs := by
    rw [← hlength, ← hcode, length_take]
    omega
  obtain ⟨first, hfirst, hhard⟩ := Option.bind_eq_some_iff.1 hhard
  have hhead : text.head? = some first := by
    rw [← hcode, head?_take] at hfirst
    split_ifs at hfirst
    exact hfirst
  have hstring : String.ofList (text.take sizage.hs) = code := by
    rw [hcode, String.ofList_toList]
  simp only [fromQb64, hhead, ensureAscii_eq_ok halpha, ok_bind, hhard, if_neg htext, hstring, hsizage]

theorem encode_take_groups {qb2 : Bytes} (haligned : qb2.length % 3 = 0) {chars : ℕ} (hchars : chars % 4 = 0) :
    encode (qb2.take (chars * 3 / 4)) = (encode qb2).take chars ∧
      (qb2.length < chars * 3 / 4 ↔ (encode qb2).length < chars) := by
  have hlength := length_encode qb2 haligned
  obtain ⟨k, rfl⟩ : ∃ k, chars = k * 4 := ⟨chars / 4, by omega⟩
  rw [show k * 4 * 3 / 4 = k * 3 by omega]
  refine ⟨?_, by omega⟩
  by_cases hle : k * 3 ≤ qb2.length
  · exact encode_take hle
  · rw [take_of_length_le (by omega), take_of_length_le (by omega)]

theorem readBinary_eq {qb2 : Bytes} (haligned : qb2.length % 3 = 0) (hsizage : matterSizage code = some sizage) :
    readBinary qb2 code sizage = readText (encode qb2) sizage.hs code sizage := by
  obtain ⟨-, -, -, hsizes⟩ := entryOk_of_matterSizage hsizage
  dsimp only at hsizes
  unfold readBinary readText
  by_cases hfixed : sizage.fs > 0
  · obtain ⟨htake, hlt⟩ := encode_take_groups haligned (show sizage.fs % 4 = 0 by omega)
    rw [if_pos hfixed, if_pos hfixed]
    simp only [htake, hlt]
    unfold extractRaw
    rw [take_take, Nat.min_self]
  · have hheader : (sizage.hs + sizage.ss) % 4 = 0 := by omega
    obtain ⟨htake, hlt⟩ := encode_take_groups haligned hheader
    rw [if_neg hfixed, if_neg hfixed]
    simp only [htake, hlt, take_take, Nat.min_self]
    -- the count decides where the data ends, at a whole group in both domains
    refine if_congr Iff.rfl rfl (bind_congr fun count => ?_)
    obtain ⟨htake, hlt⟩ := encode_take_groups haligned (show (sizage.hs + sizage.ss + count * 4) % 4 = 0 by omega)
    simp only [htake, hlt, take_take, Nat.min_self]

theorem fromQb2_eq {qb2 : Bytes} (haligned : qb2.length % 3 = 0) (hsizage : matterSizage code = some sizage)
    (hcode : (encode qb2).take sizage.hs = code.toList) :
    fromQb2 qb2 = readText (encode qb2) sizage.hs code sizage := by
  obtain ⟨hlength, -, hhard, hsizes⟩ := entryOk_of_matterSizage hsizage
  dsimp only at hlength hhard hsizes
  have htext := length_encode qb2 haligned
  have hhs : sizage.hs ≤ (encode qb2).length := by
    rw [← hlength, ← hcode, length_take]
    omega
  have hne : qb2 ≠ [] := by
    rintro rfl
    rw [length_nil] at htext
    omega
  have hsniff : ¬min qb2.length 6 < 3 := by omega
  obtain ⟨k, hk⟩ : ∃ k, min qb2.length 6 / 3 = k := ⟨_, rfl⟩
  have hencode : encode (qb2.take (k * 3)) = (encode qb2).take (k * 4) :=
    encode_take (by omega)
  obtain ⟨first, hfirst, hhard⟩ := Option.bind_eq_some_iff.1 hhard
  have hhead : ((encode qb2).take (k * 4)).head? = some first := by
    rw [← hcode, head?_take] at hfirst
    split_ifs at hfirst
    rw [head?_take, if_neg (by omega), hfirst]
  have hlong : ¬((encode qb2).take (k * 4)).length < sizage.hs := by
    rw [length_take]
    omega
  have hstring : String.ofList (((encode qb2).take (k * 4)).take sizage.hs) = code := by
    rw [take_take, Nat.min_eq_left (by omega), hcode, String.ofList_toList]
  rw [← readBinary_eq haligned hsizage]
  simp only [fromQb2, if_neg hne, if_neg hsniff, hk, hencode, hhead, hhard, if_neg hlong, hstring, hsizage]

/-! ## Fixed-length codes -/

variable {m : Matter}

theorem length_padded_mod (m : Matter) : m.padded.length % 3 = 0 := by
  rw [padded, length_append, length_replicate, computeLead, leadBytes]
  omega

theorem decode_code_append {raw : Bytes} (halpha : Alphabetic code.toList) (hcode : code.toList.length = sizage.hs)
    (hhs : sizage.hs = 1 ∨ sizage.hs = 2 ∨ sizage.hs = 4) (hraw : (raw.length + codeBytes sizage) % 3 = 0)
    (hne : raw ≠ []) : ∃ front, front.length = codeBytes sizage ∧
    decode (code.toList ++ (encode (List.replicate (leadBytes raw.length) 0 ++ raw)).drop
    (if sizage.hs = 4 then 0 else sizage.hs)) = some (front ++ raw) := by
  rcases hhs with hhs | hhs | hhs
  · have hbytes : codeBytes sizage = 1 := by simp [codeBytes, hhs]
    rw [hbytes] at hraw ⊢
    have hlead : leadBytes raw.length = 1 := by
      unfold leadBytes
      omega
    obtain ⟨c, hc⟩ := length_eq_one_iff.1 (hcode.trans hhs)
    rw [hc] at halpha ⊢
    rw [hlead, hhs]
    match raw, hraw with
    | b :: d :: rest, _ =>
      obtain ⟨first, hfirst⟩ := decode_cons_drop_one (halpha c mem_cons_self) b d rest
      exact ⟨[first], rfl, hfirst⟩
  · have hbytes : codeBytes sizage = 2 := by simp [codeBytes, hhs]
    rw [hbytes] at hraw ⊢
    have hlead : leadBytes raw.length = 2 := by
      unfold leadBytes
      omega
    obtain ⟨c₁, c₂, hc⟩ := length_eq_two.1 (hcode.trans hhs)
    rw [hc] at halpha ⊢
    rw [hlead, hhs]
    match raw, hne with
    | d :: rest, _ =>
      obtain ⟨first, second, hdecode⟩ := decode_cons_drop_two (halpha c₁ mem_cons_self)
        (halpha c₂ (mem_cons_of_mem _ mem_cons_self)) d rest
      exact ⟨[first, second], rfl, hdecode⟩
  · have hbytes : codeBytes sizage = 3 := by simp [codeBytes, hhs]
    rw [hbytes] at hraw ⊢
    have hlead : leadBytes raw.length = 0 := by
      unfold leadBytes
      omega
    rw [hhs] at hcode
    rw [hlead, if_pos hhs]
    match hlist : code.toList, hcode with
    | [c₁, c₂, c₃, c₄], _ =>
      rw [hlist] at halpha
      simp only [Alphabetic, forall_mem_cons] at halpha
      obtain ⟨h₁, h₂, h₃, h₄, -⟩ := halpha
      obtain ⟨first, second, third, hdecode⟩ := decode_cons_four h₁ h₂ h₃ h₄ raw
      exact ⟨[first, second, third], rfl, hdecode⟩

/-- The text of a fixed-length primitive has its full size, starts with its code, and decodes to the raw
bytes behind those of the code. -/
theorem qb64_fixed (hsizage : matterSizage m.code = some m.sizage) (hfixed : m.sizage.fs > 0)
    (hraw : m.raw.length = rawSizeFromSizage m.sizage) :
    ∃ text front, m.qb64 = .ok text ∧ text.length = m.sizage.fs ∧ text.take m.sizage.hs = m.code.toList ∧
      Alphabetic text ∧ decode text = some (front ++ m.raw) ∧ front.length = codeBytes m.sizage ∧
      m.raw ≠ [] := by
  obtain ⟨hlength, halpha, -, hsizes⟩ := entryOk_of_matterSizage hsizage
  dsimp only at hlength halpha hsizes
  rw [all_eq_true] at halpha
  have hhs : m.sizage.hs = 1 ∨ m.sizage.hs = 2 ∨ m.sizage.hs = 4 := by omega
  have hfs : m.sizage.fs % 4 = 0 ∧ m.sizage.fs > 4 := by omega
  have hcodeBytes : codeBytes m.sizage = 1 ∧ m.sizage.hs = 1 ∨ codeBytes m.sizage = 2 ∧ m.sizage.hs = 2 ∨
      codeBytes m.sizage = 3 ∧ m.sizage.hs = 4 := by
    rw [codeBytes]
    rcases hhs with hhs | hhs | hhs <;> simp [hhs]
  have hrawlen : m.raw.length + codeBytes m.sizage = m.sizage.fs * 3 / 4 := by
    have hsize : rawSizeFromSizage m.sizage = m.sizage.fs * 3 / 4 - codeBytes m.sizage := by
      rw [rawSizeFromSizage, codeBytes, if_neg (Nat.ne_of_gt hfixed)]
      rcases hhs with hhs | hhs | hhs <;> simp [hhs]
    omega
  have hencoded := length_encode m.padded (length_padded_mod m)
  have hpadded : m.padded.length = leadBytes m.raw.length + m.raw.length := by
    rw [padded, length_append, length_replicate, computeLead]
  have hlead : leadBytes m.raw.length = (3 - m.raw.length % 3) % 3 := rfl
  have hdrop : (encode m.padded).length - (m.sizage.fs - m.sizage.hs) =
      if m.sizage.hs = 4 then 0 else m.sizage.hs := by
    split <;> omega
  have hlong : ¬(encode m.padded).length < m.sizage.fs - m.sizage.hs := by omega
  have hne : m.raw ≠ [] := by
    intro hnil
    rw [hnil, length_nil] at hrawlen
    omega
  obtain ⟨front, hfront, hdecode⟩ := decode_code_append halpha hlength hhs (by omega) hne
  refine ⟨_, front, by rw [qb64, if_pos hfixed, if_neg hlong], ?_, ?_, ?_, ?_, hfront, hne⟩
  · rw [length_append, length_drop, hlength]
    omega
  · rw [← hlength, take_left]
  · intro c hc
    rcases mem_append.1 hc with hmem | hmem
    · exact halpha c hmem
    · exact index?_of_mem_encode _ c (mem_of_mem_drop hmem)
  · rw [hdrop]
    exact hdecode

theorem readText_fixed {front : Bytes} (hfixed : m.sizage.fs > 0) (hlength : text.length = m.sizage.fs)
    (hdecode : decode text = some (front ++ m.raw)) (hfront : front.length = codeBytes m.sizage)
    (hne : m.raw ≠ []) : readText text m.sizage.hs m.code m.sizage = .ok m := by
  have htake : text.take m.sizage.fs = text := take_of_length_le (Nat.le_of_eq hlength)
  have hlong : ¬(front ++ m.raw).length ≤ codeBytes m.sizage := by
    have hpos := length_pos_of_ne_nil hne
    rw [length_append]
    omega
  have hraw : extractRaw text m.sizage m.sizage.fs = .ok m.raw := by
    simp only [extractRaw, htake, b64Decode, hdecode, ok_bind, if_neg hlong]
    rw [← hfront, drop_left]
  rw [readText, if_pos hfixed, if_neg (by omega), hraw]
  rfl

/-! ## Variable-length codes -/

/-- The groups of four characters of the data. -/
def groups (m : Matter) : ℕ := (m.computeLead + m.raw.length) / 3

theorem length_encode_padded (m : Matter) : (encode m.padded).length = m.groups * 4 := by
  rw [length_encode m.padded (length_padded_mod m), groups, padded, length_append, length_replicate]

/-- The text of a variable-length primitive is read back without the zero bytes its data starts with. -/
theorem qb64_variable (hsizage : matterSizage m.code = some m.sizage) (hvariable : m.sizage.fs = 0)
    (hfits : m.groups < 64 ^ m.sizage.ss) : ∃ text, m.qb64 = .ok text ∧ text.length = m.sizage.hs + m.sizage.ss +
    m.groups * 4 ∧ text.take m.sizage.hs = m.code.toList ∧ Alphabetic text ∧ readText text m.sizage.hs m.code
    m.sizage = .ok ⟨m.code, m.padded.drop (countLeadingZeros m.padded 2), m.sizage⟩ := by
  obtain ⟨hlength, halpha, -, hsizes⟩ := entryOk_of_matterSizage hsizage
  dsimp only at hlength halpha hsizes
  rw [all_eq_true] at halpha
  have hencoded := length_encode_padded m
  obtain ⟨digits, hdigits, hdigitsLength, hdigitsAlpha, hcount⟩ := countToB64_eq hfits
  have hgroups : (encode m.padded).length / 4 = m.groups := by omega
  have haligned : ¬(encode m.padded).length % 4 ≠ 0 := by omega
  have hnot : ¬m.sizage.fs > 0 := by omega
  have hheader : (m.code.toList ++ digits).length = m.sizage.hs + m.sizage.ss := by
    rw [length_append, hlength, hdigitsLength]
  refine ⟨m.code.toList ++ (digits ++ encode m.padded), ?_, ?_, ?_, ?_, ?_⟩
  · rw [qb64, if_neg hnot, if_neg haligned, hgroups, hdigits]
    rfl
  · rw [← append_assoc, length_append, hheader, hencoded]
  · rw [← hlength, take_left]
  · intro c hc
    rcases mem_append.1 hc with hmem | hmem
    · exact halpha c hmem
    · rcases mem_append.1 hmem with hmem | hmem
      · exact hdigitsAlpha c hmem
      · exact index?_of_mem_encode _ c hmem
  · rw [← append_assoc]
    have htotal : (m.code.toList ++ digits ++ encode m.padded).length =
        m.sizage.hs + m.sizage.ss + m.groups * 4 := by
      rw [length_append, hheader, hencoded]
    have hsoft : ((m.code.toList ++ digits ++ encode m.padded).take (m.sizage.hs + m.sizage.ss)).drop
        m.sizage.hs = digits := by
      rw [← hheader, take_left, ← hlength, drop_left]
    have hdata : ((m.code.toList ++ digits ++ encode m.padded).take
        (m.sizage.hs + m.sizage.ss + m.groups * 4)).drop (m.sizage.hs + m.sizage.ss) = encode m.padded := by
      rw [take_of_length_le (Nat.le_of_eq htotal), ← hheader, drop_left]
    have hstrip : stripLead (encode m.padded) =
        .ok (m.padded.drop (countLeadingZeros m.padded 2)) := by
      simp only [stripLead, b64Decode, decode_encode, ok_bind]
    simp only [readText, if_neg hnot, htotal, hsoft, hcount, ok_bind, Nat.lt_irrefl, if_false, hdata, hstrip,
      if_neg (show ¬m.sizage.hs + m.sizage.ss + m.groups * 4 < m.sizage.hs + m.sizage.ss by omega)]

/-- The zero bytes the data starts with are the lead bytes when there are two of them, or when the raw
bytes do not start with a zero. -/
theorem drop_padded_eq_raw_iff (m : Matter) :
    m.padded.drop (countLeadingZeros m.padded 2) = m.raw ↔ m.raw.length % 3 = 1 ∨ m.raw.head? ≠ some 0 := by
  obtain ⟨code, raw, sizage⟩ := m
  simp only [padded, computeLead]
  have hmod : raw.length % 3 = 0 ∨ raw.length % 3 = 1 ∨ raw.length % 3 = 2 := by omega
  rcases hmod with hmod | hmod | hmod
  · have hlead : leadBytes raw.length = 0 := by rw [leadBytes, hmod]
    rw [hlead, replicate_zero, nil_append]
    cases raw with
    | nil => simp
    | cons b rest =>
      by_cases hb : b = 0
      · subst hb
        have hpos : 0 < countLeadingZeros (0 :: rest) 2 := by simp [countLeadingZeros]
        refine iff_of_false (fun hdrop => ?_) (by rw [hmod]; simp)
        have hlength := congrArg List.length hdrop
        rw [length_drop, length_cons] at hlength
        omega
      · simp [countLeadingZeros, hb]
  · have hlead : leadBytes raw.length = 2 := by rw [leadBytes, hmod]
    rw [hlead]
    simp [countLeadingZeros, replicate_succ, hmod]
  · have hlead : leadBytes raw.length = 1 := by rw [leadBytes, hmod]
    rw [hlead]
    cases raw with
    | nil => cases hmod
    | cons b rest =>
      by_cases hb : b = 0
      · subst hb
        refine iff_of_false (fun hdrop => ?_) (by rw [hmod]; simp)
        have hlength := congrArg List.length hdrop
        simp [countLeadingZeros, replicate_succ] at hlength
      · simp [countLeadingZeros, replicate_succ, hb]

/-! ## The round trip -/

/-- What a primitive keeps through both domains: itself, and its stated size. -/
def RoundTrips (m : Matter) : Prop :=
  ∃ text binary, m.qb64 = .ok text ∧ m.qb2 = .ok binary ∧ fromQb64 text = .ok m ∧ fromQb2 binary = .ok m ∧
    m.fullSize = text.length

theorem new_eq_ok {raw : Bytes} (h : new code raw = .ok m) :
    m.code = code ∧ m.raw = raw ∧ matterSizage m.code = some m.sizage ∧
      (m.sizage.fs > 0 → m.raw.length = rawSizeFromSizage m.sizage) := by
  unfold new at h
  split at h
  · cases h
  · rename_i sizage hsizage
    split_ifs at h with hsize
    cases h
    refine ⟨rfl, rfl, hsizage, fun hfixed => ?_⟩
    by_contra hne
    exact hsize ⟨hfixed, hne⟩

theorem roundTrips_iff_readText (hsizage : matterSizage m.code = some m.sizage) (htext : m.qb64 = .ok text)
    (hcode : text.take m.sizage.hs = m.code.toList) (halpha : Alphabetic text) (haligned : text.length % 4 = 0) :
    m.RoundTrips ↔ readText text m.sizage.hs m.code m.sizage = .ok m ∧ m.fullSize = text.length := by
  obtain ⟨binary, hdecode⟩ := exists_decode text haligned halpha
  have hencode := encode_decode hdecode
  have hlength := length_of_decode hdecode haligned
  have hqb2 : m.qb2 = .ok binary := by
    simp only [qb2, htext, ok_bind, qb64ToQb2, haligned, b64Decode, hdecode]
    rfl
  have htextDomain := fromQb64_eq halpha hsizage hcode
  have hbinaryDomain : fromQb2 binary = readText text m.sizage.hs m.code m.sizage := by
    rw [← hencode] at hcode
    rw [fromQb2_eq (by omega) hsizage hcode, hencode]
  constructor
  · rintro ⟨text', binary', htext', -, hfrom, -, hsize⟩
    cases htext.symm.trans htext'
    exact ⟨htextDomain.symm.trans hfrom, hsize⟩
  · rintro ⟨hread, hsize⟩
    exact ⟨text, binary, htext, hqb2, htextDomain.trans hread, hbinaryDomain.trans hread, hsize⟩

/-- A primitive whose group count fits its code round trips if and only if its code has a fixed length,
or its lead bytes are two, or its raw bytes do not start with a zero. -/
theorem roundTrips_iff {raw : Bytes} (hnew : new code raw = .ok m)
    (hfits : m.sizage.fs = 0 → m.groups < 64 ^ m.sizage.ss) :
    m.RoundTrips ↔
      (∃ sizage, matterSizage code = some sizage ∧ sizage.fs > 0) ∨ raw.length % 3 = 1 ∨ raw.head? ≠ some 0 := by
  obtain ⟨rfl, rfl, hsizage, hraw⟩ := new_eq_ok hnew
  obtain ⟨-, -, -, hsizes⟩ := entryOk_of_matterSizage hsizage
  dsimp only at hsizes
  by_cases hfixed : m.sizage.fs > 0
  · obtain ⟨text, front, htext, hlength, hcode, halpha, hdecode, hfront, hne⟩ :=
      qb64_fixed hsizage hfixed (hraw hfixed)
    rw [roundTrips_iff_readText hsizage htext hcode halpha (by omega)]
    refine iff_of_true ⟨readText_fixed hfixed hlength hdecode hfront hne, ?_⟩ (.inl ⟨_, hsizage, hfixed⟩)
    rw [fullSize, if_pos hfixed, hlength]
  · have hvariable : m.sizage.fs = 0 := Nat.eq_zero_of_not_pos hfixed
    obtain ⟨text, htext, hlength, hcode, halpha, hread⟩ := qb64_variable hsizage hvariable (hfits hvariable)
    have hsize : m.fullSize = text.length := by
      rw [fullSize, if_neg hfixed, hlength, groups]
    have hnot : ¬∃ sizage, matterSizage m.code = some sizage ∧ sizage.fs > 0 := by
      rintro ⟨sizage, hfound, hpos⟩
      cases hsizage.symm.trans hfound
      exact hfixed hpos
    rw [roundTrips_iff_readText hsizage htext hcode halpha (by omega), hread, or_iff_right hnot,
      ← drop_padded_eq_raw_iff m]
    constructor
    · rintro ⟨hequal, -⟩
      exact congrArg Matter.raw (Except.ok.inj hequal)
    · intro hdrop
      rw [hdrop]
      exact ⟨rfl, hsize⟩

theorem roundTrips_nonzero_first : (⟨"4B", [1, 0, 2], ⟨2, 2, 0, 0⟩⟩ : Matter).RoundTrips :=
  (roundTrips_iff (show new "4B" [1, 0, 2] = .ok _ by decide +kernel) (fun _ => by decide)).2
    (.inr (.inr (by decide)))

/-- Three bytes of which the first is a zero need no lead byte, and come back as two. -/
theorem not_roundTrips_zero_first :
    new "4B" [0, 1, 2] = .ok ⟨"4B", [0, 1, 2], ⟨2, 2, 0, 0⟩⟩ ∧
      (⟨"4B", [0, 1, 2], ⟨2, 2, 0, 0⟩⟩ : Matter).groups < 64 ^ 2 ∧
      fromQb64 "4BABAAEC".toList = .ok ⟨"4B", [1, 2], ⟨2, 2, 0, 0⟩⟩ ∧
      ¬(⟨"4B", [0, 1, 2], ⟨2, 2, 0, 0⟩⟩ : Matter).RoundTrips := by
  have hread : fromQb64 "4BABAAEC".toList = .ok ⟨"4B", [1, 2], ⟨2, 2, 0, 0⟩⟩ := by decide +kernel
  refine ⟨by decide +kernel, by decide, hread, ?_⟩
  rintro ⟨text, binary, htext, -, hfrom, -⟩
  have hqb64 : (⟨"4B", [0, 1, 2], ⟨2, 2, 0, 0⟩⟩ : Matter).qb64 = .ok "4BABAAEC".toList := by decide +kernel
  cases hqb64.symm.trans htext
  have hsame := Except.ok.inj (hread.symm.trans hfrom)
  exact absurd (congrArg Matter.raw hsame) (by decide)

end Matter

end AffinidiTdk.Cesr
