/-
Is a CESR text the only one of its primitive? The data of a variable-length code is all kept, so what
is parsed is encoded as it was written. A fixed-length code of one or two characters leaves bits of
the next character to neither the code nor the raw bytes: parsing drops them, encoding writes zeros.
-/
import AffinidiTdk.Cesr.RoundTrip
import AffinidiTdk.Lib.Slice
import Mathlib.Data.List.Induction
import Mathlib.Data.List.TakeWhile

namespace AffinidiTdk.Cesr

open Base64 Fallible List Option

/-! ## Counts -/

theorem b64CharToIndex_eq_ok {c : Char} {n : ℕ} (h : b64CharToIndex c = .ok n) : n < 64 ∧ char n = c := by
  unfold b64CharToIndex at h
  cases hindex : index? c with
  | none =>
    rw [hindex] at h
    cases h
  | some k =>
    rw [hindex] at h
    cases h
    exact index?_eq_some hindex

theorem countDigits_of_b64ToCount {digits : Text} {count : ℕ} (h : b64ToCount digits = .ok count) :
    countDigits digits.length count = .ok (digits, 0) := by
  induction digits using List.reverseRecOn generalizing count with
  | nil =>
    cases h
    rfl
  | append_singleton digits c ih =>
    rw [b64ToCount, foldlM_append] at h
    obtain ⟨front, hfront, h⟩ := bind_eq_ok_iff.1 h
    obtain ⟨total, htotal, h⟩ := bind_eq_ok_iff.1 h
    obtain ⟨n, hn, htotal⟩ := bind_eq_ok_iff.1 htotal
    cases htotal
    obtain rfl : front * 64 + n = count := Except.ok.inj h
    obtain ⟨hlt, rfl⟩ := b64CharToIndex_eq_ok hn
    have hmod : (front * 64 + n) % 64 = n := by omega
    have hdiv : (front * 64 + n) / 64 = front := by omega
    have hchar : indexToB64Char n = .ok (char n) := by rw [indexToB64Char, if_neg (Nat.not_le.2 hlt)]
    rw [length_append, length_singleton]
    simp only [countDigits, hmod, hdiv, hchar, ok_bind, ih hfront]

theorem countToB64_of_b64ToCount {digits : Text} {count : ℕ} (h : b64ToCount digits = .ok count) :
    countToB64 count digits.length = .ok digits := by
  simp only [countToB64, countDigits_of_b64ToCount h, ok_bind, Nat.lt_irrefl, if_false]

namespace Matter

variable {text : Text} {m : Matter} {hs : ℕ} {code : String} {sizage : Sizage}

/-! ## What parsing accepts -/

theorem fromQb64_eq_ok (h : fromQb64 text = .ok m) :
    ∃ hs code sizage, text.head?.bind hardage = some hs ∧ hs ≤ text.length ∧ code = String.ofList (text.take hs) ∧
      matterSizage code = some sizage ∧ readText text hs code sizage = .ok m := by
  unfold fromQb64 at h
  split at h
  · cases h
  · rename_i first hfirst
    obtain ⟨-, -, h⟩ := bind_eq_ok_iff.1 h
    split at h
    · cases h
    · rename_i hs hhard
      split_ifs at h with hlong
      dsimp only at h
      split at h
      · cases h
      · rename_i sizage hsizage
        refine ⟨hs, _, sizage, ?_, Nat.not_lt.1 hlong, rfl, hsizage, h⟩
        rw [hfirst]
        exact hhard

theorem stripLead_eq_ok {data : Text} {raw : Bytes} (h : stripLead data = .ok raw) :
    ∃ allBytes, decode data = some allBytes ∧ raw = allBytes.drop (countLeadingZeros allBytes 2) := by
  obtain ⟨allBytes, hdecode, h⟩ := bind_eq_ok_iff.1 h
  refine ⟨allBytes, ?_, (Except.ok.inj h).symm⟩
  unfold b64Decode at hdecode
  split at hdecode
  · rename_i found hfound
    cases hdecode
    exact hfound
  · cases hdecode

theorem extractRaw_eq_ok {fs : ℕ} {raw : Bytes} (h : extractRaw text sizage fs = .ok raw) :
    ∃ allBytes, decode (text.take fs) = some allBytes ∧ raw = allBytes.drop (codeBytes sizage) := by
  obtain ⟨allBytes, hdecode, h⟩ := bind_eq_ok_iff.1 h
  dsimp only at h
  split_ifs at h
  refine ⟨allBytes, ?_, (Except.ok.inj h).symm⟩
  unfold b64Decode at hdecode
  split at hdecode
  · rename_i found hfound
    cases hdecode
    exact hfound
  · cases hdecode

/-! ## Variable-length codes -/

theorem replicate_append_strip {allBytes : Bytes} (h : allBytes.length % 3 = 0) :
    List.replicate (leadBytes (allBytes.drop (countLeadingZeros allBytes 2)).length) 0 ++
      allBytes.drop (countLeadingZeros allBytes 2) = allBytes := by
  have hprefix : (allBytes.take 2).takeWhile (· = 0) <+: allBytes :=
    ( takeWhile_prefix _).trans ( take_prefix 2 allBytes)
  have hcount : countLeadingZeros allBytes 2 ≤ 2 :=
    ( takeWhile_prefix _).length_le.trans (length_take_le 2 allBytes)
  have hle : countLeadingZeros allBytes 2 ≤ allBytes.length := hprefix.length_le
  have hzeros : allBytes.take (countLeadingZeros allBytes 2) = List.replicate (countLeadingZeros allBytes 2) 0 := by
    rw [countLeadingZeros, ← prefix_iff_eq_take.1 hprefix, eq_replicate_iff]
    refine ⟨rfl, fun b hb => ?_⟩
    have hzero := mem_takeWhile_imp hb
    exact of_decide_eq_true hzero
  have hlead : leadBytes (allBytes.drop (countLeadingZeros allBytes 2)).length = countLeadingZeros allBytes 2 := by
    rw [length_drop, leadBytes]
    omega
  rw [hlead, ← hzeros, take_append_drop]

theorem qb64_of_readText_variable (hsizage : matterSizage code = some sizage) (hvariable : sizage.fs = 0)
    (hcode : code = String.ofList (text.take sizage.hs)) (h : readText text sizage.hs code sizage = .ok m) :
    m.qb64 = .ok (text.take m.fullSize) := by
  obtain ⟨-, -, -, hsizes⟩ := entryOk_of_matterSizage hsizage
  dsimp only at hsizes
  have hnot : ¬sizage.fs > 0 := by omega
  unfold readText at h
  rw [if_neg hnot] at h
  by_cases hheader : text.length < sizage.hs + sizage.ss
  · rw [if_pos hheader] at h
    cases h
  rw [if_neg hheader] at h
  obtain ⟨count, hcount, h⟩ := bind_eq_ok_iff.1 h
  dsimp only at h
  by_cases hlong : text.length < sizage.hs + sizage.ss + count * 4
  · rw [if_pos hlong] at h
    cases h
  rw [if_neg hlong] at h
  obtain ⟨raw, hraw, h⟩ := bind_eq_ok_iff.1 h
  cases h
  obtain ⟨allBytes, hdecode, rfl⟩ := stripLead_eq_ok hraw
  have hdata : ((text.take (sizage.hs + sizage.ss + count * 4)).drop (sizage.hs + sizage.ss)).length =
    count * 4 := by
    rw [length_drop, length_take]
    omega
  have hbytes := length_of_decode hdecode (by omega)
  rw [hdata] at hbytes
  have hpadded := replicate_append_strip (show allBytes.length % 3 = 0 by omega)
  have hlength := congrArg List.length hpadded
  rw [length_append, length_replicate] at hlength
  have hencode := encode_decode hdecode
  have hdigits := countToB64_of_b64ToCount hcount
  have hsoft : ((text.take (sizage.hs + sizage.ss)).drop sizage.hs).length = sizage.ss := by
    rw [length_drop, length_take]
    omega
  rw [hsoft] at hdigits
  have hfull : fullSize ⟨code, allBytes.drop (countLeadingZeros allBytes 2), sizage⟩ =
      sizage.hs + sizage.ss + count * 4 := by
    rw [fullSize, if_neg hnot, computeLead]
    dsimp only
    omega
  rw [hfull, qb64, if_neg hnot, padded, computeLead, hpadded, hencode, hdata, if_neg (by omega),
    Nat.mul_div_cancel _ (by decide), hdigits, hcode, String.toList_ofList]
  refine congrArg Except.ok ?_
  rw [← append_assoc, Slice.take_append_drop_take text (Nat.le_add_right _ _),
    Slice.take_append_drop_take text (Nat.le_add_right _ _)]

/-! ## Fixed-length codes -/

/-- The bits of the character after a fixed-length code that are not of the raw bytes. -/
def padBits (hs : ℕ) : ℕ :=
  match hs with
  | 1 => 2
  | 2 => 4
  | _ => 0

/-- The pad bits behind a fixed-length code are zeros. -/
def PadBitsZero (text : Text) : Prop :=
  ∀ hs sizage n, text.head?.bind hardage = some hs → matterSizage (String.ofList (text.take hs)) = some sizage →
    sizage.fs > 0 → text[hs]?.bind Base64.index? = some n → n < 2 ^ (6 - padBits hs)

theorem codeBytes_eq (hhs : sizage.hs = 1 ∨ sizage.hs = 2 ∨ sizage.hs = 4) :
    codeBytes sizage = 1 ∧ sizage.hs = 1 ∨ codeBytes sizage = 2 ∧ sizage.hs = 2 ∨
      codeBytes sizage = 3 ∧ sizage.hs = 4 := by
  rw [codeBytes]
  rcases hhs with hhs | hhs | hhs <;> simp [hhs]

theorem encode_padded_drop {allBytes : Bytes} (hhs : sizage.hs = 1 ∨ sizage.hs = 2 ∨ sizage.hs = 4)
    (hlong : 4 < text.length) (haligned : text.length % 4 = 0) (hdecode : decode text = some allBytes)
    {encoded : Text}
    (hencoded : encode (List.replicate (leadBytes (allBytes.drop (codeBytes sizage)).length) 0 ++
    allBytes.drop (codeBytes sizage)) = encoded) : ∃ n, text[sizage.hs]?.bind index? = some n ∧
    text.length - sizage.hs ≤ encoded.length ∧ encoded.drop (encoded.length - (text.length - sizage.hs)) =
    char (n % 2 ^ (6 - padBits sizage.hs)) :: text.drop (sizage.hs + 1) := by
  have hbytes := length_of_decode hdecode haligned
  rcases text with _ | ⟨w, _ | ⟨x, _ | ⟨y, _ | ⟨z, _ | ⟨c, rest⟩⟩⟩⟩⟩
  iterate 5 exact absurd hlong (by simp)
  · -- by the bytes of the code: one, two or three
    rcases codeBytes_eq hhs with ⟨hcode, hhs⟩ | ⟨hcode, hhs⟩ | ⟨hcode, hhs⟩
    · obtain ⟨j, hj, hencode⟩ := encode_zero_drop_one hdecode
      have hlead : leadBytes (allBytes.drop 1).length = 1 := by
        rw [length_drop, leadBytes]
        omega
      rw [hcode, hlead] at hencoded
      obtain rfl := hencoded.symm.trans hencode
      refine ⟨j, by rw [hhs]; exact hj, ?_, ?_⟩
      · rw [hhs]
        simp only [length_cons]
        omega
      · rw [hhs]
        simp only [length_cons]
        rw [show rest.length + 1 + 1 + 1 + 1 + 1 - (rest.length + 1 + 1 + 1 + 1 + 1 - 1) = 1 by omega]
        rfl
    · obtain ⟨k, hk, hencode⟩ := encode_zero_drop_two hdecode
      have hlead : leadBytes (allBytes.drop 2).length = 2 := by
        rw [length_drop, leadBytes]
        omega
      rw [hcode, hlead] at hencoded
      obtain rfl := hencoded.symm.trans hencode
      refine ⟨k, by rw [hhs]; exact hk, ?_, ?_⟩
      · rw [hhs]
        simp only [length_cons]
        omega
      · rw [hhs]
        simp only [length_cons]
        rw [show rest.length + 1 + 1 + 1 + 1 + 1 - (rest.length + 1 + 1 + 1 + 1 + 1 - 2) = 2 by omega]
        rfl
    · obtain ⟨n, tail, -, -, hencode, rfl⟩ := decode_group_eq_some hdecode
      have hdrop : (bytes n ++ tail).drop 3 = tail := rfl
      have hlead : leadBytes tail.length = 0 := by
        rw [length_append, show (bytes n).length = 3 from rfl] at hbytes
        rw [leadBytes]
        omega
      rw [hcode, hdrop, hlead, replicate_zero, nil_append, hencode] at hencoded
      obtain rfl := hencoded
      have hmem := index?_of_mem_encode tail c (by rw [hencode]; exact mem_cons_self)
      obtain ⟨l, hl⟩ := isSome_iff_exists.1 hmem
      obtain ⟨hlt, hchar⟩ := index?_eq_some hl
      refine ⟨l, by rw [hhs]; exact hl, ?_, ?_⟩
      · rw [hhs]
        simp only [length_cons]
        omega
      · rw [hhs]
        simp only [length_cons]
        rw [show rest.length + 1 - (rest.length + 1 + 1 + 1 + 1 + 1 - 4) = 0 by omega]
        show c :: rest = char (l % 2 ^ 6) :: rest
        rw [Nat.mod_eq_of_lt (show l < 2 ^ 6 from hlt), hchar]

/-- What is read by a fixed-length code is encoded as the text that was read exactly when its pad bits
are zeros. -/
theorem qb64_of_readText_fixed_iff (hhard : text.head?.bind hardage = some sizage.hs)
    (hsizage : matterSizage code = some sizage) (hfixed : sizage.fs > 0)
    (hcode : code = String.ofList (text.take sizage.hs)) (h : readText text sizage.hs code sizage = .ok m) :
    m.qb64 = .ok (text.take m.fullSize) ↔ PadBitsZero text := by
  obtain ⟨hlength, -, -, hsizes⟩ := entryOk_of_matterSizage hsizage
  dsimp only at hlength hsizes
  have hhs : sizage.hs = 1 ∨ sizage.hs = 2 ∨ sizage.hs = 4 := by omega
  unfold readText at h
  rw [if_pos hfixed] at h
  by_cases hshort : text.length < sizage.fs
  · rw [if_pos hshort] at h
    cases h
  rw [if_neg hshort] at h
  obtain ⟨raw, hraw, h⟩ := bind_eq_ok_iff.1 h
  cases h
  obtain ⟨allBytes, hdecode, rfl⟩ := extractRaw_eq_ok hraw
  have hread : (text.take sizage.fs).length = sizage.fs := length_take_of_le (Nat.not_lt.1 hshort)
  obtain ⟨n, hn, hlong, hdrop⟩ := encode_padded_drop hhs (by omega) (by omega) hdecode rfl
  rw [hread] at hlong hdrop
  have hat : (text.take sizage.fs)[sizage.hs]? = text[sizage.hs]? := getElem?_take_of_lt (by omega)
  rw [hat] at hn
  obtain ⟨c, hc, hindex⟩ := bind_eq_some_iff.1 hn
  obtain ⟨hn64, hchar⟩ := index?_eq_some hindex
  have hfull : fullSize ⟨code, allBytes.drop (codeBytes sizage), sizage⟩ = sizage.fs := by
    rw [fullSize, if_pos hfixed]
  have hqb64 : qb64 ⟨code, allBytes.drop (codeBytes sizage), sizage⟩ =
      .ok (code.toList ++ char (n % 2 ^ (6 - padBits sizage.hs)) :: (text.take sizage.fs).drop
        (sizage.hs + 1)) := by
    rw [qb64, if_pos hfixed, padded, computeLead, if_neg (Nat.not_lt.2 hlong), hdrop]
  have hsplit : text.take sizage.fs =
      code.toList ++ char n :: (text.take sizage.fs).drop (sizage.hs + 1) := by
    have htake : (text.take sizage.fs).take sizage.hs = code.toList := by
      rw [take_take, Nat.min_eq_left (by omega), hcode, String.toList_ofList]
    have hnext := @List.drop_eq_getElem?_toList_append _ (text.take sizage.fs) sizage.hs
    rw [hat, hc] at hnext
    rw [← htake, hchar]
    exact (take_append_drop _ _).symm.trans (congrArg _ hnext)
  have hpos : 0 < 2 ^ (6 - padBits sizage.hs) := Nat.two_pow_pos _
  have hlt : n % 2 ^ (6 - padBits sizage.hs) < 64 := (Nat.mod_le _ _).trans_lt hn64
  generalize (text.take sizage.fs).drop (sizage.hs + 1) = tail at *
  rw [hfull, hqb64, Except.ok.injEq, hsplit, append_right_inj, List.cons.injEq, and_iff_left rfl,
    char_inj hlt hn64]
  constructor
  · intro hsame hs other k hhs' hother hpositive hk
    cases hhard.symm.trans hhs'
    cases hn.symm.trans hk
    rw [← hsame]
    exact Nat.mod_lt _ hpos
  · intro hzero
    exact Nat.mod_eq_of_lt (hzero _ sizage n hhard (by rw [← hcode]; exact hsizage) hfixed hn)

/-- Every accepted text is the text of what is read from it if and only if the pad bits of a
fixed-length code are zeros. -/
theorem qb64_fromQb64_iff (h : fromQb64 text = .ok m) : m.qb64 = .ok (text.take m.fullSize) ↔ PadBitsZero text := by
  obtain ⟨hs, code, sizage, hhard, hlong, hcode, hsizage, hread⟩ := fromQb64_eq_ok h
  obtain ⟨hlength, -, -, hsizes⟩ := entryOk_of_matterSizage hsizage
  dsimp only at hlength hsizes
  have hhs : sizage.hs = hs := by
    rw [← hlength, hcode, String.toList_ofList, length_take_of_le hlong]
  subst hhs
  by_cases hfixed : sizage.fs > 0
  · exact qb64_of_readText_fixed_iff hhard hsizage hfixed hcode hread
  · refine iff_of_true (qb64_of_readText_variable hsizage (Nat.eq_zero_of_not_pos hfixed) hcode hread) ?_
    intro hs other n hhs hother hpositive
    cases hhard.symm.trans hhs
    rw [← hcode] at hother
    cases hsizage.symm.trans hother
    exact absurd hpositive hfixed

theorem qb64_fromQb64_salt :
    (⟨"0A", List.replicate 16 9, ⟨2, 0, 24, 0⟩⟩ : Matter).qb64 = .ok ("0AAJCQkJCQkJCQkJCQkJCQkJ".toList.take 24) ↔
      PadBitsZero "0AAJCQkJCQkJCQkJCQkJCQkJ".toList :=
  qb64_fromQb64_iff (m := ⟨"0A", List.replicate 16 9, ⟨2, 0, 24, 0⟩⟩) (by decide +kernel)

/-- A salt whose first character behind the code has all six bits set is read, and encoded with two of them. -/
theorem fromQb64_not_canonical :
    ¬∀ (text : Text) (m : Matter), fromQb64 text = .ok m → m.qb64 = .ok (text.take m.fullSize) := by
  intro hall
  have hread : fromQb64 "0A_JCQkJCQkJCQkJCQkJCQkJ".toList =
    .ok ⟨"0A", 201 :: List.replicate 15 9, ⟨2, 0, 24, 0⟩⟩ := by
    decide +kernel
  have hsame := hall _ _ hread
  exact absurd hsame (by decide +kernel)

end Matter

end AffinidiTdk.Cesr
