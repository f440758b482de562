/-
Indexed signatures (`indexer.rs`): a code with an index into the current keys, sometimes another
into the prior ones, and the raw signature. Parsing takes the hard size of a code from `hardage`,
which gives four characters to the codes that start with 2 and 3, and these have two.
-/
import AffinidiTdk.Cesr.RoundTrip

namespace AffinidiTdk.Cesr

open Base64 Fallible List Option

def indexerTable : List (String × Sizage) :=
  [("A", ⟨1, 1, 88, 0⟩), ("B", ⟨1, 1, 88, 0⟩), ("C", ⟨1, 1, 88, 0⟩), ("D", ⟨1, 1, 88, 0⟩), ("E", ⟨1, 1, 88, 0⟩),
   ("F", ⟨1, 1, 88, 0⟩), ("2A", ⟨2, 4, 92, 0⟩), ("2B", ⟨2, 4, 92, 0⟩), ("2C", ⟨2, 4, 92, 0⟩), ("2D", ⟨2, 4, 92, 0⟩),
   ("2E", ⟨2, 4, 92, 0⟩), ("2F", ⟨2, 4, 92, 0⟩), ("3A", ⟨2, 4, 156, 0⟩), ("3B", ⟨2, 4, 156, 0⟩)]

def indexerSizage (code : String) : Option Sizage := indexerTable.lookup code

/-- An indexed signature: code, index, optional other index and raw bytes. -/
structure Indexer where
  code : String
  index : ℕ
  ondex : Option ℕ
  raw : Bytes
  deriving DecidableEq

namespace Indexer

/-! ## The code -/

def isCurrentOnly (code : String) : Bool := code ∈ ["A", "C", "E", "2A", "2C", "2E", "3A"]

def rawSizeFromCode (code : String) : Except CesrError ℕ :=
  if code ∈ ["A", "B", "C", "D", "E", "F"] then .ok 64
  else if code ∈ ["2A", "2B", "2C", "2D", "2E", "2F"] then .ok 64
  else if code ∈ ["3A", "3B"] then .ok 114
  else .error (.unknownCode code)

def new (code : String) (index : ℕ) (ondex : Option ℕ) (raw : Bytes) : Except CesrError Indexer :=
  match indexerSizage code with
  | none => .error (.unknownCode code)
  | some _ => do
    let expectedRaw ← rawSizeFromCode code
    if raw.length ≠ expectedRaw then .error (.invalidRawSize expectedRaw raw.length)
    else .ok ⟨code, index, if isCurrentOnly code then none else ondex, raw⟩

def extractRaw (qb64 : Text) (sizage : Sizage) : Except CesrError Bytes := do
  let allBytes ← b64Decode (qb64.take sizage.fs)
  let rawSize ← rawSizeFromCode (String.ofList (qb64.take sizage.hs))
  if allBytes.length < rawSize then .error (.invalidRawSize rawSize allBytes.length)
  else .ok (allBytes.drop (allBytes.length - rawSize))

def fromQb64Big (code : String) (sizage : Sizage) (qb64 : Text) (index ondex : ℕ) : Except CesrError Indexer := do
  let raw ← extractRaw qb64 sizage
  .ok ⟨code, index, some ondex, raw⟩

/-- The indexer of a known code at the start of a text. -/
def readText (qb64 : Text) (hs : ℕ) (code : String) (sizage : Sizage) : Except CesrError Indexer :=
  if qb64.length < sizage.fs then .error .unexpectedEnd
  else do
    let ss := sizage.ss
    let index ← b64ToCount ((qb64.take (hs + ss)).drop hs)
    if sizage.hs ≥ 2 ∧ ¬isCurrentOnly code then
      let half := ss / 2
      let indexVal ← b64ToCount ((qb64.take (hs + half)).drop hs)
      let ondexVal ← b64ToCount ((qb64.take (hs + ss)).drop (hs + half))
      fromQb64Big code sizage qb64 indexVal ondexVal
    else
      let raw ← extractRaw qb64 sizage
      .ok ⟨code, index, if ¬isCurrentOnly code then some index else none, raw⟩

def fromQb64 (qb64 : Text) : Except CesrError Indexer :=
  match qb64.head? with
  | none => .error .emptyInput
  | some firstChar => do
    ensureAscii qb64
    match hardage firstChar with
    | none => .error (.unknownCode (String.singleton firstChar))
    | some hs =>
      if qb64.length < hs then .error .unexpectedEnd
      else
        let code := String.ofList (qb64.take hs)
        match indexerSizage code with
        | none => .error (.unknownCode code)
        | some sizage => readText qb64 hs code sizage

/-- The soft part: the index, and for a big code the ondex in its second half. -/
def indexB64 (i : Indexer) (sizage : Sizage) : Except CesrError Text :=
  if sizage.hs ≥ 2 ∧ i.ondex.isSome then do
    let half := sizage.ss / 2
    let idxStr ← countToB64 i.index half
    let ondexStr ← countToB64 (i.ondex.getD i.index) half
    .ok (idxStr ++ ondexStr)
  else countToB64 i.index sizage.ss

def qb64 (i : Indexer) : Except CesrError Text :=
  match indexerSizage i.code with
  | none => .error (.unknownCode i.code)
  | some sizage => do
    let indexB64 ← i.indexB64 sizage
    let encoded := Base64.encode (List.replicate (leadBytes i.raw.length) 0 ++ i.raw)
    let rawChars := sizage.fs - sizage.hs - sizage.ss
    if encoded.length < rawChars then .error (.invalidRawSize rawChars encoded.length)
    else .ok (i.code.toList ++ (indexB64 ++ encoded.drop (encoded.length - rawChars)))

/-! ## The table -/

def smallCodes : List String := ["A", "B", "C", "D", "E", "F"]

/-- A code of one character, with one for the index. -/
def Small (code : String) : Prop :=
  code ∈ smallCodes ∧ (code.toList.head?.bind hardage) = some 1 ∧ code.toList.length = 1 ∧
    (code.toList.all fun c => (Base64.index? c).isSome) ∧ indexerSizage code = some ⟨1, 1, 88, 0⟩ ∧
    rawSizeFromCode code = .ok 64

/-- A code of two characters, with four for the index and the ondex, that is parsed as one of four. -/
def Big (code : String) : Prop :=
  code ∉ smallCodes ∧ (code.toList.head?.bind hardage) = some 4 ∧ code.toList.length = 2 ∧
    ∃ fs rawSize, indexerSizage code = some ⟨2, 4, fs, 0⟩ ∧ rawSizeFromCode code = .ok rawSize ∧
      fs - 6 ≤ (leadBytes rawSize + rawSize) / 3 * 4

variable {code : String} {sizage : Sizage}

section

variable (h : indexerSizage code = some sizage)
include h

theorem mem_of_indexerSizage : (code, sizage) ∈ indexerTable := by
  obtain ⟨before, after, htable, -⟩ := lookup_eq_some_iff.1 h
  rw [htable]
  exact mem_append_right _ mem_cons_self

theorem length_le_of_indexerSizage : code.toList.length ≤ 2 := by
  have hall : ∀ entry ∈ indexerTable, entry.1.toList.length ≤ 2 := by decide
  exact hall _ (mem_of_indexerSizage h)

theorem small_or_big : Small code ∨ Big code := by
  have hmem := mem_of_indexerSizage h
  simp only [indexerTable, mem_cons, not_mem_nil, or_false, Prod.mk.injEq] at hmem
  rcases hmem with ⟨rfl, -⟩ | ⟨rfl, -⟩ | ⟨rfl, -⟩ | ⟨rfl, -⟩ | ⟨rfl, -⟩ | ⟨rfl, -⟩ | ⟨rfl, -⟩ | ⟨rfl, -⟩ | ⟨rfl, -⟩ |
    ⟨rfl, -⟩ | ⟨rfl, -⟩ | ⟨rfl, -⟩ | ⟨rfl, -⟩ | ⟨rfl, -⟩
  iterate 6 exact .inl ⟨by decide, by decide, by decide, by decide, by decide, by decide⟩
  iterate 6 exact .inr ⟨by decide, by decide, by decide, 92, 64, by decide, by decide, by decide⟩
  iterate 2 exact .inr ⟨by decide, by decide, by decide, 156, 114, by decide, by decide, by decide⟩

end

/-! ## The text of an indexer -/

variable {i : Indexer} {code : String} {sizage : Sizage} {text : Text}

/-- The index and the ondex have their place in the soft part of the code. -/
def Fits (i : Indexer) : Prop :=
  ∀ sizage, indexerSizage i.code = some sizage →
    let width := if sizage.hs ≥ 2 ∧ i.ondex.isSome then sizage.ss / 2 else sizage.ss
    i.index < 64 ^ width ∧ ∀ ondex, i.ondex = some ondex → ondex < 64 ^ width

theorem new_eq_ok {index : ℕ} {ondex : Option ℕ} {raw : Bytes} (h : new code index ondex raw = .ok i) :
    i.code = code ∧ i.index = index ∧ i.ondex = (if isCurrentOnly code then none else ondex) ∧
      (∃ sizage, indexerSizage i.code = some sizage) ∧ rawSizeFromCode i.code = .ok i.raw.length := by
  unfold new at h
  split at h
  · cases h
  · rename_i sizage hsizage
    obtain ⟨expectedRaw, hexpected, h⟩ := bind_eq_ok_iff.1 h
    by_cases hraw : raw.length = expectedRaw
    · rw [if_neg (not_not_intro hraw)] at h
      cases h
      exact ⟨rfl, rfl, rfl, ⟨sizage, hsizage⟩, hexpected.trans (congrArg Except.ok hraw.symm)⟩
    · rw [if_pos hraw] at h
      cases h

theorem fromQb64_eq {hs : ℕ} (hascii : ensureAscii text = .ok ()) (hhard : text.head?.bind hardage = some hs)
    (hlong : hs ≤ text.length) (hsizage : indexerSizage (String.ofList (text.take hs)) = some sizage) :
    fromQb64 text = readText text hs (String.ofList (text.take hs)) sizage := by
  obtain ⟨first, hfirst, hhs⟩ := bind_eq_some_iff.1 hhard
  simp only [fromQb64, hfirst, hascii, ok_bind, hhs, if_neg (Nat.not_lt.2 hlong), hsizage]

theorem fromQb64_ne_ok {hs : ℕ} (hhard : text.head?.bind hardage = some hs)
    (hnone : indexerSizage (String.ofList (text.take hs)) = none) : fromQb64 text ≠ .ok i := by
  obtain ⟨first, hfirst, hhs⟩ := bind_eq_some_iff.1 hhard
  intro h
  simp only [fromQb64, hfirst] at h
  obtain ⟨-, -, h⟩ := bind_eq_ok_iff.1 h
  simp only [hhs, hnone] at h
  split_ifs at h

theorem countToB64_one {index : ℕ} (h : index < 64) :
    ∃ c, countToB64 index 1 = .ok [c] ∧ (index? c).isSome ∧ b64ToCount [c] = .ok index := by
  obtain ⟨digits, hdigits, hlength, halpha, hcount⟩ := countToB64_eq (show index < 64 ^ 1 from h)
  obtain ⟨c, rfl⟩ := length_eq_one_iff.1 hlength
  exact ⟨c, hdigits, halpha c mem_cons_self, hcount⟩

theorem qb64_small (hsmall : Small i.code) (hindex : i.index < 64) (hraw : i.raw.length = 64) :
    ∃ c, i.qb64 = .ok (i.code.toList ++ (c :: (encode (0 :: 0 :: i.raw)).drop 2)) ∧
      (index? c).isSome ∧ b64ToCount [c] = .ok i.index := by
  obtain ⟨-, -, -, -, hsizage, -⟩ := hsmall
  obtain ⟨c, hc, halpha, hcount⟩ := countToB64_one hindex
  refine ⟨c, ?_, halpha, hcount⟩
  have hlead : leadBytes i.raw.length = 2 := by rw [hraw]; rfl
  have hpadded : (0 :: 0 :: i.raw).length = 66 := by rw [length_cons, length_cons, hraw]
  have hlength : (encode (0 :: 0 :: i.raw)).length = 88 := by
    rw [length_encode _ (by rw [hpadded]), hpadded]
  have hsoft : i.indexB64 ⟨1, 1, 88, 0⟩ = .ok [c] := by
    rw [indexB64, if_neg (fun h => absurd h.1 (by decide)), hc]
  rw [qb64, hsizage, hlead]
  show (i.indexB64 ⟨1, 1, 88, 0⟩ >>= fun soft => if (encode (0 :: 0 :: i.raw)).length < 86 then _
    else Except.ok (i.code.toList ++ (soft ++ (encode (0 :: 0 :: i.raw)).drop
      ((encode (0 :: 0 :: i.raw)).length - 86)))) = _
  rw [hsoft, hlength, ok_bind, if_neg (by decide)]
  rfl

theorem fromQb64_small {c : Char} (hsmall : Small i.code) (hraw : i.raw.length = 64)
    (halpha : (index? c).isSome) (hcount : b64ToCount [c] = .ok i.index) :
    fromQb64 (i.code.toList ++ (c :: (encode (0 :: 0 :: i.raw)).drop 2)) =
      .ok ⟨i.code, i.index, if ¬isCurrentOnly i.code then some i.index else none, i.raw⟩ := by
  obtain ⟨-, hhard, hone, hcode, hsizage, hsize⟩ := hsmall
  obtain ⟨code, index, ondex, raw⟩ := i
  dsimp only at *
  obtain ⟨first, hfirst⟩ := length_eq_one_iff.1 hone
  have hofList : String.ofList [first] = code := by rw [← hfirst, String.ofList_toList]
  rw [hfirst] at hhard hcode ⊢
  obtain ⟨d, rest, rfl⟩ := exists_cons_of_length_eq_add_one hraw
  have hfirstAlpha : (index? first).isSome := by simpa using hcode
  obtain ⟨a, b, hdecode⟩ := decode_cons_drop_two hfirstAlpha halpha d rest
  have hpadded : (0 :: 0 :: d :: rest).length = 66 := by rw [length_cons, length_cons, hraw]
  have hlength : (encode (0 :: 0 :: d :: rest)).length = 88 := by
    rw [length_encode _ (by rw [hpadded]), hpadded]
  have htail := index?_of_mem_encode (0 :: 0 :: d :: rest)
  generalize encode (0 :: 0 :: d :: rest) = encoded at *
  have hascii : ensureAscii (first :: c :: encoded.drop 2) = .ok () := by
    refine ensureAscii_eq_ok fun ch hch => ?_
    rcases mem_cons.1 hch with rfl | hch
    · exact hfirstAlpha
    · rcases mem_cons.1 hch with rfl | hch
      · exact halpha
      · exact htail ch (mem_of_mem_drop hch)
  have htext : (first :: c :: encoded.drop 2).length = 88 := by
    rw [length_cons, length_cons, length_drop, hlength]
  have hextract : extractRaw (first :: c :: encoded.drop 2) ⟨1, 1, 88, 0⟩ = .ok (d :: rest) := by
    have hall : (a :: b :: d :: rest).length = 66 := hpadded
    unfold extractRaw
    rw [take_of_length_le (Nat.le_of_eq htext), b64Decode, hdecode]
    show (rawSizeFromCode (String.ofList [first]) >>= _) = _
    rw [hofList, hsize, ok_bind, hall, if_neg (by decide)]
    rfl
  have hknown := fromQb64_eq hascii hhard (show 1 ≤ (first :: c :: encoded.drop 2).length from Nat.le_add_left _ _)
    ((congrArg indexerSizage hofList).trans hsizage)
  refine hknown.trans ?_
  show readText (first :: c :: encoded.drop 2) 1 (String.ofList [first]) ⟨1, 1, 88, 0⟩ = _
  rw [hofList, readText, htext, if_neg (by decide)]
  show (b64ToCount [c] >>= fun index => _) = _
  rw [hcount, ok_bind, if_neg (fun h => absurd h.1 (by decide)), hextract, ok_bind]

theorem qb64_big (hbig : Big i.code) (hfits : i.Fits) (hraw : rawSizeFromCode i.code = .ok i.raw.length) :
    ∃ soft rest, i.qb64 = .ok (i.code.toList ++ (soft ++ rest)) ∧ soft.length = 4 := by
  obtain ⟨-, -, -, fs, rawSize, hsizage, hsize, hlong⟩ := hbig
  obtain rfl : i.raw.length = rawSize := Except.ok.inj (hraw.symm.trans hsize)
  obtain ⟨hindex, hondex⟩ := hfits _ hsizage
  obtain ⟨soft, hsoft, hlength⟩ : ∃ soft, i.indexB64 ⟨2, 4, fs, 0⟩ = .ok soft ∧ soft.length = 4 := by
    by_cases hboth : (⟨2, 4, fs, 0⟩ : Sizage).hs ≥ 2 ∧ i.ondex.isSome
    · rw [if_pos hboth] at hindex hondex
      obtain ⟨ondex, hsome⟩ := isSome_iff_exists.1 hboth.2
      obtain ⟨first, hfirst, hfirstLength, -⟩ := countToB64_eq hindex
      obtain ⟨second, hsecond, hsecondLength, -⟩ := countToB64_eq (hondex ondex hsome)
      refine ⟨first ++ second, ?_, ?_⟩
      · rw [indexB64, if_pos hboth]
        simp only [hfirst, hsome, getD_some, hsecond, ok_bind]
      · have hwidth : (⟨2, 4, fs, 0⟩ : Sizage).ss / 2 = 2 := show 4 / 2 = 2 from rfl
        rw [length_append, hfirstLength, hsecondLength, hwidth]
    · rw [if_neg hboth] at hindex
      obtain ⟨soft, hsoft, hlength, -⟩ := countToB64_eq hindex
      exact ⟨soft, by rw [indexB64, if_neg hboth, hsoft], hlength⟩
  have hpadded : (List.replicate (leadBytes i.raw.length) 0 ++ i.raw).length =
    leadBytes i.raw.length + i.raw.length := by
    rw [length_append, length_replicate]
  have haligned : (List.replicate (leadBytes i.raw.length) 0 ++ i.raw).length % 3 = 0 := by
    rw [hpadded, leadBytes]
    omega
  have hencoded := length_encode _ haligned
  rw [hpadded] at hencoded
  have hnot : ¬(encode (List.replicate (leadBytes i.raw.length) 0 ++ i.raw)).length < fs - 2 - 4 := by
    rw [hencoded]
    omega
  refine ⟨soft, (encode (List.replicate (leadBytes i.raw.length) 0 ++ i.raw)).drop
    ((encode (List.replicate (leadBytes i.raw.length) 0 ++ i.raw)).length - (fs - 2 - 4)), ?_, hlength⟩
  simp only [qb64, hsizage, hsoft, ok_bind, if_neg hnot]

theorem fromQb64_big {soft rest : Text} {found : Indexer} (hbig : Big code) (hsoft : soft.length = 4) :
    fromQb64 (code.toList ++ (soft ++ rest)) ≠ .ok found := by
  obtain ⟨-, hhard, htwo, -⟩ := hbig
  have hne : code.toList ≠ [] := ne_nil_of_length_eq_add_one htwo
  have hhead : (code.toList ++ (soft ++ rest)).head?.bind hardage = some 4 := by
    rwa [head?_append_of_ne_nil _ hne]
  refine fromQb64_ne_ok hhead ?_
  · rw [eq_none_iff_forall_ne_some]
    intro sizage h
    have hle := length_le_of_indexerSizage h
    rw [String.toList_ofList, length_take, length_append, length_append, htwo, hsoft] at hle
    omega

/-! ## The round trip -/

def RoundTrips (i : Indexer) : Prop := ∃ text, i.qb64 = .ok text ∧ fromQb64 text = .ok i

/-- An indexer whose index and ondex fit its code comes back if and only if its code is a small one and
has no ondex, or an ondex equal to the index. -/
theorem new_roundTrips_iff {index : ℕ} {ondex : Option ℕ} {raw : Bytes} (hnew : new code index ondex raw = .ok i)
    (hfits : i.Fits) :
    i.RoundTrips ↔ code ∈ smallCodes ∧ (isCurrentOnly code = true ∨ ondex = some index) := by
  obtain ⟨rfl, rfl, hondex, ⟨sizage, hsizage⟩, hsize⟩ := new_eq_ok hnew
  rcases small_or_big hsizage with hsmall | hbig
  · have hraw : i.raw.length = 64 := Except.ok.inj (hsize.symm.trans hsmall.2.2.2.2.2)
    obtain ⟨hindex, -⟩ := hfits _ hsmall.2.2.2.2.1
    have hone : ¬((⟨1, 1, 88, 0⟩ : Sizage).hs ≥ 2 ∧ i.ondex.isSome = true) := fun h => absurd h.1 (by decide)
    rw [if_neg hone] at hindex
    obtain ⟨c, htext, halpha, hcount⟩ := qb64_small hsmall hindex hraw
    have hread := fromQb64_small hsmall hraw halpha hcount
    have hback : i.RoundTrips ↔ (if ¬isCurrentOnly i.code then some i.index else none) = i.ondex := by
      constructor
      · rintro ⟨text, hqb64, hfrom⟩
        cases htext.symm.trans hqb64
        exact congrArg Indexer.ondex (Except.ok.inj (hread.symm.trans hfrom))
      · intro hsame
        rw [hsame] at hread
        exact ⟨_, htext, hread⟩
    rw [hback, hondex, and_iff_right hsmall.1]
    by_cases honly : isCurrentOnly i.code = true
    · simp [honly]
    · simp [honly, eq_comm]
  · obtain ⟨soft, rest, htext, hsoft⟩ := qb64_big hbig hfits hsize
    refine iff_of_false ?_ fun h => hbig.1 h.1
    rintro ⟨text, hqb64, hfrom⟩
    cases htext.symm.trans hqb64
    exact fromQb64_big hbig hsoft hfrom

theorem roundTrips_both :
    (⟨"B", 5, some 5, List.replicate 64 7⟩ : Indexer).RoundTrips ↔
      "B" ∈ smallCodes ∧ (isCurrentOnly "B" = true ∨ some 5 = some 5) := by
  refine new_roundTrips_iff (show new "B" 5 (some 5) (List.replicate 64 7) = .ok _ by decide +kernel) ?_
  intro sizage hsizage
  cases (show indexerSizage "B" = some ⟨1, 1, 88, 0⟩ by decide).symm.trans hsizage
  exact ⟨by decide, fun ondex h => by cases h; decide⟩

/-- The test's own example: a signature by key 1, with the prior key 2, comes back with the prior key 1. -/
theorem not_roundTrips_ondex :
    ¬∀ (code : String) (index : ℕ) (ondex : Option ℕ) (raw : Bytes) (i : Indexer),
      new code index ondex raw = .ok i → i.Fits → i.RoundTrips := by
  intro hall
  have hnew : new "B" 1 (some 2) (List.replicate 64 0x77) = .ok ⟨"B", 1, some 2, List.replicate 64 0x77⟩ := by
    decide +kernel
  have hfits : (⟨"B", 1, some 2, List.replicate 64 0x77⟩ : Indexer).Fits := by
    intro sizage hsizage
    cases (show indexerSizage "B" = some ⟨1, 1, 88, 0⟩ by decide).symm.trans hsizage
    exact ⟨by decide, fun ondex h => by cases h; decide⟩
  obtain ⟨text, hqb64, hfrom⟩ := hall _ _ _ _ _ hnew hfits
  have hread : (Indexer.qb64 ⟨"B", 1, some 2, List.replicate 64 0x77⟩ >>= fromQb64) =
      .ok ⟨"B", 1, some 1, List.replicate 64 0x77⟩ := by decide +kernel
  rw [hqb64, ok_bind, hfrom] at hread
  exact absurd (congrArg Indexer.ondex (Except.ok.inj hread)) (by decide)

end Indexer

end AffinidiTdk.Cesr
