/-
Counters (`counter.rs`): the code of a group of attached material and how many there are, as digits to the
base 64. Writing the digits and reading them back undo each other as far as the count fits a machine word,
which it always does behind a code of the table.
-/
import AffinidiTdk.Cesr.RoundTrip
import AffinidiTdk.Lib.Panics
import Mathlib.Data.List.Induction

namespace AffinidiTdk.Cesr

open Fallible List
open Panics

def counterTable : List (String × Sizage) :=
  [("-A", ⟨2, 2, 4, 0⟩), ("-0A", ⟨3, 5, 8, 0⟩), ("-B", ⟨2, 2, 4, 0⟩), ("-0B", ⟨3, 5, 8, 0⟩), ("-C", ⟨2, 2, 4, 0⟩),
   ("-0C", ⟨3, 5, 8, 0⟩), ("-D", ⟨2, 2, 4, 0⟩), ("-0D", ⟨3, 5, 8, 0⟩), ("-E", ⟨2, 2, 4, 0⟩), ("-0E", ⟨3, 5, 8, 0⟩),
   ("-F", ⟨2, 2, 4, 0⟩), ("-0F", ⟨3, 5, 8, 0⟩), ("-G", ⟨2, 2, 4, 0⟩), ("-0G", ⟨3, 5, 8, 0⟩), ("-H", ⟨2, 2, 4, 0⟩),
   ("-0H", ⟨3, 5, 8, 0⟩), ("-I", ⟨2, 2, 4, 0⟩), ("-0I", ⟨3, 5, 8, 0⟩), ("-J", ⟨2, 2, 4, 0⟩), ("-0J", ⟨3, 5, 8, 0⟩),
   ("-V", ⟨2, 2, 4, 0⟩), ("-0V", ⟨3, 5, 8, 0⟩)]

def counterSizage (code : String) : Option Sizage := counterTable.lookup code

/-- A count code with its count. -/
structure Counter where
  code : String
  count : ℕ

namespace Counter

def new (code : String) (count : ℕ) : Except CesrError Counter :=
  match counterSizage code with
  | none => .error (.unknownCode code)
  | some _ => .ok ⟨code, count⟩

/-- The digits of a text as a machine word. -/
def b64ToCount (checks : Bool) (s : Text) : Routine CesrError ℕ :=
  s.foldlM (fun count c => do
    let val ← lift (b64CharToIndex c)
    usizeAdd checks (← usizeMul checks count 64) val) 0

def fromQb64 (checks : Bool) (qb64 : Text) : Routine CesrError Counter := do
  match qb64.head? with
  | none => throw .emptyInput
  | some firstChar =>
    lift (ensureAscii qb64)
    if firstChar ≠ '-' then throw (.unknownCode s!"counter must start with '-', got '{firstChar}'")
    else if qb64.length < 2 then throw .unexpectedEnd
    else
      let big := (← index qb64 1) = '0'
      if big ∧ qb64.length < 3 then throw .unexpectedEnd
      else
        let ssStart := if big then 3 else 2
        let code := String.ofList (qb64.take ssStart)
        match counterSizage code with
        | none => throw (.unknownCode code)
        | some sizage =>
          if qb64.length < sizage.fs then throw .unexpectedEnd
          else
            let count ← b64ToCount checks (← slice qb64 ssStart sizage.fs)
            pure ⟨code, count⟩

def qb64 (c : Counter) : Except CesrError Text :=
  match counterSizage c.code with
  | none => .error (.unknownCode c.code)
  | some sizage => do
    let countB64 ← countToB64 c.count sizage.ss
    .ok (c.code.toList ++ countB64)

/-! ## The digits -/

variable {checks : Bool} {s text : Text} {count length acc : ℕ} {code : String} {sizage : Sizage}

theorem countToB64_ok_iff : (∃ text, countToB64 count length = .ok text) ↔ count < 64 ^ length := by
  refine ⟨fun ⟨text, htext⟩ => ?_, fun h => ?_⟩
  · obtain ⟨digits, hdigits, -⟩ := countDigits_eq length count
    simp only [countToB64, hdigits, ok_bind] at htext
    split_ifs at htext with hleft
    exact Nat.div_eq_zero_iff_lt (Nat.pow_pos (by decide)) |>.1 (Nat.eq_zero_of_not_pos hleft)
  · obtain ⟨digits, hdigits, -⟩ := countToB64_eq h
    exact ⟨digits, hdigits⟩

/-- A count below `2 ^ 64` is read without a panic. -/
theorem b64ToCount_runs (h : s.foldlM (fun count c => do .ok (count * 64 + (← b64CharToIndex c))) acc = .ok count)
    (hcount : count < 2 ^ 64) :
    acc ≤ count ∧ Runs (s.foldlM (fun count c => do
      let val ← lift (b64CharToIndex c)
      usizeAdd checks (← usizeMul checks count 64) val) acc) (.ok count) := by
  induction s generalizing acc with
  | nil =>
    cases h
    exact ⟨Nat.le_refl _, .pure _⟩
  | cons c s ih =>
    rw [foldlM_cons] at h ⊢
    obtain ⟨next, hnext, h⟩ := bind_eq_ok_iff.1 h
    obtain ⟨val, hval, hnext⟩ := bind_eq_ok_iff.1 hnext
    cases hnext
    obtain ⟨hle, hruns⟩ := ih h
    refine ⟨by omega, ?_⟩
    rw [hval, show (lift (.ok val) : Routine CesrError ℕ) = pure val from rfl, pure_bind,
      usizeMul_eq (by omega), pure_bind, usizeAdd_eq (by omega), pure_bind]
    exact hruns

theorem countDigits_of_b64ToCount (h : Alphabetic s) :
    ∃ count, Cesr.b64ToCount s = .ok count ∧ count < 64 ^ s.length ∧ countDigits s.length count = .ok (s, 0) := by
  induction s using List.reverseRecOn with
  | nil => exact ⟨0, rfl, Nat.one_pos, rfl⟩
  | append_singleton s c ih =>
    obtain ⟨count, hcount, hlt, hdigits⟩ := ih fun d hd => h d (mem_append_left _ hd)
    obtain ⟨n, hn⟩ := Option.isSome_iff_exists.1 (h c (mem_append_right _ mem_cons_self))
    obtain ⟨hlast, rfl⟩ := Base64.index?_eq_some hn
    refine ⟨count * 64 + n, b64ToCount_append hcount hlast, ?_, ?_⟩
    · rw [length_append, length_singleton, Nat.pow_succ]
      omega
    · have hchar : indexToB64Char n = .ok (Base64.char n) := if_neg (Nat.not_le.2 hlast)
      rw [length_append, length_singleton, countDigits, show (count * 64 + n) % 64 = n by omega,
        show (count * 64 + n) / 64 = count by omega, hchar]
      simp only [ok_bind, hdigits]

/-! ## Counters -/

/-- A code of the table tells by its second character how long it is, and its sizes leave the rest to the count. -/
def CounterEntryOk (entry : String × Sizage) : Prop :=
  entry.1.toList.length = entry.2.hs ∧ entry.2.fs = entry.2.hs + entry.2.ss ∧ entry.2.ss ≤ 5 ∧
  entry.1.toList.head? = some '-' ∧ entry.2.hs = (if entry.1.toList[1]? = some '0' then 3 else 2) ∧
  (entry.1.toList.all fun c => (Base64.index? c).isSome)

instance : DecidablePred CounterEntryOk := fun _ => inferInstanceAs (Decidable (_ ∧ _))

theorem counterTable_ok : ∀ entry ∈ counterTable, CounterEntryOk entry := by decide +kernel

theorem fromQb64_append (hsizage : counterSizage code = some sizage) (halpha : Alphabetic s)
    (hlength : s.length = sizage.ss) (hruns : Runs (b64ToCount checks s) (.ok count)) :
    Runs (fromQb64 checks (code.toList ++ s)) (.ok ⟨code, count⟩) := by
  obtain ⟨before, after, htable, -⟩ := lookup_eq_some_iff.1 hsizage
  obtain ⟨hhs, hfs, -, hhead, hbig, hcode⟩ := counterTable_ok (code, sizage) <| by
    rw [htable]
    exact mem_append_right _ mem_cons_self
  dsimp only at hhs hfs hhead hbig hcode
  have hascii : ensureAscii (code.toList ++ s) = .ok () := by
    refine ensureAscii_eq_ok fun c hc => ?_
    rcases mem_append.1 hc with hc | hc
    · exact all_eq_true.1 hcode c hc
    · exact halpha c hc
  obtain ⟨second, hsecond⟩ : ∃ second, code.toList[1]? = some second :=
    ⟨_, getElem?_eq_getElem (by split_ifs at hbig <;> omega)⟩
  have hindex : (index (code.toList ++ s) 1 : Routine CesrError Char) = pure second := by
    rw [index, getElem?_append_left (by split_ifs at hbig <;> omega), hsecond]
  have hstart : (if second = '0' then 3 else 2) = sizage.hs := by
    rw [hbig, hsecond]
    exact if_congr (Option.some_inj).symm rfl rfl
  have hall : (code.toList ++ s).length = sizage.fs := by
    rw [length_append, hhs, hlength, hfs]
  have htake : (code.toList ++ s).take sizage.hs = code.toList := by
    rw [← hhs, take_left]
  have hslice : (slice (code.toList ++ s) sizage.hs sizage.fs : Routine CesrError Text) = pure s := by
    rw [← hall, slice_length (by omega), ← hhs, drop_left]
  have hlong : ¬(second = '0' ∧ (code.toList ++ s).length < 3) := by
    rintro ⟨rfl, hshort⟩
    rw [if_pos rfl] at hstart
    omega
  unfold fromQb64
  rw [head?_append, hhead]
  simp only [Option.some_or, hascii]
  rw [show (lift (.ok ()) : Routine CesrError Unit) = pure () from rfl, pure_bind, if_neg (by simp),
    if_neg (by split_ifs at hstart <;> omega), hindex, pure_bind]
  rw [if_neg hlong, hstart, htake, String.ofList_toList, hsizage]
  dsimp only
  rw [if_neg (by omega), hslice, pure_bind]
  exact hruns.ok_bind (.pure _)

theorem fromQb64_qb64 {c : Counter} (h : c.qb64 = .ok text) : Runs (fromQb64 checks text) (.ok c) := by
  unfold qb64 at h
  split at h
  · cases h
  · rename_i sizage hsizage
    obtain ⟨digits, hdigits, h⟩ := bind_eq_ok_iff.1 h
    cases h
    have hfits := countToB64_ok_iff.1 ⟨digits, hdigits⟩
    obtain ⟨written, hwritten, hlength, halpha, hcount⟩ := countToB64_eq hfits
    cases hdigits.symm.trans hwritten
    refine fromQb64_append hsizage halpha hlength (b64ToCount_runs hcount (Nat.lt_trans hfits ?_)).2
    obtain ⟨before, after, htable, -⟩ := lookup_eq_some_iff.1 hsizage
    have hss : sizage.ss ≤ 5 := by
      obtain ⟨-, -, hss, -⟩ := counterTable_ok (c.code, sizage) <| by
        rw [htable]
        exact mem_append_right _ mem_cons_self
      exact hss
    exact Nat.lt_of_le_of_lt (Nat.pow_le_pow_right (by decide) hss) (by decide)

/-- The digits of a count are written exactly where they are enough for it, and what is written is read back;
every text whose value fits a machine word is the digits of its count; every counter is read back. -/
theorem soft_count_codec :
    (∀ count length, (∃ text, countToB64 count length = .ok text) ↔ count < 64 ^ length) ∧
    (∀ checks count length text, count < 2 ^ 64 → countToB64 count length = .ok text →
      Runs (b64ToCount checks text) (.ok count)) ∧
    (∀ checks s, Alphabetic s → ∃ value, value < 64 ^ s.length ∧ Cesr.b64ToCount s = .ok value ∧
      (value < 2 ^ 64 → Runs (b64ToCount checks s) (.ok value) ∧ countToB64 value s.length = .ok s)) ∧
    (∀ checks (c : Counter) text, c.qb64 = .ok text → Runs (fromQb64 checks text) (.ok c)) := by
  refine ⟨fun count length => countToB64_ok_iff, fun checks count length text hcount htext => ?_,
    fun checks s hs => ?_, fun checks c text => fromQb64_qb64⟩
  · obtain ⟨written, hwritten, -, -, hread⟩ := countToB64_eq (countToB64_ok_iff.1 ⟨text, htext⟩)
    cases htext.symm.trans hwritten
    exact (b64ToCount_runs hread hcount).2
  · obtain ⟨value, hvalue, hlt, hdigits⟩ := countDigits_of_b64ToCount hs
    refine ⟨value, hlt, hvalue, fun hfits => ⟨(b64ToCount_runs hvalue hfits).2, ?_⟩⟩
    simp only [countToB64, hdigits, ok_bind, Nat.lt_irrefl, if_false]

/-- Eleven digits can be more than a machine word: the product overflows, or wraps to another count. -/
theorem soft_count_overflow : ¬∀ checks s, Alphabetic s →
    ∃ count, Runs (b64ToCount checks s) (.ok count) ∧ countToB64 count s.length = .ok s := by
  intro h
  have hs : Alphabetic "QAAAAAAAAAA".toList := all_eq_true.1 (by decide)
  obtain ⟨count, hcount, -⟩ := h true _ hs
  have hpanic : (b64ToCount true "QAAAAAAAAAA".toList).run = .error .overflow := by rfl
  cases hpanic.symm.trans hcount

end Counter

end AffinidiTdk.Cesr
