/-
Splitting a text at its first separator or at all of them, on character lists so that it evaluates,
and the UTF-8 bytes of a text.
-/
import Mathlib.Data.List.Infix

namespace Text

open List

/-- Everything before the first `c`, the whole text when there is none. -/
def before (c : Char) (s : String) : String := String.ofList (s.toList.takeWhile (· ≠ c))

/-- The parts around the first `c`. -/
def splitOnce (c : Char) (s : String) : Option (String × String) :=
  if s.toList.contains c then
    some (before c s, String.ofList (s.toList.dropWhile (· ≠ c)).tail)
  else none

theorem splitOnce_ofList {c : Char} {first : List Char} (h : c ∉ first) (rest : List Char) :
    splitOnce c (String.ofList (first ++ c :: rest)) = some (String.ofList first, String.ofList rest) := by
  have hall : ∀ d ∈ first, decide (d ≠ c) = true := fun d hd => decide_eq_true fun heq => h (heq ▸ hd)
  have hmem : (first ++ c :: rest).contains c = true := contains_iff_mem.2 (mem_append_right first mem_cons_self)
  rw [splitOnce, before, String.toList_ofList, if_pos hmem, takeWhile_append_of_pos hall, dropWhile_append_of_pos hall]
  simp

/-- The text begins with `part`. -/
def startsWith (part s : String) : Bool := part.toList.isPrefixOf s.toList

def endsWith (part s : String) : Bool := part.toList.isSuffixOf s.toList

def trimEndMatches (c : Char) (s : String) : String :=
  String.ofList (s.toList.reverse.dropWhile (· = c)).reverse

/-- The Unicode property White_Space. -/
def isWhitespace (c : Char) : Bool :=
  let cp := c.toNat
  9 ≤ cp ∧ cp ≤ 13 ∨ cp = 0x20 ∨ cp = 0x85 ∨ cp = 0xA0 ∨ cp = 0x1680 ∨ 0x2000 ≤ cp ∧ cp ≤ 0x200A ∨
    cp = 0x2028 ∨ cp = 0x2029 ∨ cp = 0x202F ∨ cp = 0x205F ∨ cp = 0x3000

def trim (s : String) : String :=
  String.ofList ((s.toList.dropWhile isWhitespace).reverse.dropWhile isWhitespace).reverse

/-- `str::parse` for an unsigned number below `bound`: an optional plus sign and digits. -/
def parseUnsigned (bound : ℕ) (s : String) : Option ℕ :=
  let digits := match s.toList with
    | '+' :: rest => rest
    | other => other
  if digits ≠ [] ∧ digits.all Char.isDigit then
    let n := digits.foldl (fun n c => 10 * n + (c.toNat - '0'.toNat)) 0
    if n < bound then some n else none
  else none

/-- The text has `part` in it. -/
def contains (part s : String) : Bool := decide (part.toList <:+: s.toList)

/-! ## All separators -/

/-- The parts between the separators; there is always one. -/
def split (c : Char) (s : String) : List String := (s.toList.splitOn c).map String.ofList

/-- The parts with separators between them. -/
def join (c : Char) (parts : List String) : String := String.ofList ([c].intercalate (parts.map String.toList))

theorem split_ne_nil (c : Char) (s : String) : split c s ≠ [] := by
  rw [split, ne_eq, map_eq_nil_iff]
  exact splitOn_ne_nil c _

theorem join_split (c : Char) (s : String) : join c (split c s) = s := by
  have hlists : (split c s).map String.toList = s.toList.splitOn c := by
    rw [split, map_map]
    exact (map_congr_left fun part _ => String.toList_ofList).trans (map_id _)
  rw [join, hlists, intercalate_splitOn, String.ofList_toList]

variable {c : Char} {parts : List String}

theorem split_join (hparts : ∀ part ∈ parts, c ∉ part.toList) (hne : parts ≠ []) :
    split c (join c parts) = parts := by
  have hlists : ∀ list ∈ parts.map String.toList, c ∉ list := by
    intro list hmem
    obtain ⟨part, hpart, rfl⟩ := mem_map.1 hmem
    exact hparts part hpart
  rw [split, join, String.toList_ofList, splitOn_intercalate c hlists (by rwa [ne_eq, map_eq_nil_iff]), map_map]
  exact (map_congr_left fun part _ => String.ofList_toList).trans (map_id _)

variable {s : String}

theorem split_inj {t : String} (h : split c s = split c t) : s = t := by
  rw [← join_split c s, h, join_split]

variable {lists : List (List Char)}

theorem intercalate_append_singleton (c : Char) (last : List Char) (h : lists ≠ []) :
    [c].intercalate (lists ++ [last]) = [c].intercalate lists ++ [c] ++ last := by
  induction lists with
  | nil => exact absurd rfl h
  | cons list lists ih =>
    by_cases hlists : lists = []
    · subst hlists
      simp [List.intercalate]
    · rw [cons_append, intercalate_cons_of_ne_nil (by simp), ih hlists, intercalate_cons_of_ne_nil hlists]
      simp only [append_assoc]

theorem join_append_singleton (c : Char) (last : String) (h : parts ≠ []) : join c (parts ++ [last]) =
    join c parts ++ String.singleton c ++ last := by
  rw [← String.toList_inj, join, join, String.toList_append, String.toList_append, String.toList_ofList,
    String.toList_ofList, map_append, map_singleton,
    intercalate_append_singleton c _ (by rwa [ne_eq, map_eq_nil_iff]), String.toList_singleton]

theorem not_mem_of_mem_splitOn {list part : List Char} (h : part ∈ list.splitOn c) : c ∉ part := by
  induction list generalizing part with
  | nil =>
    rw [splitOn_nil, mem_singleton] at h
    rw [h]
    exact not_mem_nil
  | cons x list ih =>
    rw [splitOn_cons_eq_if_modifyHead] at h
    split_ifs at h with hx
    · rcases mem_cons.1 h with rfl | hmem
      · exact not_mem_nil
      · exact ih hmem
    · cases hsplit : list.splitOn c with
      | nil => exact absurd hsplit (splitOn_ne_nil c list)
      | cons first rest =>
        rw [hsplit, modifyHead_cons] at h
        rcases mem_cons.1 h with rfl | hmem
        · intro hc
          rcases mem_cons.1 hc with rfl | hc
          · exact hx (beq_self_eq_true c)
          · exact ih (hsplit ▸ mem_cons_self) hc
        · exact ih (hsplit ▸ mem_cons_of_mem first hmem)

theorem not_mem_of_mem_split {part : String} (h : part ∈ split c s) : c ∉ part.toList := by
  obtain ⟨list, hlist, rfl⟩ := mem_map.1 h
  rw [String.toList_ofList]
  exact not_mem_of_mem_splitOn hlist

theorem mem_intercalate {x : Char} (h : x ∈ [c].intercalate lists) : x = c ∨ ∃ list ∈ lists, x ∈ list := by
  induction lists with
  | nil => cases h
  | cons list lists ih =>
    by_cases hlists : lists = []
    · subst hlists
      rw [intercalate_singleton] at h
      exact .inr ⟨list, mem_cons_self, h⟩
    · rw [intercalate_cons_of_ne_nil hlists] at h
      rcases mem_append.1 h with h | h
      · rcases mem_append.1 h with h | h
        · exact .inr ⟨list, mem_cons_self, h⟩
        · exact .inl (mem_singleton.1 h)
      · rcases ih h with h | ⟨other, hother, h⟩
        · exact .inl h
        · exact .inr ⟨other, mem_cons_of_mem _ hother, h⟩

/-! ## Bytes -/

def utf8 (s : String) : List UInt8 := s.toUTF8.data.toList

/-- `String::from_utf8`. -/
def fromUtf8 (bytes : List UInt8) : Option String := String.fromUTF8? ⟨⟨bytes⟩⟩

/-- UTF-8 text is read back. -/
theorem fromUtf8_utf8 (s : String) : fromUtf8 (utf8 s) = some s := by
  have hvalid : ByteArray.IsValidUTF8 ⟨⟨s.toUTF8.data.toList⟩⟩ := s.isValidUTF8
  rw [fromUtf8, utf8, String.fromUTF8?, dif_pos hvalid]
  rfl

theorem utf8_of_fromUtf8 {bytes : List UInt8} (h : fromUtf8 bytes = some s) : utf8 s = bytes := by
  rw [fromUtf8, String.fromUTF8?] at h
  split at h
  · cases h
    rfl
  · cases h

theorem length_utf8_replicate (n : ℕ) (c : Char) :
    (utf8 (String.ofList (List.replicate n c))).length = n * c.utf8Size := by
  have hsize : (List.replicate n c).utf8Encode.size = n * c.utf8Size := by
    induction n with
    | zero => rw [Nat.zero_mul]; rfl
    | succ n ih =>
      have hchar : [c].utf8Encode.size = c.utf8Size := by
        rw [utf8Encode_singleton, size_toByteArray, String.length_utf8EncodeChar]
      rw [replicate_succ, utf8Encode_cons, ByteArray.size_append, ih, hchar, Nat.succ_mul, Nat.add_comm]
  rw [utf8, Array.length_toList]
  show (String.ofList (List.replicate n c)).toByteArray.size = _
  rw [String.toByteArray_ofList, hsize]

theorem utf8_injective : Function.Injective utf8 := fun s t h => by
  have hread := congrArg fromUtf8 h
  rw [fromUtf8_utf8, fromUtf8_utf8] at hread
  exact Option.some.inj hread

end Text
