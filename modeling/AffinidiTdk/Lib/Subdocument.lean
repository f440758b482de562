/-
The part of a JSON value that a set of paths selects: what the paths lead to is kept whole, the values on
the way keep the members that are carried along and the members and items that some path goes through.
With holes, the items of an array keep their places up to the last one kept. Which members are carried
along and how a token is read as a position in an array are parameters.
-/
import AffinidiTdk.Lib.Json

namespace Json

open List

/-! ## Paths -/

/-- The tokens to follow, each the key of a member or the position of an item. -/
abbrev Path := List String

/-- The member or the item that a token names. -/
def child (index : String → Option ℕ) : Json → String → Option Json
  | obj fields, token => fields.lookup token
  | arr items, token => (index token).bind fun i => items[i]?
  | _, _ => none

def follow (index : String → Option ℕ) : Json → Path → Option Json
  | value, [] => some value
  | value, token :: path => (value.child index token).bind fun inner => inner.follow index path

/-- The rests of the paths whose first token is one of `names`. -/
def rests (names : String → Bool) (paths : List Path) : List Path :=
  paths.filterMap fun path => match path with
    | [] => none
    | token :: rest => if names token then some rest else none

theorem mem_rests {names : String → Bool} {paths : List Path} {rest : Path} :
    rest ∈ rests names paths ↔ ∃ token, names token = true ∧ token :: rest ∈ paths := by
  unfold rests
  rw [mem_filterMap]
  constructor
  · rintro ⟨path, hpath, hrest⟩
    cases path with
    | nil => cases hrest
    | cons token inner =>
      obtain ⟨hnames, hinner⟩ := Option.ite_none_right_eq_some.1 hrest
      cases hinner
      exact ⟨token, hnames, hpath⟩
  · rintro ⟨token, hnames, hpath⟩
    exact ⟨token :: rest, hpath, if_pos hnames⟩

theorem rests_cons_of_names {names : String → Bool} {token : String} (h : names token = true) (rest : Path)
    (paths : List Path) : rests names ((token :: rest) :: paths) = rest :: rests names paths :=
  filterMap_cons_some (if_pos h)

theorem rests_cons_of_not {names : String → Bool} {token : String} (h : names token = false) (rest : Path)
    (paths : List Path) : rests names ((token :: rest) :: paths) = rests names paths :=
  filterMap_cons_none (if_neg (by rw [h]; exact Bool.false_ne_true))

theorem rests_ne_nil {names : String → Bool} {paths : List Path} :
    rests names paths ≠ [] ↔ ∃ token rest, names token = true ∧ token :: rest ∈ paths := by
  constructor
  · intro h
    obtain ⟨rest, hrest⟩ := exists_mem_of_ne_nil _ h
    obtain ⟨token, htoken⟩ := mem_rests.1 hrest
    exact ⟨token, rest, htoken⟩
  · rintro ⟨token, rest, htoken⟩
    exact ne_nil_of_mem (mem_rests.2 ⟨token, htoken⟩)

/-! ## What paths select -/

mutual

/-- The part of a value that the paths select; an object without members stands for a value that is
neither an array nor an object and that the paths only go through. -/
def extract (carried : String → Json → Bool) (index : String → Option ℕ) (holes : Bool) : Json → List Path → Json
  | obj fields, paths =>
    if [] ∈ paths then obj fields else obj (extractFields carried index holes fields paths)
  | arr items, paths =>
    if [] ∈ paths then arr items else arr (extractItems carried index holes 0 items paths)
  | value, paths => if [] ∈ paths then value else obj []

def extractFields (carried : String → Json → Bool) (index : String → Option ℕ) (holes : Bool) :
    List (String × Json) → List Path → List (String × Json)
  | [], _ => []
  | (key, value) :: fields, paths =>
    if carried key value then (key, value) :: extractFields carried index holes fields paths
    else if (rests (· == key) paths).isEmpty then extractFields carried index holes fields paths
    else (key, extract carried index holes value (rests (· == key) paths)) ::
      extractFields carried index holes fields paths

def extractItems (carried : String → Json → Bool) (index : String → Option ℕ) (holes : Bool) (i : ℕ) :
    List Json → List Path → List Json
  | [], _ => []
  | item :: items, paths =>
    if (rests (index · == some i) paths).isEmpty then
      if holes && !(extractItems carried index holes (i + 1) items paths).isEmpty then
        null :: extractItems carried index holes (i + 1) items paths
      else extractItems carried index holes (i + 1) items paths
    else extract carried index holes item (rests (index · == some i) paths) ::
      extractItems carried index holes (i + 1) items paths

end

variable {carried : String → Json → Bool} {index index' : String → Option ℕ} {holes : Bool}
  {paths others : List Path}

/-- A path to the whole value leaves it whole. -/
theorem extract_whole (h : [] ∈ paths) (value : Json) : extract carried index holes value paths = value := by
  cases value with
  | obj _ | arr _ => rw [extract, if_pos h]
  | _ => simp [extract, h]

/-- The paths below a member or an item of a value, for two sets of paths that are compared: either
none in both, or related ones. -/
def SameRests (related : Json → List Path → List Path → Prop) (value : Json) (paths others : List Path) : Prop :=
  (paths = [] ↔ others = []) ∧ (paths ≠ [] → related value paths others)

/-- A relation between sets of paths that is kept on the way down: it can be checked node by node. -/
structure Descends (carried : String → Json → Bool) (index index' : String → Option ℕ)
    (related : Json → List Path → List Path → Prop) : Prop where
  whole : ∀ {value paths others}, related value paths others → ([] ∈ paths ↔ [] ∈ others)
  fields : ∀ {fields paths others}, related (obj fields) paths others → [] ∉ paths → ∀ key value,
    (key, value) ∈ fields → carried key value = false →
    SameRests related value (rests (· == key) paths) (rests (· == key) others)
  items : ∀ {items paths others}, related (arr items) paths others → [] ∉ paths → ∀ (i : ℕ) value,
    items[i]? = some value →
    SameRests related value (rests (index · == some i) paths) (rests (index' · == some i) others)

section Congr

variable {related : Json → List Path → List Path → Prop}

mutual

/-- Two sets of paths select the same part, under a relation that is kept on the way down. -/
theorem Descends.extract_eq (hdown : Descends carried index index' related) :
    ∀ (value : Json) {paths others : List Path}, related value paths others →
    extract carried index holes value paths = extract carried index' holes value others
  | obj fields, paths, others, h => by
    by_cases hnil : [] ∈ paths
    · rw [extract_whole hnil, extract_whole ((hdown.whole h).1 hnil)]
    · rw [extract, extract, if_neg hnil, if_neg fun hmem => hnil ((hdown.whole h).2 hmem)]
      rw [hdown.extractFields_eq fields (hdown.fields h hnil)]
  | arr items, paths, others, h => by
    by_cases hnil : [] ∈ paths
    · rw [extract_whole hnil, extract_whole ((hdown.whole h).1 hnil)]
    · rw [extract, extract, if_neg hnil, if_neg fun hmem => hnil ((hdown.whole h).2 hmem)]
      refine congrArg arr (hdown.extractItems_eq items 0 fun i value hi => ?_)
      rw [Nat.zero_add]
      exact hdown.items h hnil i value hi
  | null, _, _, h | bool _, _, _, h | int _, _, _, h | float _, _, _, h | str _, _, _, h => by
    simp only [extract, hdown.whole h]

theorem Descends.extractFields_eq (hdown : Descends carried index index' related) :
    ∀ (fields : List (String × Json)) {paths others : List Path},
    (∀ key value, (key, value) ∈ fields → carried key value = false →
      SameRests related value (rests (· == key) paths) (rests (· == key) others)) →
    extractFields carried index holes fields paths = extractFields carried index' holes fields others
  | [], _, _, _ => by rw [extractFields, extractFields]
  | (key, value) :: fields, paths, others, h => by
    have hrest : extractFields carried index holes fields paths = extractFields carried index' holes fields others :=
      hdown.extractFields_eq fields fun key value hmem => h key value (mem_cons_of_mem _ hmem)
    rw [extractFields, extractFields, hrest]
    by_cases hcarried : carried key value = true
    · rw [if_pos hcarried, if_pos hcarried]
    · obtain ⟨hempty, hsame⟩ := h key value mem_cons_self (Bool.eq_false_iff.2 hcarried)
      rw [if_neg hcarried, if_neg hcarried]
      simp only [List.isEmpty_iff, hempty]
      split_ifs with hnone
      · rfl
      · rw [hdown.extract_eq value (hsame fun hnil => hnone (hempty.1 hnil))]

theorem Descends.extractItems_eq (hdown : Descends carried index index' related) :
    ∀ (items : List Json) (i : ℕ) {paths others : List Path},
    (∀ n value, items[n]? = some value →
      SameRests related value (rests (index · == some (i + n)) paths) (rests (index' · == some (i + n)) others)) →
    extractItems carried index holes i items paths = extractItems carried index' holes i items others
  | [], _, _, _, _ => by rw [extractItems, extractItems]
  | item :: items, i, paths, others, h => by
    have hrest : extractItems carried index holes (i + 1) items paths =
      extractItems carried index' holes (i + 1) items others :=
      hdown.extractItems_eq items (i + 1) fun n value hn => by
        rw [Nat.add_right_comm]
        exact h (n + 1) value hn
    obtain ⟨hempty, hsame⟩ := h 0 item rfl
    rw [Nat.add_zero] at hempty hsame
    rw [extractItems, extractItems, hrest]
    simp only [List.isEmpty_iff, hempty]
    split_ifs with hnone
    · rfl
    · rfl
    · rw [hdown.extract_eq item (hsame fun hnil => hnone (hempty.1 hnil))]

end

end Congr

/-! ## Reading what is selected -/

theorem mem_of_mem_extractFields {fields : Fields} {key : String} {value : Json}
    (h : (key, value) ∈ extractFields carried index holes fields paths) : ∃ source, (key, source) ∈ fields := by
  induction fields with
  | nil => rw [extractFields] at h; cases h
  | cons member fields ih =>
    have hrest (hmem : (key, value) ∈ extractFields carried index holes fields paths) :
        ∃ source, (key, source) ∈ member :: fields := by
      obtain ⟨source, hsource⟩ := ih hmem
      exact ⟨source, mem_cons_of_mem _ hsource⟩
    rw [extractFields] at h
    split_ifs at h
    · rcases mem_cons.1 h with heq | hmem
      · exact ⟨value, mem_cons.2 (.inl heq)⟩
      · exact hrest hmem
    · exact hrest h
    · rcases mem_cons.1 h with heq | hmem
      · cases heq
        exact ⟨member.2, mem_cons_self⟩
      · exact hrest hmem

theorem extractFields_sorted {fields : Fields} (h : fields.Sorted) :
    Fields.Sorted (extractFields carried index holes fields paths) := by
  induction fields with
  | nil => rw [extractFields]; exact .nil
  | cons member fields ih =>
    obtain ⟨hlt, hrest⟩ := pairwise_cons.1 h
    have hkept : ∀ other ∈ extractFields carried index holes fields paths, member.1 < other.1 :=
      fun other hother => by
      obtain ⟨source, hsource⟩ := mem_of_mem_extractFields hother
      exact hlt (other.1, source) hsource
    rw [extractFields]
    split_ifs
    · exact .cons hkept (ih hrest)
    · exact ih hrest
    · exact .cons hkept (ih hrest)

theorem lookup_extractFields {fields : Fields} (h : fields.Sorted) (key : String) :
    (extractFields carried index holes fields paths).lookup key = (fields.lookup key).bind fun value => if carried
    key value then some value else if (rests (· == key) paths).isEmpty then none else some
    (extract carried index holes value (rests (· == key) paths)) := by
  induction fields with
  | nil => rw [extractFields]; rfl
  | cons member fields ih =>
    obtain ⟨hlt, hrest⟩ := pairwise_cons.1 h
    rw [extractFields, lookup_cons]
    by_cases hkey : key = member.1
    · have hnone : (extractFields carried index holes fields paths).lookup member.1 = none := by
        refine Fields.lookup_eq_none fun hmem => ?_
        obtain ⟨other, hother, heq⟩ := mem_map.1 hmem
        obtain ⟨source, hsource⟩ := mem_of_mem_extractFields (show (other.1, other.2) ∈ _ from hother)
        exact (hlt _ hsource).ne heq.symm
      subst hkey
      rw [beq_self_eq_true]
      show _ = if carried member.1 member.2 then some member.2
        else if (rests (· == member.1) paths).isEmpty then none
        else some (extract carried index holes member.2 (rests (· == member.1) paths))
      by_cases hcarried : carried member.1 member.2 = true
      · rw [if_pos hcarried, if_pos hcarried, lookup_cons, beq_self_eq_true]
      · rw [if_neg hcarried, if_neg hcarried]
        by_cases hnot : (rests (· == member.1) paths).isEmpty = true
        · rw [if_pos hnot, if_pos hnot, hnone]
        · rw [if_neg hnot, if_neg hnot, lookup_cons, beq_self_eq_true]
    · rw [beq_false_of_ne hkey]
      refine Eq.trans ?_ (ih hrest)
      split_ifs
      · rw [lookup_cons, beq_false_of_ne hkey]
      · rfl
      · rw [lookup_cons, beq_false_of_ne hkey]

theorem getElem?_extractItems {items : List Json} {item : Json} {i n : ℕ} (hitem : items[n]? = some item)
    (h : rests (index · == some (i + n)) paths ≠ []) :
    (extractItems carried index true i items paths)[n]? =
      some (extract carried index true item (rests (index · == some (i + n)) paths)) := by
  induction items generalizing i n with
  | nil => cases hitem
  | cons head items ih =>
    cases n with
    | zero =>
      cases hitem
      rw [Nat.add_zero] at h ⊢
      rw [extractItems, if_neg fun hnil => h (List.isEmpty_iff.1 hnil)]
      rfl
    | succ n =>
      rw [show i + (n + 1) = i + 1 + n by omega] at h ⊢
      have hrest := @ih (i + 1) n hitem h
      have hsome : ¬(extractItems carried index true (i + 1) items paths).isEmpty = true := fun hnil => by
        rw [List.isEmpty_iff.1 hnil] at hrest
        cases hrest
      rw [extractItems]
      split_ifs with hnone hhole
      · exact hrest
      · exact absurd (by simpa using hsome) hhole
      · exact hrest

theorem extractItems_ne_nil {items : List Json} {i : ℕ} (h : extractItems carried index holes i items paths ≠ []) :
    ∃ n, items[n]?.isSome ∧ rests (index · == some (i + n)) paths ≠ [] := by
  induction items generalizing i with
  | nil => rw [extractItems] at h; exact absurd rfl h
  | cons head items ih =>
    by_cases hhead : rests (index · == some i) paths = []
    · have hrest : extractItems carried index holes (i + 1) items paths ≠ [] := fun hnil => by
        rw [extractItems, if_pos (List.isEmpty_iff.2 hhead), hnil] at h
        simp at h
      obtain ⟨n, hn, hthrough⟩ := ih hrest
      rw [show i + 1 + n = i + (n + 1) by omega] at hthrough
      exact ⟨n + 1, hn, hthrough⟩
    · exact ⟨0, rfl, hhead⟩

/-- An item that no path goes through is a hole before one that some path goes through, or nothing. -/
theorem getElem?_extractItems_hole {items : List Json} {i n : ℕ} (h : rests (index · == some (i + n)) paths = []) :
    (extractItems carried index true i items paths)[n]? = none ∨
    (extractItems carried index true i items paths)[n]? = some null ∧ ∃ m > n, items[m]?.isSome ∧
    rests (index · == some (i + m)) paths ≠ [] := by
  induction items generalizing i n with
  | nil => left; rw [extractItems]; rfl
  | cons head items ih =>
    cases n with
    | zero =>
      rw [Nat.add_zero] at h
      rw [extractItems, if_pos (List.isEmpty_iff.2 h)]
      by_cases hrest : extractItems carried index true (i + 1) items paths = []
      · left
        rw [hrest]
        rfl
      · right
        obtain ⟨m, hm, hthrough⟩ := extractItems_ne_nil hrest
        rw [show i + 1 + m = i + (m + 1) by omega] at hthrough
        rw [if_pos (by simpa using hrest)]
        exact ⟨rfl, m + 1, Nat.succ_pos m, hm, hthrough⟩
    | succ n =>
      rw [show i + (n + 1) = i + 1 + n by omega] at h
      have hlater (hm : ∃ m > n, items[m]?.isSome ∧ rests (index · == some (i + 1 + m)) paths ≠ []) :
          ∃ m > n + 1, (head :: items)[m]?.isSome ∧ rests (index · == some (i + m)) paths ≠ [] := by
        obtain ⟨m, hlt, hm, hthrough⟩ := hm
        rw [show i + 1 + m = i + (m + 1) by omega] at hthrough
        exact ⟨m + 1, Nat.succ_lt_succ hlt, hm, hthrough⟩
      have hshift : (extractItems carried index true i (head :: items) paths)[n + 1]? =
          (extractItems carried index true (i + 1) items paths)[n]? := by
        rw [extractItems]
        split_ifs with hnone hhole
        · rfl
        · have hnil : extractItems carried index true (i + 1) items paths = [] := by simpa using hhole
          rw [hnil]
          rfl
        · rfl
      rw [hshift]
      exact (ih h).imp id fun hnull => ⟨hnull.1, hlater hnull.2⟩

theorem extractItems_cons_of_not {items : List Json} {i : ℕ} {token : String} {path : Path}
    (h : ∀ n, items[n]?.isSome → index token ≠ some (i + n)) :
    extractItems carried index holes i items ((token :: path) :: paths) =
      extractItems carried index holes i items paths := by
  induction items generalizing i with
  | nil => rw [extractItems, extractItems]
  | cons head items ih =>
    have hhead : (index token == some i) = false := beq_false_of_ne (h 0 rfl)
    have hrest := @ih (i + 1) fun n hn => by
      rw [show i + 1 + n = i + (n + 1) by omega]
      exact h (n + 1) hn
    rw [extractItems, extractItems, rests_cons_of_not hhead, hrest]

theorem extractFields_cons_of_not {fields : Fields} {token : String} {path : Path} (h : token ∉ fields.keys) :
    extractFields carried index holes fields ((token :: path) :: paths) =
      extractFields carried index holes fields paths := by
  induction fields with
  | nil => rw [extractFields, extractFields]
  | cons member fields ih =>
    obtain ⟨hne, hrest⟩ := not_or.1 fun hor => h (mem_cons.2 hor)
    have hhead : (token == member.1) = false := beq_false_of_ne hne
    have hrests : rests (· == member.1) ((token :: path) :: paths) = rests (· == member.1) paths :=
      @rests_cons_of_not (· == member.1) token hhead path paths
    rw [extractFields, extractFields, hrests, ih hrest]

end Json
