/-
JSON values. An object lists its members in the order of their keys, as a sorted map does: reading,
writing and removing a member are those of an ordered association list, and two objects in that form
are equal when they have the same members.
-/
import AffinidiTdk.Lib.OrdMap
import Mathlib.Algebra.Order.Ring.Int
import Mathlib.Data.String.Basic

/-- JSON values; a float is kept as its text. -/
inductive Json
  | null
  | bool (b : Bool)
  | int (n : ℤ)
  | float (text : String)
  | str (s : String)
  | arr (items : List Json)
  | obj (fields : List (String × Json))

namespace Json

open List OrdMap

/-! ## Access -/

def get? (key : String) : Json → Option Json
  | obj fields => fields.lookup key
  | _ => none

/-- `value[key]`: null where there is nothing. -/
def index (value : Json) (key : String) : Json := (value.get? key).getD null

def asStr : Json → Option String
  | str s => some s
  | _ => none

def asArray : Json → Option (List Json)
  | arr items => some items
  | _ => none

def asObject : Json → Option (List (String × Json))
  | obj fields => some fields
  | _ => none

def asBool : Json → Option Bool
  | bool b => some b
  | _ => none

def asI64 : Json → Option ℤ
  | int n => if -2 ^ 63 ≤ n ∧ n < 2 ^ 63 then some n else none
  | _ => none

def asU64 : Json → Option ℕ
  | int n => if 0 ≤ n ∧ n < 2 ^ 64 then some n.toNat else none
  | _ => none

/-- The text of a field, where it is one. -/
def strField (value : Json) (key : String) : Option String := (value.get? key).bind asStr

/-! ## Equality -/

mutual

def decEq : (a b : Json) → Decidable (a = b)
  | null, null => .isTrue rfl
  | bool a, bool b => decidable_of_iff (a = b) (by rw [bool.injEq])
  | int a, int b => decidable_of_iff (a = b) (by rw [int.injEq])
  | float a, float b => decidable_of_iff (a = b) (by rw [float.injEq])
  | str a, str b => decidable_of_iff (a = b) (by rw [str.injEq])
  | arr a, arr b => @decidable_of_iff _ (a = b) (by rw [arr.injEq]) (decEqItems a b)
  | obj a, obj b => @decidable_of_iff _ (a = b) (by rw [obj.injEq]) (decEqFields a b)
  | null, bool _ | null, int _ | null, float _ | null, str _ | null, arr _ | null, obj _
  | bool _, null | bool _, int _ | bool _, float _ | bool _, str _ | bool _, arr _ | bool _, obj _
  | int _, null | int _, bool _ | int _, float _ | int _, str _ | int _, arr _ | int _, obj _
  | float _, null | float _, bool _ | float _, int _ | float _, str _ | float _, arr _ | float _, obj _
  | str _, null | str _, bool _ | str _, int _ | str _, float _ | str _, arr _ | str _, obj _
  | arr _, null | arr _, bool _ | arr _, int _ | arr _, float _ | arr _, str _ | arr _, obj _
  | obj _, null | obj _, bool _ | obj _, int _ | obj _, float _ | obj _, str _ | obj _, arr _ => .isFalse nofun

def decEqItems : (a b : List Json) → Decidable (a = b)
  | [], [] => .isTrue rfl
  | [], _ :: _ => .isFalse nofun
  | _ :: _, [] => .isFalse nofun
  | a :: as, b :: bs =>
    match decEq a b, decEqItems as bs with
    | .isTrue h, .isTrue hs => .isTrue (by rw [h, hs])
    | .isFalse h, _ => .isFalse fun heq => h (List.cons.inj heq).1
    | _, .isFalse hs => .isFalse fun heq => hs (List.cons.inj heq).2

def decEqFields : (a b : List (String × Json)) → Decidable (a = b)
  | [], [] => .isTrue rfl
  | [], _ :: _ => .isFalse nofun
  | _ :: _, [] => .isFalse nofun
  | (k, a) :: as, (l, b) :: bs =>
    match decEq a b, decEqFields as bs with
    | .isTrue h, .isTrue hs => decidable_of_iff (k = l) (by rw [h, hs]; simp)
    | .isFalse h, _ => .isFalse fun heq => h (Prod.mk.inj (List.cons.inj heq).1).2
    | _, .isFalse hs => .isFalse fun heq => hs (List.cons.inj heq).2

end

instance : DecidableEq Json := decEq

/-! ## Objects -/

/-- The members of an object. -/
abbrev Fields := List (String × Json)

namespace Fields

def keys (fields : Fields) : List String := fields.map Prod.fst

def insert (key : String) (value : Json) (fields : Fields) : Fields := OrdMap.insertEntry key value fields

def erase (key : String) (fields : Fields) : Fields := fields.filter fun member => member.1 ≠ key

/-- The members stand in the order of their keys. -/
def Sorted (fields : Fields) : Prop := fields.Pairwise fun a b => a.1 < b.1

variable {fields others : Fields} {key : String} {value : Json}

theorem Sorted.insert (h : fields.Sorted) (key : String) (value : Json) : (fields.insert key value).Sorted :=
  insertEntry_sorted key value h

theorem Sorted.erase (h : fields.Sorted) (key : String) : (fields.erase key).Sorted := h.filter _

theorem Sorted.nodup (h : fields.Sorted) : fields.keys.Nodup := pairwise_map.2 (h.imp fun hlt => hlt.ne)

theorem Sorted.eq_of_perm (h : fields.Sorted) (h' : others.Sorted) (hperm : fields.Perm others) :
    fields = others :=
  hperm.eq_of_pairwise (fun _ _ _ _ hab hba => absurd hab (lt_asymm hba)) h h'

theorem insert_perm (h : key ∉ fields.keys) : (fields.insert key value).Perm ((key, value) :: fields) := by
  induction fields with
  | nil => exact .rfl
  | cons member rest ih =>
    obtain ⟨hne, hrest⟩ := not_or.1 fun hor => h (mem_cons.2 hor)
    unfold insert insertEntry
    split_ifs with hlt
    · exact .rfl
    · exact ((ih hrest).cons member).trans (.swap _ _ _)

variable {name : String}

theorem mem_keys_insert : name ∈ (fields.insert key value).keys ↔ name = key ∨ name ∈ fields.keys := by
  induction fields with
  | nil => rw [insert, insertEntry, keys, map_singleton, mem_singleton]; simp [keys]
  | cons member rest ih =>
    unfold insert insertEntry
    split_ifs with hlt heq
    · simp only [keys, map_cons, mem_cons]
    · simp only [keys, map_cons, mem_cons, ← heq, or_self_left]
    · have hrest : name ∈ (insertEntry key value rest).map Prod.fst ↔ name = key ∨
        name ∈ rest.map Prod.fst := ih
      simp only [keys, map_cons, mem_cons, hrest]
      exact or_left_comm

theorem keys_erase (key : String) (fields : Fields) : (fields.erase key).keys = fields.keys.filter (· ≠ key) := by
  rw [keys, erase, keys, filter_map]
  rfl

theorem erase_eq_self (h : key ∉ fields.keys) : fields.erase key = fields :=
  filter_eq_self.2 fun _ hmem => decide_eq_true fun heq => h (heq ▸ mem_map_of_mem hmem)

theorem erase_insert (h : key ∉ fields.keys) : (fields.insert key value).erase key = fields := by
  induction fields with
  | nil => simp [insert, insertEntry, erase]
  | cons member rest ih =>
    obtain ⟨hne, hrest⟩ := not_or.1 fun hor => h (mem_cons.2 hor)
    unfold insert insertEntry
    split_ifs with hlt
    · rw [erase, filter_cons_of_neg (by simp)]
      exact erase_eq_self h
    · have hkept : decide (member.1 ≠ key) = true := decide_eq_true (Ne.symm hne)
      rw [erase, filter_cons, if_pos hkept]
      exact congrArg (member :: ·) (ih hrest)

theorem mem_of_lookup (h : fields.lookup key = some value) : (key, value) ∈ fields := by
  induction fields with
  | nil => cases h
  | cons member rest ih =>
    rw [lookup_cons] at h
    cases heq : key == member.1 with
    | true =>
      rw [heq] at h
      cases h
      rw [eq_of_beq heq]
      exact mem_cons_self
    | false =>
      rw [heq] at h
      exact mem_cons_of_mem _ (ih h)

theorem Sorted.lookup (h : fields.Sorted) (hmem : (key, value) ∈ fields) : fields.lookup key = some value := by
  induction fields with
  | nil => cases hmem
  | cons member rest ih =>
    obtain ⟨hlt, hrest⟩ := pairwise_cons.1 h
    rw [lookup_cons]
    rcases mem_cons.1 hmem with rfl | hmem
    · simp
    · rw [beq_false_of_ne (hlt _ hmem).ne']
      exact ih hrest hmem

theorem lookup_insert (fields : Fields) (key : String) (value : Json) :
    (fields.insert key value).lookup key = some value := by
  induction fields with
  | nil => simp [insert, insertEntry]
  | cons member rest ih =>
    unfold insert insertEntry
    split_ifs with hlt heq
    · rw [lookup_cons, beq_self_eq_true]
    · rw [lookup_cons, beq_self_eq_true]
    · rw [lookup_cons, beq_false_of_ne heq]
      exact ih

theorem lookup_insert_of_ne (h : name ≠ key) (fields : Fields) (value : Json) : (fields.insert key value).lookup
    name = fields.lookup name := by
  induction fields with
  | nil => simp [insert, insertEntry, lookup_cons, beq_false_of_ne h]
  | cons member rest ih =>
    unfold insert insertEntry
    split_ifs with hlt heq
    · rw [lookup_cons, beq_false_of_ne h]
    · rw [lookup_cons, lookup_cons, ← heq, beq_false_of_ne h]
    · rw [lookup_cons, lookup_cons]
      exact congrArg (fun r => bif name == member.1 then some member.2 else r) ih

variable {members : Fields}

/-- Members with new and different keys, inserted one after the other, are added to the object. -/
theorem foldl_insert_perm (h : (keys members ++ keys fields).Nodup) :
    (members.foldl (fun fields member => fields.insert member.1 member.2) fields).Perm (members ++ fields) := by
  induction members generalizing fields with
  | nil => exact .rfl
  | cons member members ih =>
    obtain ⟨hnew, hnodup⟩ := nodup_cons.1 h
    have hkey : member.1 ∉ fields.keys := fun hmem => hnew (mem_append_right _ hmem)
    have hperm : (fields.insert member.1 member.2).Perm (member :: fields) := insert_perm hkey
    have hkeys : (keys members ++ (fields.insert member.1 member.2).keys).Perm
      (member.1 :: (keys members ++ fields.keys)) :=
      ((hperm.map Prod.fst).append_left _).trans perm_middle
    exact (ih (hkeys.nodup_iff.2 h)).trans ((hperm.append_left _).trans perm_middle)

theorem Sorted.foldl_insert (h : fields.Sorted) (members : Fields) :
    Sorted (members.foldl (fun fields member => fields.insert member.1 member.2) fields) := by
  induction members generalizing fields with
  | nil => exact h
  | cons member members ih => exact ih (h.insert member.1 member.2)

theorem lookup_eq_none (h : key ∉ fields.keys) : fields.lookup key = none := by
  cases hlookup : fields.lookup key with
  | none => rfl
  | some value => exact absurd (mem_map_of_mem (mem_of_lookup hlookup)) h

/-- An insertion changes one member. -/
theorem lookup_insert_eq (fields : Fields) (key name : String) (value : Json) :
    (fields.insert key value).lookup name = if name = key then some value else fields.lookup name := by
  split_ifs with h
  · rw [h, lookup_insert]
  · rw [lookup_insert_of_ne h]

theorem lookup_erase_of_ne (h : name ≠ key) (fields : Fields) :
    (fields.erase key).lookup name = fields.lookup name := by
  induction fields with
  | nil => rfl
  | cons member rest ih =>
    by_cases hkey : member.1 = key
    · have hdropped : ¬decide (member.1 ≠ key) = true := by simpa using hkey
      rw [erase, filter_cons, if_neg hdropped, lookup_cons, beq_false_of_ne (hkey ▸ h)]
      exact ih
    · have hkept : decide (member.1 ≠ key) = true := decide_eq_true hkey
      rw [erase, filter_cons, if_pos hkept, lookup_cons, lookup_cons]
      exact congrArg (fun r => bif name == member.1 then some member.2 else r) ih

theorem lookup_erase (fields : Fields) (key name : String) :
    (fields.erase key).lookup name = if name = key then none else fields.lookup name := by
  split_ifs with h
  · exact lookup_eq_none (by simp [keys_erase, h])
  · rw [lookup_erase_of_ne h]

/-- Objects in order that answer alike are equal. -/
theorem Sorted.ext (h : fields.Sorted) (h' : others.Sorted)
    (hlookup : ∀ key, fields.lookup key = others.lookup key) :
    fields = others := by
  have hnodup : fields.Nodup := h.imp fun hlt heq => hlt.ne (congrArg Prod.fst heq)
  have hnodup' : others.Nodup := h'.imp fun hlt heq => hlt.ne (congrArg Prod.fst heq)
  refine h.eq_of_perm h' ((perm_ext_iff_of_nodup hnodup hnodup').2 fun member => ?_)
  constructor
  · intro hmem
    exact mem_of_lookup ((hlookup _).symm.trans (h.lookup hmem))
  · intro hmem
    exact mem_of_lookup ((hlookup _).trans (h'.lookup hmem))

theorem Sorted.insert_comm (h : fields.Sorted) (hne : name ≠ key) (value other : Json) :
    (fields.insert key value).insert name other = (fields.insert name other).insert key value := by
  refine ((h.insert _ _).insert _ _).ext ((h.insert _ _).insert _ _) fun k => ?_
  simp only [lookup_insert_eq]
  split_ifs with hname hkey
  · exact absurd (hname.symm.trans hkey) hne
  · rfl
  · rfl
  · rfl

theorem Sorted.erase_insert_of_ne (h : fields.Sorted) (hne : name ≠ key) (value : Json) :
    (fields.insert key value).erase name = (fields.erase name).insert key value := by
  refine ((h.insert _ _).erase _).ext ((h.erase _).insert _ _) fun k => ?_
  simp only [lookup_insert_eq, lookup_erase]
  split_ifs with hname hkey
  · exact absurd (hname.symm.trans hkey) hne
  · rfl
  · rfl
  · rfl

theorem Sorted.foldl_insert_comm (h : fields.Sorted) (hkey : key ∉ keys members) (value : Json) :
    members.foldl (fun fields member => fields.insert member.1 member.2) (fields.insert key value) =
    Fields.insert key value (members.foldl (fun fields member => fields.insert member.1 member.2) fields) := by
  induction members generalizing fields with
  | nil => rfl
  | cons member members ih =>
    obtain ⟨hne, hrest⟩ := not_or.1 fun hor => hkey (mem_cons.2 hor)
    rw [foldl_cons, foldl_cons, h.insert_comm (Ne.symm hne)]
    exact ih (h.insert _ _) hrest

end Fields

/-! ## Well-formed values -/

mutual

/-- Every object lists its members in order, as a map does. -/
def Ordered : Json → Prop
  | arr items => OrderedItems items
  | obj fields => Fields.Sorted fields ∧ OrderedFields fields
  | _ => True

def OrderedItems : List Json → Prop
  | [] => True
  | item :: items => item.Ordered ∧ OrderedItems items

def OrderedFields : List (String × Json) → Prop
  | [] => True
  | (_, value) :: fields => value.Ordered ∧ OrderedFields fields

end

mutual

/-- No object, at any level, has a member whose key is in the list. -/
def Free (names : List String) : Json → Prop
  | arr items => FreeItems names items
  | obj fields => FreeFields names fields
  | _ => True

def FreeItems (names : List String) : List Json → Prop
  | [] => True
  | item :: items => item.Free names ∧ FreeItems names items

def FreeFields (names : List String) : List (String × Json) → Prop
  | [] => True
  | (key, value) :: fields => (key ∉ names ∧ value.Free names) ∧ FreeFields names fields

end

mutual

variable {names : List String}

theorem free_iff : ∀ value : Json, value.Free names ↔ ∀ name ∈ names, value.Free [name]
  | obj fields => freeFields_iff fields
  | arr items => freeItems_iff items
  | null | bool _ | int _ | float _ | str _ => iff_of_true trivial fun _ _ => trivial

theorem freeItems_iff : ∀ items : List Json, FreeItems names items ↔ ∀ name ∈ names, FreeItems [name] items
  | [] => iff_of_true trivial fun _ _ => trivial
  | item :: items => by
    simp only [FreeItems]
    rw [free_iff item, freeItems_iff items, ← forall₂_and]

theorem freeFields_iff : ∀ fields : List (String × Json), FreeFields names fields ↔ ∀ name ∈ names,
    FreeFields [name] fields
  | [] => iff_of_true trivial fun _ _ => trivial
  | (key, value) :: fields => by
    simp only [FreeFields, mem_singleton]
    rw [free_iff value, freeFields_iff fields, forall₂_and, forall₂_and]
    refine and_congr_left fun _ => and_congr_left fun _ => ⟨fun h name hname heq => h (heq ▸ hname),
      fun h hkey => ?_⟩
    exact h key hkey rfl

end

theorem Free.mono {names fewer : List String} {value : Json} (h : value.Free names) (hsub : fewer ⊆ names) :
    value.Free fewer :=
  (free_iff value).2 fun name hname => (free_iff value).1 h name (hsub hname)

mutual

def depth : Json → ℕ
  | arr items => depthItems items + 1
  | obj fields => depthFields fields + 1
  | _ => 1

def depthItems : List Json → ℕ
  | [] => 0
  | item :: items => max item.depth (depthItems items)

def depthFields : List (String × Json) → ℕ
  | [] => 0
  | (_, value) :: fields => max value.depth (depthFields fields)

end

end Json
