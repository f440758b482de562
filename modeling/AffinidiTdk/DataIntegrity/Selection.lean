/-
The parts that a selection is made of: what stands at a position of the part that some paths select, with
holes, and what writing a position, starting a node and adding the members of an object make of it.
-/
import AffinidiTdk.DataIntegrity.Pointers
import AffinidiTdk.Lib.Subdocument

namespace AffinidiTdk.DataIntegrity.Pointers

open Json Fields

/-! ## Positions -/

/-- An id that is no blank node. -/
def namedId (value : Json) : Bool := value.asStr.any fun id => !Text.startsWith "_:" id

/-- A node carries along its ids that are no blank nodes, and its types. -/
def carried (key : String) (value : Json) : Bool :=
  (key == "@id" || key == "id") && namedId value || (key == "@type" || key == "type")

/-- What the paths select, with the source's own reading of a position in an array. -/
def reached (value : Json) (paths : List Path) : Json := value.extract carried parseIndex true paths

theorem indexValue_eq_child (value : Json) (path : String) : indexValue value path =
    value.child parseIndex path := by
  cases value <;> rfl

/-! ## Writing a position -/

theorem setItem_setItem (items : List Json) (i : ℕ) (value other : Json) :
    setItem (setItem items i value) i other = setItem items i other := by
  have hlength : (setItem items i value).length = max items.length (i + 1) := by
    rw [setItem, List.length_set, List.length_append, List.length_replicate]
    omega
  have hnone : i + 1 - (setItem items i value).length = 0 := by omega
  rw [setItem, hnone, List.replicate_zero, List.append_nil, setItem, List.set_set, setItem]

theorem getElem?_setItem (items : List Json) (i : ℕ) (value : Json) : (setItem items i value)[i]? = some value := by
  rw [setItem, List.getElem?_set_self]
  rw [List.length_append, List.length_replicate]
  omega

variable {items : List Json} {i : ℕ}

theorem setItem_of_getElem? {value : Json} (h : items[i]? = some value) : setItem items i value = items := by
  obtain ⟨hlt, heq⟩ := List.getElem?_eq_some_iff.1 h
  have hnone : i + 1 - items.length = 0 := by omega
  rw [setItem, hnone, List.replicate_zero, List.append_nil, ← heq, List.set_getElem_self]

theorem setItem_nil_zero (value : Json) : setItem [] 0 value = [value] := rfl

theorem setItem_cons_zero (item : Json) (items : List Json) (value : Json) :
    setItem (item :: items) 0 value = value :: items := by
  rw [setItem, List.length_cons, show 0 + 1 - (items.length + 1) = 0 by omega, List.replicate_zero, List.append_nil]
  rfl

theorem setItem_nil_succ (i : ℕ) (value : Json) : setItem [] (i + 1) value = .null :: setItem [] i value := rfl

theorem setItem_cons_succ (item : Json) (items : List Json) (i : ℕ) (value : Json) :
    setItem (item :: items) (i + 1) value = item :: setItem items i value := by
  rw [setItem, setItem, List.length_cons, Nat.add_sub_add_right]
  rfl

theorem extractItems_cons {item : Json} {token : String} {path : Path} {paths : List Path} {n : ℕ}
    (hindex : parseIndex token = some (i + n)) (hitem : items[n]? = some item) : extractItems carried parseIndex
    true i items ((token :: path) :: paths) = setItem (extractItems carried parseIndex true i items paths) n
    (reached item (path :: rests (parseIndex · == some (i + n)) paths)) := by
  induction items generalizing i n with
  | nil => cases hitem
  | cons head items ih =>
    cases n with
    | zero =>
      cases hitem
      rw [Nat.add_zero] at hindex ⊢
      have hlater : extractItems carried parseIndex true (i + 1) items ((token :: path) :: paths) =
          extractItems carried parseIndex true (i + 1) items paths :=
        extractItems_cons_of_not fun m _ heq => by
          have := Option.some.inj (hindex.symm.trans heq)
          omega
      have hhead : (parseIndex token == some i) = true := beq_iff_eq.2 hindex
      have hrests := @rests_cons_of_names (parseIndex · == some i) token hhead path paths
      rw [extractItems, hrests, if_neg (by simp), hlater, extractItems]
      split_ifs with hnone hhole
      · rw [setItem_cons_zero]
        rfl
      · have hnil : extractItems carried parseIndex true (i + 1) items paths = [] := by simpa using hhole
        rw [hnil, setItem_nil_zero]
        rfl
      · rw [setItem_cons_zero]
        rfl
    | succ n =>
      have hhead : (parseIndex token == some i) = false := beq_false_of_ne fun heq => by
        have := Option.some.inj (hindex.symm.trans heq)
        omega
      rw [show i + (n + 1) = i + 1 + n by omega] at hindex ⊢
      have hrest := ih hindex hitem
      have hne : ¬(extractItems carried parseIndex true (i + 1) items ((token :: path) :: paths)).isEmpty = true :=
        fun hnil => by
          have hsome := getElem?_setItem (extractItems carried parseIndex true (i + 1) items paths) n
            (reached item (path :: rests (parseIndex · == some (i + 1 + n)) paths))
          rw [← hrest, List.isEmpty_iff.1 hnil] at hsome
          cases hsome
      rw [extractItems, @rests_cons_of_not (parseIndex · == some i) token hhead path paths]
      by_cases hnone : (rests (parseIndex · == some i) paths).isEmpty = true
      · rw [if_pos hnone, if_pos (by simpa using hne), hrest, extractItems, if_pos hnone]
        split_ifs with hhole
        · rw [setItem_cons_succ]
        · have hnil : extractItems carried parseIndex true (i + 1) items paths = [] := by simpa using hhole
          rw [hnil, setItem_nil_succ]
      · rw [if_neg hnone, hrest, extractItems, if_neg hnone, setItem_cons_succ]

/-! ## One step into a value -/

/-- The tokens that name the same member or item as `token`. -/
def sameStep : Json → String → String → Bool
  | .arr _, token, other => parseIndex other == parseIndex token
  | _, token, other => other == token

/-- A member that its node carries along. -/
def keptBy : Json → String → Json → Bool
  | .obj _, token, inner => carried token inner
  | _, _, _ => false

/-- The item is not gone through, and a later one is. -/
def Skipped : Json → List Path → String → Prop
  | .arr items, paths, token => ∃ i n, parseIndex token = some i ∧ i < n ∧ items[n]?.isSome ∧
      rests (parseIndex · == some n) paths ≠ []
  | _, _, _ => False

variable {value inner : Json} {token : String} {path : Path} {paths : List Path}

theorem ordered_of_mem {fields : Fields} (h : OrderedFields fields) {key : String}
    (hmem : (key, value) ∈ fields) : value.Ordered := by
  induction fields with
  | nil => cases hmem
  | cons member fields ih =>
    rw [OrderedFields] at h
    rcases List.mem_cons.1 hmem with heq | hrest
    · cases heq
      exact h.1
    · exact ih h.2 hrest

theorem ordered_of_getElem? (h : OrderedItems items) (hi : items[i]? = some value) : value.Ordered := by
  induction items generalizing i with
  | nil => cases hi
  | cons item items ih =>
    rw [OrderedItems] at h
    cases i with
    | zero => cases hi; exact h.1
    | succ i => exact ih h.2 hi

theorem ordered_of_indexValue (hvalue : value.Ordered) (h : indexValue value token = some inner) :
    inner.Ordered := by
  cases value with
  | obj fields =>
    rw [Json.Ordered] at hvalue
    exact ordered_of_mem hvalue.2 (mem_of_lookup h)
  | arr items =>
    rw [Json.Ordered] at hvalue
    obtain ⟨i, -, hi⟩ := Option.bind_eq_some_iff.1 h
    exact ordered_of_getElem? hvalue hi
  | _ => cases h

theorem reached_whole (h : [] ∈ paths) (value : Json) : reached value paths = value := extract_whole h value

theorem reached_obj (h : [] ∉ paths) (fields : Fields) :
    reached (.obj fields) paths = .obj (extractFields carried parseIndex true fields paths) := by
  rw [reached, extract, if_neg h]

theorem reached_arr (h : [] ∉ paths) (items : List Json) :
    reached (.arr items) paths = .arr (extractItems carried parseIndex true 0 items paths) := by
  rw [reached, extract, if_neg h]

theorem reached_cons (hvalue : value.Ordered) (hnil : [] ∉ paths) (h : indexValue value token = some inner) :
    reached value ((token :: path) :: paths) = setIndex (reached value paths) token
      (if keptBy value token inner then inner else reached inner (path :: rests (sameStep value token) paths)) := by
  have hnil' : [] ∉ (token :: path) :: paths := fun hmem => by
    rcases List.mem_cons.1 hmem with heq | hmem
    · cases heq
    · exact hnil hmem
  cases value with
  | obj fields =>
    rw [Json.Ordered] at hvalue
    have hsorted := hvalue.1
    rw [reached_obj hnil, reached_obj hnil', setIndex]
    refine congrArg Json.obj ((extractFields_sorted hsorted).ext ((extractFields_sorted hsorted).insert _ _) ?_)
    intro key
    rw [lookup_insert_eq, lookup_extractFields hsorted, lookup_extractFields hsorted]
    by_cases hkey : key = token
    · subst hkey
      rw [if_pos rfl, show fields.lookup key = some inner from h]
      show (if carried key inner = true then _ else _) = some (if carried key inner = true then _ else _)
      have hrests := @rests_cons_of_names (· == key) key (beq_self_eq_true key) path paths
      rw [hrests]
      split_ifs with hkept hnone
      · rfl
      · cases hnone
      · rfl
    · rw [if_neg hkey]
      have hrests := @rests_cons_of_not (· == key) token (beq_false_of_ne fun heq => hkey heq.symm) path paths
      rw [hrests]
  | arr items =>
    obtain ⟨i, hi, hitem⟩ := Option.bind_eq_some_iff.1 h
    have hstep : sameStep (.arr items) token = (parseIndex · == some i) := by
      funext other
      show (parseIndex other == parseIndex token) = _
      rw [hi]
    have hindex : parseIndex token = some (0 + i) := by rw [Nat.zero_add, hi]
    rw [reached_arr hnil, reached_arr hnil', extractItems_cons hindex hitem, Nat.zero_add, hstep, setIndex, hi]
    rfl
  | _ => cases h

theorem reached_cons_of_none (h : indexValue value token = none) :
    reached value ((token :: path) :: paths) = reached value paths := by
  by_cases hnil : [] ∈ paths
  · rw [reached_whole hnil, reached_whole (List.mem_cons_of_mem _ hnil)]
  have hnil' : [] ∉ (token :: path) :: paths := fun hmem => by
    rcases List.mem_cons.1 hmem with heq | hmem
    · cases heq
    · exact hnil hmem
  cases value with
  | obj fields =>
    rw [reached_obj hnil, reached_obj hnil', extractFields_cons_of_not]
    intro hmem
    obtain ⟨member, hmember, heq⟩ := List.mem_map.1 hmem
    have hsome := List.lookup_isSome_iff.2 ⟨member, hmember, beq_iff_eq.2 heq.symm⟩
    rw [show fields.lookup token = none from h] at hsome
    cases hsome
  | arr items =>
    rw [reached_arr hnil, reached_arr hnil', extractItems_cons_of_not]
    intro n hn heq
    rw [Nat.zero_add] at heq
    rw [show indexValue (.arr items) token = (parseIndex token).bind fun i => items[i]? from rfl, heq] at h
    rw [show items[n]? = none from h] at hn
    cases hn
  | _ =>
    unfold reached
    simp only [extract, if_neg hnil, if_neg hnil']

theorem indexValue_reached (hvalue : value.Ordered) (hnil : [] ∉ paths) (h : indexValue value token = some inner) :
    if keptBy value token inner then indexValue (reached value paths) token = some inner else if rests
    (sameStep value token) paths = [] then indexValue (reached value paths) token = none ∨
    indexValue (reached value paths) token = some .null ∧ Skipped value paths token else indexValue
    (reached value paths) token = some (reached inner (rests (sameStep value token) paths)) := by
  cases value with
  | obj fields =>
    rw [Json.Ordered] at hvalue
    rw [reached_obj hnil, show keptBy (.obj fields) token inner = carried token inner from rfl,
      show sameStep (.obj fields) token = (· == token) from rfl]
    have hlookup := @lookup_extractFields carried parseIndex true paths fields hvalue.1 token
    rw [show fields.lookup token = some inner from h] at hlookup
    change _ = (if carried token inner = true then _ else _) at hlookup
    simp only [List.isEmpty_iff] at hlookup
    split_ifs at hlookup ⊢ with hkept hnone
    · exact hlookup
    · exact .inl hlookup
    · exact hlookup
  | arr items =>
    obtain ⟨i, hi, hitem⟩ := Option.bind_eq_some_iff.1 h
    have hstep : sameStep (.arr items) token = (parseIndex · == some i) := by
      funext other
      show (parseIndex other == parseIndex token) = _
      rw [hi]
    have hread : indexValue (reached (.arr items) paths) token =
        (extractItems carried parseIndex true 0 items paths)[i]? := by
      rw [reached_arr hnil, indexValue, hi]
      rfl
    rw [hread, hstep, if_neg (show ¬keptBy (.arr items) token inner = true from Bool.false_ne_true)]
    split_ifs with hnone
    · have hplace := @getElem?_extractItems_hole carried parseIndex paths items 0 i
        (by rw [Nat.zero_add]; exact hnone)
      refine hplace.imp id fun hhole => ⟨hhole.1, i, ?_⟩
      obtain ⟨n, hlt, hn, hthrough⟩ := hhole.2
      rw [Nat.zero_add] at hthrough
      exact ⟨n, hi, hlt, hn, hthrough⟩
    · have hplace := @getElem?_extractItems carried parseIndex paths items inner 0 i hitem
        (by rw [Nat.zero_add]; exact hnone)
      rw [Nat.zero_add] at hplace
      exact hplace
  | _ => cases h

/-! ## Writing and reading a position -/

/-- A container in which a token can name something: an object, or an array whose position it is. -/
def Indexes (selected : Json) (token : String) : Prop :=
  match selected with
  | .obj _ => True
  | .arr _ => (parseIndex token).isSome
  | _ => False

theorem indexes_reached (hnil : [] ∉ paths) (h : indexValue value token = some inner) :
    Indexes (reached value paths) token := by
  cases value with
  | obj fields => rw [reached_obj hnil]; exact trivial
  | arr items =>
    obtain ⟨i, hi, -⟩ := Option.bind_eq_some_iff.1 h
    rw [reached_arr hnil]
    exact Option.isSome_of_eq_some hi
  | _ => cases h

theorem indexValue_setIndex {selected : Json} (h : Indexes selected token) (value : Json) :
    indexValue (setIndex selected token value) token = some value := by
  cases selected with
  | obj fields => exact lookup_insert fields token value
  | arr items =>
    obtain ⟨i, hi⟩ := Option.isSome_iff_exists.1 h
    rw [setIndex, hi, indexValue, hi]
    exact getElem?_setItem items i value
  | _ => cases h

theorem insert_insert (fields : Fields) (key : String) (value other : Json) :
    Fields.insert key other (Fields.insert key value fields) = Fields.insert key other fields := by
  unfold Fields.insert
  induction fields with
  | nil => simp [OrdMap.insertEntry]
  | cons member fields ih =>
    rw [OrdMap.insertEntry, OrdMap.insertEntry]
    split_ifs with hlt heq
    · simp [OrdMap.insertEntry]
    · simp [OrdMap.insertEntry]
    · rw [OrdMap.insertEntry, if_neg hlt, if_neg heq, ih]

theorem setIndex_setIndex (selected : Json) (token : String) (value other : Json) :
    setIndex (setIndex selected token value) token other = setIndex selected token other := by
  cases selected with
  | obj fields => exact congrArg Json.obj (insert_insert fields token value other)
  | arr items =>
    cases hi : parseIndex token with
    | none =>
      have hset (items : List Json) (value : Json) : setIndex (.arr items) token value = .arr items := by
        rw [setIndex, hi]
      rw [hset, hset]
    | some i =>
      have hset (items : List Json) (value : Json) : setIndex (.arr items) token value =
        .arr (setItem items i value) := by
        rw [setIndex, hi]
      rw [hset, hset, hset, setItem_setItem]
  | _ => rfl

theorem setIndex_indexValue (hvalue : value.Ordered) (h : indexValue value token = some inner) :
    setIndex value token inner = value := by
  cases value with
  | obj fields =>
    rw [Json.Ordered] at hvalue
    refine congrArg Json.obj ((hvalue.1.insert _ _).ext hvalue.1 fun key => ?_)
    rw [lookup_insert_eq]
    split_ifs with hkey
    · subst hkey
      exact h.symm
    · rfl
  | arr items =>
    obtain ⟨i, hi, hitem⟩ := Option.bind_eq_some_iff.1 h
    rw [setIndex, hi]
    exact congrArg Json.arr (setItem_of_getElem? hitem)
  | _ => cases h

/-! ## Starting a node -/

theorem lookup_carryType (source : Json) (selection : Fields) (typeKey key : String) :
    (carryType source selection typeKey).lookup key =
      if key = typeKey then (source.get? key).or (selection.lookup key) else selection.lookup key := by
  unfold carryType
  split_ifs with hkey
  · subst hkey
    cases source.get? key with
    | none => rfl
    | some t => exact lookup_insert _ _ _
  · cases source.get? typeKey with
    | none => rfl
    | some t => exact lookup_insert_of_ne hkey _ _

theorem lookup_carryId (source : Json) (selection : Fields) (idKey key : String) :
    (carryId source selection idKey).lookup key = if key = idKey then ((source.get? key).filter namedId).or
    (selection.lookup key) else selection.lookup key := by
  unfold carryId
  split_ifs with hkey
  · subst hkey
    cases source.get? key with
    | none => rfl
    | some member =>
      cases member with
      | str id =>
        show List.lookup key (if Text.startsWith "_:" id = true then _ else _) =
          (if (!Text.startsWith "_:" id) = true then some _ else none).or _
        cases Text.startsWith "_:" id with
        | true => rfl
        | false => exact lookup_insert _ _ _
      | _ => rfl
  · cases (source.get? idKey).bind asStr with
    | none => rfl
    | some id =>
      show List.lookup key (if _ then _ else _) = _
      split_ifs
      · rfl
      · exact lookup_insert_of_ne hkey _ _

theorem lookup_initSelection (selection : Fields) (source : Json) (key : String) :
    (initSelection selection source).lookup key =
      ((source.get? key).filter (carried key)).or (selection.lookup key) := by
  unfold initSelection
  simp only [List.foldl_cons, List.foldl_nil, lookup_carryType, lookup_carryId]
  have hall (member : Option Json) : member.filter (fun _ => true) = member := by cases member <;> rfl
  have hnone (member : Option Json) : member.filter (fun _ => false) = none := by cases member <;> rfl
  rcases eq_or_ne key "type" with rfl | htype
  · rw [show carried "type" = fun _ => true from funext fun member => by simp [carried], hall]
    rfl
  rcases eq_or_ne key "@type" with rfl | htype'
  · rw [show carried "@type" = fun _ => true from funext fun member => by simp [carried], hall]
    rfl
  rcases eq_or_ne key "id" with rfl | hid
  · rw [show carried "id" = namedId from funext fun member => by simp [carried]]
    rfl
  rcases eq_or_ne key "@id" with rfl | hid'
  · rw [show carried "@id" = namedId from funext fun member => by simp [carried]]
    rfl
  have hcarried : carried key = fun _ => false := by
    funext member
    rw [carried, beq_false_of_ne htype, beq_false_of_ne htype', beq_false_of_ne hid, beq_false_of_ne hid']
    rfl
  rw [if_neg htype, if_neg htype', if_neg hid, if_neg hid', hcarried, hnone]
  rfl

theorem initSelection_sorted {selection : Fields} (h : selection.Sorted) (source : Json) :
    Sorted (initSelection selection source) := by
  have hid {selection : Fields} (h : selection.Sorted) (idKey : String) :
      Sorted (carryId source selection idKey) := by
    unfold carryId
    cases (source.get? idKey).bind asStr with
    | none => exact h
    | some id =>
      show Sorted (if _ then _ else _)
      split_ifs
      · exact h
      · exact h.insert _ _
  have htype {selection : Fields} (h : selection.Sorted) (typeKey : String) :
      Sorted (carryType source selection typeKey) := by
    unfold carryType
    cases source.get? typeKey with
    | none => exact h
    | some t => exact h.insert _ _
  exact htype (htype (hid (hid h "@id") "id") "@type") "type"

theorem rests_nil (names : String → Bool) : rests names [] = [] := rfl

theorem intermediate_eq (hsource : inner.Ordered) (path : String) (selected : Json) :
    (if inner.asArray.isSome then setIndex selected path (.arr [])
      else setIndex selected path (.obj (initSelection [] inner))) = setIndex selected path (reached inner []) := by
  cases inner with
  | arr items =>
    rw [reached_arr (fun hmem => by cases hmem)]
    have hempty : ∀ (items : List Json) (i : ℕ), extractItems carried parseIndex true i items [] = [] := by
      intro items
      induction items with
      | nil => intro i; rw [extractItems]
      | cons item items ih => intro i; rw [extractItems, rests_nil, ih]; rfl
    rw [hempty]
    rfl
  | obj fields =>
    rw [Json.Ordered] at hsource
    rw [reached_obj (fun hmem => by cases hmem)]
    refine congrArg (fun fields => setIndex selected path (.obj fields))
      ((initSelection_sorted .nil _).ext (extractFields_sorted hsource.1) fun key => ?_)
    rw [lookup_initSelection, lookup_extractFields hsource.1]
    show ((fields.lookup key).filter (carried key)).or none = _
    cases fields.lookup key with
    | none => rfl
    | some member =>
      show (if carried key member = true then some member else none).or none =
        if carried key member = true then some member else none
      split_ifs <;> rfl
  | _ => rfl

/-! ## Adding what is already there -/

variable {members : Fields}

theorem lookup_foldl_insert (h : members.Sorted) (fields : Fields) (key : String) :
    (members.foldl (fun fields member => insert member.1 member.2 fields) fields).lookup key =
    (members.lookup key).or (fields.lookup key) := by
  induction members generalizing fields with
  | nil => rfl
  | cons member members ih =>
    obtain ⟨hlt, hrest⟩ := List.pairwise_cons.1 h
    rw [List.foldl_cons, ih hrest, lookup_insert_eq, List.lookup_cons]
    by_cases hkey : key = member.1
    · subst hkey
      have hnone : members.lookup member.1 = none := lookup_eq_none fun hmem => by
        obtain ⟨other, hother, heq⟩ := List.mem_map.1 hmem
        exact (hlt other hother).ne heq.symm
      rw [if_pos rfl, hnone, beq_self_eq_true]
      rfl
    · rw [if_neg hkey, beq_false_of_ne hkey]

theorem foldl_insert_eq {fields : Fields} (hmembers : members.Sorted) (hfields : fields.Sorted)
    (hkeys : ∀ key ∈ members.keys, key ∈ fields.keys) :
    fields.foldl (fun merged member => insert member.1 member.2 merged) members = fields := by
  refine (hmembers.foldl_insert fields).ext hfields fun key => ?_
  rw [lookup_foldl_insert hfields]
  cases hkey : fields.lookup key with
  | some member => rfl
  | none =>
    refine lookup_eq_none fun hmem => ?_
    obtain ⟨member, hmember, heq⟩ := List.mem_map.1 (hkeys key hmem)
    have hsome := List.lookup_isSome_iff.2 ⟨member, hmember, beq_iff_eq.2 heq.symm⟩
    rw [hkey] at hsome
    cases hsome

theorem mergeValue_eq {selected : Json} (hinner : inner.Ordered)
    (h : indexValue selected token = none ∨ indexValue selected token = some .null ∨
      ∃ paths, indexValue selected token = some (reached inner paths)) :
    mergeValue selected token inner = inner := by
  cases inner with
  | obj fields =>
    rw [Json.Ordered] at hinner
    rw [mergeValue]
    refine congrArg Json.obj (foldl_insert_eq ?_ hinner.1 ?_)
    · rcases h with h | h | ⟨paths, h⟩
      · rw [h]; exact .nil
      · rw [h]; exact .nil
      · rw [h]
        by_cases hnil : [] ∈ paths
        · rw [reached_whole hnil]; exact hinner.1
        · rw [reached_obj hnil]; exact extractFields_sorted hinner.1
    · intro key hkey
      rcases h with h | h | ⟨paths, h⟩
      · rw [h] at hkey; cases hkey
      · rw [h] at hkey; cases hkey
      · rw [h] at hkey
        by_cases hnil : [] ∈ paths
        · rw [reached_whole hnil] at hkey; exact hkey
        · rw [reached_obj hnil] at hkey
          obtain ⟨member, hmember, rfl⟩ := List.mem_map.1 hkey
          obtain ⟨source, hsource⟩ := mem_of_mem_extractFields hmember
          exact List.mem_map.2 ⟨_, hsource, rfl⟩
  | _ => rfl

end AffinidiTdk.DataIntegrity.Pointers
