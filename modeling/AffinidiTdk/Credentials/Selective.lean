/-
Selective disclosure is exact: whatever subset of the disclosures is shown, the issued payload resolves
to the claims without the paths whose disclosures are missing. The proof walks the claims, the frame
and the issued value together, and at each object compares the members that are restored with those
that the specification keeps, whatever the order in which they came.
-/
import AffinidiTdk.Credentials.Paths
import AffinidiTdk.Credentials.Verifier

namespace AffinidiTdk.Credentials

open Fallible Json.Fields List Option Json
open Json (Fields)

/-! ## Resolution of what was issued -/

section Resolution

variable {codec : JsonCodec} {hasher : Hasher} {shown : List Disclosure} {drawn later : Drawn}

/-- Lookups among the shown disclosures go by what was drawn: a digest of a disclosure finds it if it is
shown, a decoy finds nothing. -/
structure Known (shown : List Disclosure) (drawn : Drawn) : Prop where
  disclosures : ∀ d ∈ drawn.disclosures, disclosureOf shown d.digest = if d ∈ shown then some d else none
  decoys : ∀ digest ∈ drawn.decoys, disclosureOf shown digest = none

theorem Known.left (h : Known shown (drawn.append later)) : Known shown drawn where
  disclosures d hd := h.disclosures d (mem_append_left _ hd)
  decoys digest hdigest := h.decoys digest (mem_append_left _ hdigest)

theorem Known.right (h : Known shown (drawn.append later)) : Known shown later where
  disclosures d hd := h.disclosures d (mem_append_right _ hd)
  decoys digest hdigest := h.decoys digest (mem_append_right _ hdigest)

theorem Known.pop {d : Disclosure} (h : Known shown (drawn.push d)) : Known shown drawn where
  disclosures other hother := h.disclosures other (mem_append_left _ hother)
  decoys := h.decoys

theorem Known.last {d : Disclosure} (h : Known shown (drawn.push d)) :
    disclosureOf shown d.digest = if d ∈ shown then some d else none :=
  h.disclosures d (mem_append_right _ mem_cons_self)

/-- The keys that resolution reads. -/
def digestKeys : List String := ["_sd", "..."]

variable {fields : Fields}

theorem not_mem_keys {names : List String} (h : FreeFields names fields) {name : String}
    (hname : name ∈ names) : name ∉ fields.keys := by
  induction fields with
  | nil => exact not_mem_nil
  | cons member fields ih =>
    obtain ⟨⟨hkey, -⟩, hfields⟩ := h
    exact not_mem_cons_of_ne_of_not_mem (fun heq => hkey (heq ▸ hname)) (ih hfields)

theorem sdDigests_eq_nil (h : "_sd" ∉ fields.keys) : sdDigests fields = [] := by
  rw [sdDigests, lookup_eq_none h]
  rfl

theorem insertDisclosed_eq_self (h : "_sd" ∉ fields.keys) : insertDisclosed shown fields = fields := by
  rw [insertDisclosed, sdDigests_eq_nil h]
  exact erase_eq_self h

theorem placeholder_obj (h : "..." ∉ fields.keys) : placeholder (.obj fields) = none := by
  rw [placeholder, get?, lookup_eq_none h]
  rfl

variable {value : Json}

theorem placeholder_of_free (h : value.Free digestKeys) : placeholder value = none := by
  cases value with
  | obj fields => exact placeholder_obj (not_mem_keys h (by decide))
  | null | bool | int | float | str | arr => rfl

theorem element_of_placeholder_eq_none (h : placeholder value = none) : element shown value = some value := by
  rw [element, h]

theorem exists_fuel {n fuel : ℕ} (h : n + 1 ≤ fuel) : ∃ rest, fuel = rest + 1 ∧ n ≤ rest :=
  ⟨fuel - 1, by omega, by omega⟩

mutual

theorem resolveValue_self : ∀ (value : Json) {fuel : ℕ}, value.Free digestKeys → value.depth ≤ fuel →
    resolveValue shown fuel value = some value
  | .obj fields, fuel, h, hfuel => by
    obtain ⟨fuel, rfl, hdepth⟩ := exists_fuel hfuel
    rw [resolveValue, resolveObject, insertDisclosed_eq_self (not_mem_keys h (by decide)),
      resolveMembers_self fields h hdepth]
    rfl
  | .arr items, fuel, h, hfuel => by
    obtain ⟨fuel, rfl, hdepth⟩ := exists_fuel hfuel
    rw [resolveValue, resolveArray_self items h hdepth]
    rfl
  | .null, fuel + 1, _, _ | .bool _, fuel + 1, _, _ | .int _, fuel + 1, _, _ | .float _, fuel + 1, _, _
  | .str _, fuel + 1, _, _ => rfl

theorem resolveMembers_self : ∀ (fields : List (String × Json)) {fuel : ℕ}, FreeFields digestKeys fields →
    depthFields fields ≤ fuel → resolveMembers (resolveValue shown fuel) fields = some fields
  | [], _, _, _ => rfl
  | (key, value) :: fields, fuel, ⟨⟨_, hvalue⟩, hfields⟩, hfuel => by
    have hrest := resolveMembers_self fields hfields (le_trans (le_max_right _ _) hfuel)
    rw [resolveMembers, mapM_cons, resolveValue_self value hvalue (le_trans (le_max_left _ _) hfuel)]
    rw [resolveMembers] at hrest
    rw [hrest]
    rfl

theorem resolveArray_self : ∀ (items : List Json) {fuel : ℕ}, FreeItems digestKeys items →
    depthItems items ≤ fuel → resolveArray shown (resolveValue shown fuel) items = some items
  | [], _, _, _ => rfl
  | item :: items, fuel, ⟨hitem, hitems⟩, hfuel => by
    have hrest := resolveArray_self items hitems (le_trans (le_max_right _ _) hfuel)
    rw [resolveArray] at hrest ⊢
    rw [filterMap_cons, element_of_placeholder_eq_none (placeholder_of_free hitem), mapM_cons,
      resolveValue_self item hitem (le_trans (le_max_left _ _) hfuel)]
    simp only [hrest]
    rfl

end

variable {recur : Json → Option Json}

theorem resolveMembers_cons {key : String} {r : Json} {rs : Fields} (h : recur value = some r)
    (hrest : resolveMembers recur fields = some rs) : resolveMembers recur ((key, value) :: fields) =
    some ((key, r) :: rs) := by
  rw [resolveMembers] at hrest ⊢
  rw [mapM_cons, h, hrest]
  rfl

variable {items : List Json}

theorem resolveArray_cons {item r : Json} {rs : List Json} (hitem : element shown item = some value)
    (h : recur value = some r) (hrest : resolveArray shown recur items = some rs) :
    resolveArray shown recur (item :: items) = some (r :: rs) := by
  rw [resolveArray] at hrest ⊢
  rw [filterMap_cons, hitem]
  simp only [mapM_cons, h, hrest]
  rfl

theorem resolveArray_cons_none {item : Json} {rs : List Json} (hitem : element shown item = none)
    (hrest : resolveArray shown recur items = some rs) : resolveArray shown recur (item :: items) = some rs := by
  rw [resolveArray, filterMap_cons, hitem]
  exact hrest

variable {digests : List String}

theorem disclosedMembers_cons_of_known {d : Disclosure} {name : String} (hname : d.claimName = some name)
    (h : disclosureOf shown d.digest = if d ∈ shown then some d else none) :
    disclosedMembers shown (d.digest :: digests) = (if d ∈ shown then [(name, d.claimValue)] else []) ++
    disclosedMembers shown digests := by
  rw [disclosedMembers, filterMap_cons, h]
  split_ifs
  · simp [hname, disclosedMembers]
  · rfl

variable {rng : Rng} {frame : Option Fields} {members : Processed Members}

theorem keys_result (h : processMembers codec hasher rng frame fields = .ok members) :
    members.value.result.keys.Sublist fields.keys := by
  induction fields generalizing rng members with
  | nil =>
    cases h
    exact List.Sublist.refl _
  | cons member fields ih =>
    obtain ⟨sub, later, -, ⟨-, d, -, hlater, rfl⟩ | ⟨-, hlater, rfl⟩⟩ := processMembers_cons h
    · exact (ih hlater).cons _
    · exact (ih hlater).cons_cons _

theorem placeholder_processed {frame : Json} {processed : Processed Json} (hfree : value.Free digestKeys)
    (h : processValue codec hasher rng frame value = .ok processed) : placeholder processed.value = none := by
  cases value with
  | obj fields =>
    obtain ⟨object, hobject, rfl⟩ := processValue_obj h
    obtain ⟨members, decoys, hmembers, -, digests, -, hvalue⟩ := processObjectOf_eq_ok hobject
    have hkeys : "..." ∉ members.value.result.keys := fun hmem =>
      not_mem_keys hfree (by decide) ((keys_result hmembers).subset hmem)
    refine placeholder_obj ?_
    rw [hvalue]
    split_ifs
    · exact hkeys
    · exact fun hmem => (mem_keys_insert.1 hmem).elim (by decide) hkeys
  | arr items =>
    obtain ⟨array, harray, rfl⟩ := processValue_arr h
    rfl
  | null | bool | int | float | str =>
    cases h
    rfl

/-- What is restored of an issued object: its decoys find nothing, so the members of the shown
disclosures join those that stayed. -/
theorem insertDisclosed_issued {object : Processed Fields} {decoys : List String} {restored : Fields}
    (hmembers : processMembers codec hasher rng frame fields = .ok members) (hsorted : Sorted fields)
    (hsd : "_sd" ∉ keys fields) (hdecoys : ∀ digest ∈ decoys, disclosureOf shown digest = none)
    (hdigests : digests.Perm (members.value.sdDigests ++ decoys))
    (hvalue : object.value = if digests = [] then members.value.result else insert "_sd"
    (.arr (digests.map .str)) members.value.result)
    (hperm : restored.Perm (disclosedMembers shown members.value.sdDigests ++ members.value.result))
    (hkeys : restored.keys.Sublist (keys fields)) : insertDisclosed shown object.value = restored ∧
    object.value.Sorted ∧ ∀ name ∈ keys (disclosedMembers shown (sdDigests object.value)), name ∈
    keys fields := by
  have hresult := keys_result hmembers
  have hsdresult : "_sd" ∉ members.value.result.keys := fun hmem => hsd (hresult.subset hmem)
  have hsortedKeys {other : Fields} (hsub : other.keys.Sublist (keys fields)) : other.Sorted :=
    pairwise_map.1 ((pairwise_map.2 hsorted).sublist hsub)
  have hstrings : sdDigests object.value = digests := by
    rw [hvalue]
    split_ifs with hnil
    · rw [sdDigests_eq_nil hsdresult, hnil]
    · rw [sdDigests, lookup_insert]
      simp [asArray, filterMap_map, Function.comp_def, asStr]
  have herase : object.value.erase "_sd" = members.value.result := by
    rw [hvalue]
    split_ifs
    · exact erase_eq_self hsdresult
    · exact erase_insert hsdresult
  have hsortedValue : object.value.Sorted := by
    rw [hvalue]
    split_ifs
    · exact hsortedKeys hresult
    · exact (hsortedKeys hresult).insert _ _
  have hnone : disclosedMembers shown decoys = [] :=
    filterMap_eq_nil_iff.2 fun digest hdigest => by rw [hdecoys digest hdigest, bind_none]
  have hdisclosed : (disclosedMembers shown digests).Perm (disclosedMembers shown members.value.sdDigests) := by
    have := hdigests.filterMap fun digest =>
      (disclosureOf shown digest).bind fun disclosure => disclosure.claimName.map (·, disclosure.claimValue)
    rw [filterMap_append] at this
    refine this.trans (List.Perm.of_eq ?_)
    exact (congrArg (_ ++ ·) hnone).trans (append_nil _)
  have htarget : (disclosedMembers shown digests ++ members.value.result).Perm restored :=
    (hdisclosed.append_right _).trans hperm.symm
  have hnodup : (keys (disclosedMembers shown digests) ++ members.value.result.keys).Nodup := by
    rw [Json.Fields.keys, Json.Fields.keys, ← map_append]
    exact (htarget.map Prod.fst).nodup_iff.2 (hsorted.nodup.sublist hkeys)
  refine ⟨?_, hsortedValue, ?_⟩
  · rw [insertDisclosed, hstrings, herase]
    exact ((hsortedKeys hresult).foldl_insert _).eq_of_perm (hsortedKeys hkeys)
      ((foldl_insert_perm hnodup).trans htarget)
  · rw [hstrings]
    intro name hname
    refine hkeys.subset ((htarget.map Prod.fst).subset ?_)
    rw [map_append]
    exact mem_append_left _ hname

end Resolution

/-! ## The walk -/

section Walk

variable {codec : JsonCodec} {hasher : Hasher} {shown : List Disclosure}

variable {rng : Rng} {value : Json} {sub : Processed Json}

theorem length_disclosableSub {subFrame : Option Json} (h : processSub codec hasher rng subFrame value = .ok sub) :
    (disclosableSub subFrame value).length = sub.drawn.disclosures.length := by
  have hnames : SameNames subFrame value sub.drawn :=
    processSub_cases (P := fun subFrame sub => SameNames subFrame value sub.drawn) h rfl
      fun _ hvalue => sameNames_value value hvalue
  simpa using congrArg List.length hnames

variable {frame : Option Fields}

theorem ownersOfMembers_sd {key : String} {fields : Fields}
    (hsub : processSub codec hasher rng (frame.bind (·.lookup key)) value = .ok sub) (hkey : key ∈ sdClaims frame)
    (d : Disclosure) (later : Drawn) : ownersOfMembers frame ((key, value) :: fields)
    ((sub.drawn.push d).append later) = .at (.key key) (ownersOf (frame.bind (·.lookup key)) value sub.drawn)
    (some d) (ownersOfMembers frame fields later) := by
  have hlength := length_disclosableSub hsub
  rw [ownersOfMembers, disclosableMembers_cons, if_pos hkey, Drawn.append, Drawn.push,
    zip_append (by simpa using hlength), zip_append (by simpa using hlength), zip_under]
  rfl

theorem ownersOfMembers_clear {key : String} {fields : Fields}
    (hsub : processSub codec hasher rng (frame.bind (·.lookup key)) value = .ok sub) (hkey : key ∉ sdClaims frame)
    (later : Drawn) : ownersOfMembers frame ((key, value) :: fields) (sub.drawn.append later) = .at (.key key)
    (ownersOf (frame.bind (·.lookup key)) value sub.drawn) none (ownersOfMembers frame fields later) := by
  have hlength := length_disclosableSub hsub
  rw [ownersOfMembers, disclosableMembers_cons, if_neg hkey, append_nil, Drawn.append,
    zip_append (by simpa using hlength), zip_under, Owners.at, toList_none, map_nil, append_nil]
  rfl

variable {items : List Json}

theorem ownersOfElements_sd {i : ℕ} {item : Json} (hindex : i ∈ sdIndices frame) (d : Disclosure) (later : Drawn) :
    ownersOfElements frame i (item :: items) ((Drawn.push {} d).append later) = .at (.index i) [] (some d)
    (ownersOfElements frame (i + 1) items later) := by
  rw [ownersOfElements, disclosableElements_cons, if_pos hindex]
  rfl

theorem ownersOfElements_clear {i : ℕ} {item : Json}
    (hsub : processSub codec hasher rng (frame.bind (·.lookup (toString i))) item = .ok sub)
    (hindex : i ∉ sdIndices frame) (later : Drawn) : ownersOfElements frame i (item :: items)
    (sub.drawn.append later) = .at (.index i) (ownersOf (frame.bind (·.lookup (toString i))) item sub.drawn) none
    (ownersOfElements frame (i + 1) items later) := by
  have hlength := length_disclosableSub hsub
  rw [ownersOfElements, disclosableElements_cons, if_neg hindex, Drawn.append,
    zip_append (by simpa using hlength), zip_under, Owners.at, toList_none, map_nil, append_nil]
  rfl

mutual

theorem resolve_value : ∀ (value : Json) {rng : Rng} {frame : Json} {processed : Processed Json} {fuel : ℕ},
    processValue codec hasher rng frame value = .ok processed → value.Ordered → value.Free digestKeys →
    Known shown processed.drawn → value.depth ≤ fuel →
    resolveValue shown fuel processed.value =
      some (prune (hidden (ownersOf (some frame) value processed.drawn) shown) value)
  | .obj fields, rng, frame, processed, fuel, h, hordered, hfree, hknown, hfuel => by
    obtain ⟨object, hobject, rfl⟩ := processValue_obj h
    obtain ⟨members, decoys, hmembers, hdrawn, digests, hdigests, hvalue⟩ := processObjectOf_eq_ok hobject
    obtain ⟨fuel, rfl, hdepth⟩ := exists_fuel hfuel
    rw [hdrawn] at hknown
    obtain ⟨restored, hperm, hkeys, hresolved⟩ :=
      resolve_members fields hmembers hordered.2 hordered.1.nodup hfree hknown.left hdepth
    obtain ⟨hrestored, -, -⟩ := insertDisclosed_issued hmembers hordered.1 (not_mem_keys hfree (by decide))
      hknown.right.decoys hdigests hvalue hperm hkeys
    rw [resolveValue, resolveObject, hrestored, hresolved, hdrawn]
    simp only [Drawn.append, append_nil]
    rfl
  | .arr items, rng, frame, processed, fuel, h, hordered, hfree, hknown, hfuel => by
    obtain ⟨array, harray, rfl⟩ := processValue_arr h
    obtain ⟨fuel, rfl, hdepth⟩ := exists_fuel hfuel
    rw [resolveValue, resolve_elements items harray hordered hfree hknown hdepth]
    rfl
  | .null, _, _, _, fuel + 1, h, _, _, _, _ | .bool _, _, _, _, fuel + 1, h, _, _, _, _
  | .int _, _, _, _, fuel + 1, h, _, _, _, _ | .float _, _, _, _, fuel + 1, h, _, _, _, _
  | .str _, _, _, _, fuel + 1, h, _, _, _, _ => by
    cases h
    rfl

/-- The members of the shown disclosures and those that stayed, put in order and resolved, are the
members that are left of the claims. -/
theorem resolve_members : ∀ (fields : List (String × Json)) {rng : Rng} {frame : Option Fields}
    {members : Processed Members} {fuel : ℕ}, processMembers codec hasher rng frame fields = .ok members →
    OrderedFields fields → (keys fields).Nodup → FreeFields digestKeys fields →
    Known shown members.drawn → depthFields fields ≤ fuel →
    ∃ restored : Fields, restored.Perm (disclosedMembers shown members.value.sdDigests ++ members.value.result) ∧
      restored.keys.Sublist (keys fields) ∧ resolveMembers (resolveValue shown fuel) restored =
        some (pruneMembers (hidden (ownersOfMembers frame fields members.drawn) shown) fields)
  | [], _, _, members, _, h, _, _, _, _, _ => by
    cases h
    exact ⟨[], .rfl, List.Sublist.refl _, rfl⟩
  | (key, value) :: fields, rng, frame, members, fuel, h, hordered, hnodup, hfree, hknown, hfuel => by
    obtain ⟨hnew, hnodup⟩ := nodup_cons.1 hnodup
    have hdepth : value.depth ≤ fuel := le_trans (le_max_left _ _) hfuel
    have hdepths : depthFields fields ≤ fuel := le_trans (le_max_right _ _) hfuel
    obtain ⟨sub, later, hsub, hcases⟩ := processMembers_cons h
    have hinside : Known shown sub.drawn → resolveValue shown fuel sub.value =
        some (prune (hidden (ownersOf (frame.bind (·.lookup key)) value sub.drawn) shown) value) :=
      processSub_cases (P := fun subFrame sub => Known shown sub.drawn → resolveValue shown fuel sub.value =
        some (prune (hidden (ownersOf subFrame value sub.drawn) shown) value)) hsub
        (fun _ => (resolveValue_self value hfree.1.2 hdepth).trans (congrArg some (prune_none value).symm))
        fun _ hvalue hknown => resolve_value value hvalue hordered.1 hfree.1.2 hknown hdepth
    have hrest : ∀ owner ∈ ownersOfMembers frame fields later.drawn, ∀ path, owner.1 ≠ .key key :: path :=
      ownersOfMembers_ne hnew
    rcases hcases with ⟨hkey, d, hd, hlater, rfl⟩ | ⟨hkey, hlater, rfl⟩
    · obtain ⟨restored, hperm, hkeys, hresolved⟩ :=
        resolve_members fields hlater hordered.2 hnodup hfree.2 hknown.right hdepths
      have hname : d.claimName = some key := by rw [hd]; rfl
      have hvalue : d.claimValue = sub.value := by rw [hd]; rfl
      rw [ownersOfMembers_sd hsub hkey, pruneMembers_at hnew ownersOf_ne_nil hrest,
        disclosedMembers_cons_of_known hname hknown.left.last, hvalue]
      by_cases hshown : d ∈ shown
      · -- the disclosure is shown: its member is restored and resolved
        refine ⟨(key, sub.value) :: restored, ?_, hkeys.cons_cons _, ?_⟩
        · rw [if_pos hshown]
          exact hperm.cons _
        · rw [if_neg (by simpa using hshown)]
          exact resolveMembers_cons (hinside hknown.left.pop) hresolved
      · refine ⟨restored, ?_, hkeys.cons _, ?_⟩
        · rw [if_neg hshown]
          exact hperm
        · rw [if_pos (by simpa using hshown)]
          exact hresolved
    · obtain ⟨restored, hperm, hkeys, hresolved⟩ :=
        resolve_members fields hlater hordered.2 hnodup hfree.2 hknown.right hdepths
      rw [ownersOfMembers_clear hsub hkey, pruneMembers_at hnew ownersOf_ne_nil hrest]
      refine ⟨(key, sub.value) :: restored, ?_, hkeys.cons_cons _, ?_⟩
      · exact (hperm.cons _).trans perm_middle.symm
      · exact resolveMembers_cons (hinside hknown.left) hresolved

theorem resolve_elements : ∀ (items : List Json) {rng : Rng} {frame : Option Fields} {i : ℕ}
    {array : Processed (List Json)} {fuel : ℕ}, processElements codec hasher rng frame i items = .ok array →
    OrderedItems items → FreeItems digestKeys items → Known shown array.drawn → depthItems items ≤
      fuel →
    resolveArray shown (resolveValue shown fuel) array.value =
      some (pruneElements (hidden (ownersOfElements frame i items array.drawn) shown) i items)
  | [], _, _, _, array, _, h, _, _, _, _ => by
    cases h
    rfl
  | item :: items, rng, frame, i, array, fuel, h, hordered, hfree, hknown, hfuel => by
    have hdepth : item.depth ≤ fuel := le_trans (le_max_left _ _) hfuel
    have hdepths : depthItems items ≤ fuel := le_trans (le_max_right _ _) hfuel
    rcases processElements_cons h with ⟨hindex, d, later, hd, hlater, rfl⟩ | ⟨hindex, sub, later, hsub, hlater, rfl⟩
    · have hresolved := resolve_elements items hlater hordered.2 hfree.2 hknown.right hdepths
      have hvalue : d.claimValue = item := by rw [hd]; rfl
      have helement : element shown (.obj [("...", .str d.digest)]) = if d ∈ shown then some item else none := by
        have hlookup := hknown.left.last
        simp only [element, placeholder, get?, lookup_cons, beq_self_eq_true, bind_some, asStr, hlookup]
        split_ifs
        · rw [map_some, hvalue]
        · rfl
      rw [ownersOfElements_sd hindex,
        pruneElements_at (fun _ howner => absurd howner not_mem_nil) ownersOfElements_ne]
      by_cases hshown : d ∈ shown
      · rw [if_neg (by simpa using hshown)]
        rw [if_pos hshown] at helement
        -- a disclosed element was not processed, so nothing is hidden in it
        exact resolveArray_cons helement ((resolveValue_self item hfree.1 hdepth).trans
          (congrArg some (prune_none item).symm)) hresolved
      · rw [if_pos (by simpa using hshown)]
        rw [if_neg hshown] at helement
        exact resolveArray_cons_none helement hresolved
    · have hresolved := resolve_elements items hlater hordered.2 hfree.2 hknown.right hdepths
      have hinside : placeholder sub.value = none ∧ resolveValue shown fuel sub.value =
          some (prune (hidden (ownersOf (frame.bind (·.lookup (toString i))) item sub.drawn) shown) item) := by
        have hknown := hknown.left
        refine processSub_cases (P := fun subFrame sub => Known shown sub.drawn → placeholder sub.value = none ∧
          resolveValue shown fuel sub.value =
            some (prune (hidden (ownersOf subFrame item sub.drawn) shown) item)) hsub
          (fun _ => ?_) (fun _ hvalue hknown => ?_) hknown
        · exact ⟨placeholder_of_free hfree.1,
            (resolveValue_self item hfree.1 hdepth).trans (congrArg some (prune_none item).symm)⟩
        · exact ⟨placeholder_processed hfree.1 hvalue, resolve_value item hvalue hordered.1 hfree.1 hknown hdepth⟩
      rw [ownersOfElements_clear hsub hindex, pruneElements_at ownersOf_ne_nil ownersOfElements_ne]
      exact resolveArray_cons (element_of_placeholder_eq_none hinside.1) hinside.2 hresolved

end

end Walk

/-! ## Exactness -/

section Exactness

variable {codec : JsonCodec} {hasher : Hasher}

/-- The hasher is free of collisions on what was hashed in a run: disclosures with one digest are the
same, and no decoy has the digest of a disclosure. -/
structure CollisionFree (drawn : Drawn) : Prop where
  disclosures : ∀ d ∈ drawn.disclosures, ∀ other ∈ drawn.disclosures, d.digest = other.digest → d = other
  decoys : ∀ d ∈ drawn.disclosures, d.digest ∉ drawn.decoys

variable {shown : List Disclosure}

theorem CollisionFree.known {drawn : Drawn} (h : CollisionFree drawn) (hshown : shown ⊆ drawn.disclosures) :
    Known shown drawn := by
  have hfound {digest : String} {d : Disclosure} (hfind : disclosureOf shown digest = some d) :
      d ∈ shown ∧ d.digest = digest :=
    ⟨mem_reverse.1 (mem_of_find?_eq_some hfind), by simpa using find?_some hfind⟩
  constructor
  · intro d hd
    cases hfind : disclosureOf shown d.digest with
    | none =>
      rw [if_neg]
      exact fun hmem => find?_eq_none.1 hfind d (mem_reverse.2 hmem) (decide_eq_true rfl)
    | some other =>
      obtain ⟨hmem, hdigest⟩ := hfound hfind
      obtain rfl := h.disclosures other (hshown hmem) d hd hdigest
      rw [if_pos hmem]
  · intro digest hdigest
    cases hfind : disclosureOf shown digest with
    | none => rfl
    | some d =>
      obtain ⟨hmem, rfl⟩ := hfound hfind
      exact absurd hdigest (h.decoys d (hshown hmem))

mutual

/-- A frame without reserved names: no `_sd` of an object in it lists one. -/
def FrameFree : Json → Prop
  | .obj fields => (∀ name ∈ sdClaims (some fields), name ∉ reservedClaimNames) ∧ FrameFreeMembers fields
  | _ => True

def FrameFreeMembers : List (String × Json) → Prop
  | [] => True
  | (_, value) :: fields => FrameFree value ∧ FrameFreeMembers fields

end

variable {frame : Json} {key : String}

theorem FrameFree.lookup (h : FrameFree frame) {subFrame : Json}
    (hlookup : frame.asObject.bind (·.lookup key) = some subFrame) : FrameFree subFrame := by
  cases frame with
  | obj fields =>
    have hmem := mem_of_lookup hlookup
    have hmembers := h.2
    clear h hlookup
    induction fields with
    | nil => cases hmem
    | cons member fields ih =>
      rcases mem_cons.1 hmem with rfl | hmem
      · exact hmembers.1
      · exact ih hmem hmembers.2
  | null | bool | int | float | str | arr => cases hlookup

theorem processObjectOf_ok (hasher : Hasher) (rng : Rng) (members : Processed Members) (h : FrameFree frame) :
    ∃ object, processObjectOf hasher rng frame.asObject (.ok members) = .ok object := by
  have hfind : (sdClaims frame.asObject).find? (fun name => reservedClaimNames.contains name) = none := by
    rw [find?_eq_none]
    intro name hname
    cases frame with
    | obj fields => simpa using h.1 name hname
    | null | bool | int | float | str | arr => cases hname
  rw [processObjectOf, hfind]
  exact ⟨_, rfl⟩

mutual

theorem processValue_ok : ∀ (value : Json) (rng : Rng) {frame : Json}, FrameFree frame →
    ∃ processed, processValue codec hasher rng frame value = .ok processed
  | .obj fields, rng, frame, h => by
    obtain ⟨members, hmembers⟩ := processMembers_ok fields rng h
    obtain ⟨object, hobject⟩ := processObjectOf_ok hasher rng members h
    rw [processValue, hmembers, hobject]
    exact ⟨_, rfl⟩
  | .arr items, rng, frame, h => by
    obtain ⟨array, harray⟩ := processElements_ok items rng 0 h
    rw [processValue, harray]
    exact ⟨_, rfl⟩
  | .null, _, _, _ | .bool _, _, _, _ | .int _, _, _, _ | .float _, _, _, _ | .str _, _, _, _ => ⟨_, rfl⟩

theorem processMembers_ok : ∀ (fields : List (String × Json)) (rng : Rng) {frame : Json}, FrameFree frame →
    ∃ members, processMembers codec hasher rng frame.asObject fields = .ok members
  | [], _, _, _ => ⟨_, rfl⟩
  | (key, value) :: fields, rng, frame, h => by
    have hsub : ∃ sub, processSub codec hasher rng (frame.asObject.bind (·.lookup key)) value = .ok sub := by
      cases hlookup : frame.asObject.bind (·.lookup key) with
      | none => exact ⟨_, rfl⟩
      | some subFrame => exact processValue_ok value rng (h.lookup hlookup)
    obtain ⟨sub, hsub⟩ := hsub
    rw [processMembers_eq, hsub, ok_bind]
    split_ifs
    · obtain ⟨later, hlater⟩ := processMembers_ok fields (rng.after (sub.drawn.push
        (Disclosure.newClaim codec hasher (rng.after sub.drawn) key sub.value))) h
      dsimp only
      rw [hlater]
      exact ⟨_, rfl⟩
    · obtain ⟨later, hlater⟩ := processMembers_ok fields (rng.after sub.drawn) h
      rw [hlater]
      exact ⟨_, rfl⟩

theorem processElements_ok : ∀ (items : List Json) (rng : Rng) (i : ℕ) {frame : Json}, FrameFree frame →
    ∃ array, processElements codec hasher rng frame.asObject i items = .ok array
  | [], _, _, _, _ => ⟨_, rfl⟩
  | item :: items, rng, i, frame, h => by
    rw [processElements_eq]
    split_ifs
    · obtain ⟨later, hlater⟩ := processElements_ok items
        (rng.after (Drawn.push {} (Disclosure.newArrayElement codec hasher rng item))) (i + 1) h
      dsimp only
      rw [hlater]
      exact ⟨_, rfl⟩
    · have hsub : ∃ sub, processSub codec hasher rng (frame.asObject.bind (·.lookup (toString i))) item =
        .ok sub := by
        cases hlookup : frame.asObject.bind (·.lookup (toString i)) with
        | none => exact ⟨_, rfl⟩
        | some subFrame => exact processValue_ok item rng (h.lookup hlookup)
      obtain ⟨sub, hsub⟩ := hsub
      obtain ⟨later, hlater⟩ := processElements_ok items (rng.after sub.drawn) (i + 1) h
      rw [hsub, ok_bind, hlater]
      exact ⟨_, rfl⟩

end

variable {fields : Fields}

theorem insertDisclosed_insert (hsorted : fields.Sorted) (hsd : key ≠ "_sd")
    (hkey : key ∉ keys (disclosedMembers shown (sdDigests fields))) (value : Json) :
    insertDisclosed shown (fields.insert key value) = insert key value
    (insertDisclosed shown fields) := by
  have hdigests : sdDigests (fields.insert key value) = sdDigests fields := by
    rw [sdDigests, lookup_insert_of_ne (Ne.symm hsd), sdDigests]
  rw [insertDisclosed, hdigests, hsorted.erase_insert_of_ne (Ne.symm hsd)]
  exact (hsorted.erase _).foldl_insert_comm hkey value

theorem resolveMembers_insert {recur : Json → Option Json} {value r : Json} (hvalue : recur value = some r)
    {rs : Fields} (h : resolveMembers recur fields = some rs) : resolveMembers recur (fields.insert key value) =
    some (rs.insert key r) := by
  induction fields generalizing rs with
  | nil =>
    cases h
    exact resolveMembers_cons hvalue rfl
  | cons member fields ih =>
    have hsteps := h
    rw [resolveMembers, mapM_cons] at hsteps
    obtain ⟨first, hfirst, hsteps⟩ := bind_eq_some_iff.1 hsteps
    obtain ⟨later, hlater, hsteps⟩ := bind_eq_some_iff.1 hsteps
    obtain ⟨result, hresult, rfl⟩ := map_eq_some_iff.1 hfirst
    cases hsteps
    unfold Fields.insert OrdMap.insertEntry
    split_ifs with hlt heq
    · exact resolveMembers_cons hvalue h
    · exact resolveMembers_cons hvalue hlater
    · exact resolveMembers_cons hresult (ih hlater)

theorem keys_pruneMembers (f : Path → Bool) (fields : Fields) :
    (keys (pruneMembers f fields)).Sublist (keys fields) := by
  induction fields with
  | nil => exact List.Sublist.refl _
  | cons member fields ih =>
    rw [pruneMembers]
    split_ifs
    · exact ih.cons _
    · exact ih.cons_cons _

variable {issued : Processed Json}

/-- The payload of an issued SD-JWT, resolved with what is known of the drawn disclosures. -/
theorem resolveClaims_payload {rng : Rng} {fuel : ℕ}
    (h : issuePayload codec hasher (.obj fields) frame none rng = .ok issued)
    (hordered : (obj fields).Ordered) (hfree : (obj fields).Free digestKeys)
    (halg : "_sd_alg" ∉ fields.keys) (hknown : Known shown issued.drawn) (hfuel : (obj fields).depth ≤ fuel) :
    resolveClaims shown fuel issued.value =
    some (prune (hidden ((disclosable frame (.obj fields)).zip issued.drawn.disclosures) shown)
    (.obj fields)) := by
  obtain ⟨-, -, h⟩ := bind_eq_ok_iff.1 h
  obtain ⟨object, hobject, h⟩ := bind_eq_ok_iff.1 h
  cases h
  obtain ⟨members, decoys, hmembers, hdrawn, digests, hdigests, hvalue⟩ := processObjectOf_eq_ok hobject
  have hsd : "_sd" ∉ fields.keys := not_mem_keys hfree (by decide)
  have hdepth : depthFields fields ≤ fuel := Nat.le_of_succ_le hfuel
  simp only [hdrawn] at hknown ⊢
  obtain ⟨restored, hperm, hkeys, hresolved⟩ :=
    resolve_members fields hmembers hordered.2 hordered.1.nodup hfree hknown.left hdepth
  obtain ⟨hrestored, hsorted, hnames⟩ := insertDisclosed_issued hmembers hordered.1 hsd hknown.right.decoys hdigests
    hvalue hperm hkeys
  have howners : ownersOfMembers frame.asObject fields members.drawn =
      (disclosable frame (.obj fields)).zip (members.drawn.append ⟨[], decoys⟩).disclosures := by
    rw [Drawn.append, append_nil]
    rfl
  rw [howners] at hresolved
  have hpruned (f : Path → Bool) {name : String} (hname : name ∉ fields.keys) :
      name ∉ keys (pruneMembers f fields) := fun hmem => hname ((keys_pruneMembers f fields).subset hmem)
  unfold resolveClaims
  dsimp only
  split_ifs with hnone
  · rw [resolveObject, hrestored, hresolved, map_some, erase_eq_self (hpruned _ hsd),
      erase_eq_self (hpruned _ halg)]
    rfl
  · -- the algorithm is resolved with the claims and taken out with the digests
    have hstr : resolveValue shown fuel (.str hasher.algName) = some (.str hasher.algName) := by
      obtain ⟨rest, rfl, -⟩ := exists_fuel hfuel
      rfl
    have hnew : "_sd" ∉ keys (insert "_sd_alg" (.str hasher.algName)
        (pruneMembers (hidden ((disclosable frame (.obj fields)).zip (members.drawn.append ⟨[], decoys⟩).disclosures)
          shown) fields)) := fun hmem => (mem_keys_insert.1 hmem).elim (by decide) (hpruned _ hsd)
    rw [resolveObject, insertDisclosed_insert hsorted (by decide) (fun hmem => halg (hnames _ hmem)), hrestored,
      resolveMembers_insert hstr hresolved, map_some, erase_eq_self hnew, erase_insert (hpruned _ halg)]
    rfl

mutual

theorem validateNoReservedKeys_iff : ∀ value : Json, validateNoReservedKeys value = .ok () ↔ value.Free ["..."]
  | .obj fields => by
    rw [validateNoReservedKeys]
    split_ifs with hkey
    · exact iff_of_false nofun fun h => not_mem_keys h mem_cons_self hkey
    · rw [validateMembers_iff fields hkey]
      rfl
  | .arr items => validateItems_iff items
  | .null | .bool _ | .int _ | .float _ | .str _ => iff_of_true rfl trivial

theorem validateMembers_iff : ∀ fields : List (String × Json), "..." ∉ fields.map Prod.fst →
    (validateMembers fields = .ok () ↔ FreeFields ["..."] fields)
  | [], _ => iff_of_true rfl trivial
  | (key, value) :: fields, hkeys => by
    obtain ⟨hkey, hrest⟩ := not_or.1 fun hor => hkeys (mem_cons.2 hor)
    rw [validateMembers, unit_bind_eq_ok_iff, validateNoReservedKeys_iff value, validateMembers_iff fields hrest]
    exact and_congr_left fun _ => (and_iff_right (by simpa using Ne.symm hkey)).symm

theorem validateItems_iff : ∀ items : List Json, validateItems items = .ok () ↔ FreeItems ["..."] items
  | [] => iff_of_true rfl trivial
  | item :: items => by
    rw [validateItems, unit_bind_eq_ok_iff, validateNoReservedKeys_iff item, validateItems_iff items]
    rfl

end

theorem issue_eq {claims : Json} {rng : Rng} (h : issuePayload codec hasher claims frame none rng = .ok issued)
    (signer : JwtSigner) : issue codec hasher claims frame signer none rng =
    (signer.signJwt (jwtHeader signer) issued.value).map fun jws => ⟨jws, issued.drawn.disclosures, none⟩ := by
  rw [issue, h, ok_bind]
  cases signer.signJwt (jwtHeader signer) issued.value <;> rfl

/-- Selective disclosure is exact. Claims without reserved keys are issued under every frame without
reserved names, with one disclosure for each disclosable path; and whatever disclosures are shown, the
payload resolves to the claims without the disclosable paths whose own disclosures are not shown, in
which no reserved key is left. -/
theorem resolveClaims_issued (codec : JsonCodec) (hasher : Hasher) (rng : Rng) {claims frame : Json}
    (hobject : claims.asObject.isSome) (hordered : claims.Ordered) (hfree : claims.Free reservedClaimNames)
    (hframe : FrameFree frame) :
    ∃ issued, issuePayload codec hasher claims frame none rng = .ok issued ∧
      (∀ signer, issue codec hasher claims frame signer none rng =
        (signer.signJwt (jwtHeader signer) issued.value).map fun jws => ⟨jws, issued.drawn.disclosures, none⟩) ∧
      (disclosable frame claims).map claimNameAt = issued.drawn.disclosures.map Disclosure.claimName ∧
      (CollisionFree issued.drawn → ∀ shown ⊆ issued.drawn.disclosures, ∀ fuel, claims.depth ≤ fuel → ∃ result,
        resolveClaims shown fuel issued.value = some result ∧
        result = prune (hidden ((disclosable frame claims).zip issued.drawn.disclosures) shown) claims ∧
        result.Free reservedClaimNames) := by
  cases claims with
  | null | bool | int | float | str | arr => cases hobject
  | obj fields =>
    obtain ⟨processed, hprocessed⟩ := processValue_ok (.obj fields) rng hframe
    obtain ⟨object, hobject, -⟩ := processValue_obj hprocessed
    have hvalid : validateNoReservedKeys (.obj fields) = .ok () :=
      (validateNoReservedKeys_iff _).2 (hfree.mono (by decide))
    have hissued : ∃ issued, issuePayload codec hasher (.obj fields) frame none rng = .ok issued ∧
        issued.drawn = object.drawn := by
      have hclaims : (obj fields).asObject = some fields := rfl
      rw [issuePayload, hclaims]
      dsimp only
      rw [hvalid, ok_bind, hobject]
      exact ⟨_, rfl, rfl⟩
    obtain ⟨issued, hissued, hdrawn⟩ := hissued
    refine ⟨issued, hissued, issue_eq hissued, ?_, ?_⟩
    · obtain ⟨members, decoys, hmembers, hmade, -⟩ := processObjectOf_eq_ok hobject
      rw [hdrawn, hmade, Drawn.append, append_nil]
      exact sameNames_members fields hmembers
    · intro hfresh shown hshown fuel hfuel
      refine ⟨_, resolveClaims_payload hissued hordered (hfree.mono (by decide)) (not_mem_keys hfree (by decide))
        (hfresh.known hshown) hfuel, rfl, ?_⟩
      exact free_prune _ _ hfree

def userClaims : Json := .obj [("given_name", .str "John"), ("sub", .str "user123")]

def userFrame : Json := .obj [("_sd", .arr [.str "given_name"])]

def zeroRng : Rng := ⟨fun _ => [0], fun _ => [1]⟩

theorem userClaims_ordered : userClaims.Ordered :=
  ⟨by unfold Sorted; decide +kernel, trivial, trivial, trivial⟩

/-- Without the disclosure of the name the subject is left. -/
theorem resolveClaims_issued_user :
    ∃ issued, issuePayload SdJwt.aliceCodec SdJwt.plainHasher userClaims userFrame none zeroRng = .ok issued ∧
      resolveClaims [] 2 issued.value = some (.obj [("sub", .str "user123")]) := by
  obtain ⟨issued, hissued, -, hnames, hexact⟩ := @resolveClaims_issued SdJwt.aliceCodec
    SdJwt.plainHasher zeroRng userClaims userFrame rfl userClaims_ordered
    ⟨⟨by decide, trivial⟩, ⟨by decide, trivial⟩, trivial⟩ ⟨by decide, trivial, trivial⟩
  have hdecoys : (issuePayload SdJwt.aliceCodec SdJwt.plainHasher userClaims userFrame none zeroRng).map
    (·.drawn.decoys) = .ok [] := rfl
  rw [hissued] at hdecoys
  have hnone : issued.drawn.decoys = [] := Except.ok.inj hdecoys
  have hone : issued.drawn.disclosures.length = 1 := by
    rw [← length_map Disclosure.claimName, ← hnames]
    rfl
  obtain ⟨d, hd⟩ := length_eq_one_iff.1 hone
  obtain ⟨result, hresult, hpruned, -⟩ := hexact
    ⟨by simp [hd], fun _ _ hmem => absurd (hnone ▸ hmem) not_mem_nil⟩ [] (nil_subset _) 2 (by decide)
  refine ⟨issued, hissued, hresult.trans (congrArg some (hpruned.trans ?_))⟩
  rw [hd]
  rfl

end Exactness

end AffinidiTdk.Credentials
