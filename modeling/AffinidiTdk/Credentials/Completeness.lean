/-
What an issuer issues and what a verifier accepts. All disclosures of an issued SD-JWT verify to the
original claims exactly when no disclosure is made inside a disclosed value and the claims do not use
the keys of the format: the digests of inner disclosures stand in the value of the outer one, and the
verifier looks for them in the payload only.
-/
import AffinidiTdk.Credentials.Selective

namespace AffinidiTdk.Credentials

open List Json.Fields Json Fallible

open Json (Fields)

variable {codec : JsonCodec} {hasher : Hasher}

/-! ## Issued disclosures -/

/-- How an issued disclosure looks: its digest is of its serialized form, and its name is not reserved. -/
def Built (hasher : Hasher) (d : Disclosure) : Prop :=
  hasher.hashB64 d.serialized = d.digest ∧ d.claimName ≠ some "_sd"

variable {frame : Option Fields} {object : Processed Fields}

theorem sdClaims_of_ok {rng : Rng} {loop : Except SdJwtError (Processed Members)}
    (h : processObjectOf hasher rng frame loop = .ok object) : "_sd" ∉ sdClaims frame := by
  unfold processObjectOf at h
  split at h
  · cases h
  · rename_i hfind
    intro hmem
    exact absurd (find?_eq_none.1 hfind _ hmem) (by decide)

mutual

theorem built_value : ∀ (value : Json) {rng : Rng} {frame : Json} {processed : Processed Json},
    processValue codec hasher rng frame value = .ok processed → ∀ d ∈ processed.drawn.disclosures, Built hasher d
  | .obj fields, rng, frame, processed, h, d, hd => by
    obtain ⟨object, hobject, rfl⟩ := processValue_obj h
    obtain ⟨members, decoys, hmembers, hdrawn, -⟩ := processObjectOf_eq_ok hobject
    rw [hdrawn, Drawn.append, append_nil] at hd
    exact built_members fields (sdClaims_of_ok hobject) hmembers d hd
  | .arr items, rng, frame, processed, h, d, hd => by
    obtain ⟨array, harray, rfl⟩ := processValue_arr h
    exact built_elements items harray d hd
  | .null, _, _, _, h, _, hd | .bool _, _, _, _, h, _, hd | .int _, _, _, _, h, _, hd | .float _, _, _, _, h, _, hd
  | .str _, _, _, _, h, _, hd => by
    cases h
    cases hd

theorem built_members : ∀ (fields : List (String × Json)) {rng : Rng} {frame : Option Fields}
    {members : Processed Members}, "_sd" ∉ sdClaims frame → processMembers codec hasher rng frame fields =
      .ok members →
    ∀ d ∈ members.drawn.disclosures, Built hasher d
  | [], _, _, members, _, h, d, hd => by
    cases h
    cases hd
  | (key, value) :: fields, rng, frame, members, hnames, h, d, hd => by
    obtain ⟨sub, later, hsub, hcases⟩ := processMembers_cons h
    have hinside : ∀ d ∈ sub.drawn.disclosures, Built hasher d :=
      processSub_cases (P := fun _ sub => ∀ d ∈ sub.drawn.disclosures, Built hasher d) hsub
        (fun _ hmem => absurd hmem not_mem_nil) fun _ hvalue => built_value value hvalue
    rcases hcases with ⟨hkey, own, rfl, hlater, rfl⟩ | ⟨hkey, hlater, rfl⟩
    · rcases mem_append.1 hd with hd | hd
      · rcases mem_append.1 hd with hd | hd
        · exact hinside d hd
        · obtain rfl := mem_singleton.1 hd
          exact ⟨rfl, fun heq => hnames (Option.some.inj heq ▸ hkey)⟩
      · exact built_members fields hnames hlater d hd
    · rcases mem_append.1 hd with hd | hd
      · exact hinside d hd
      · exact built_members fields hnames hlater d hd

theorem built_elements : ∀ (items : List Json) {rng : Rng} {frame : Option Fields} {i : ℕ}
    {array : Processed (List Json)}, processElements codec hasher rng frame i items = .ok array →
    ∀ d ∈ array.drawn.disclosures, Built hasher d
  | [], _, _, _, array, h, d, hd => by
    cases h
    cases hd
  | item :: items, rng, frame, i, array, h, d, hd => by
    rcases processElements_cons h with ⟨-, own, later, rfl, hlater, rfl⟩ | ⟨-, sub, later, hsub, hlater, rfl⟩
    · rcases mem_append.1 hd with hd | hd
      · obtain rfl := mem_singleton.1 hd
        exact ⟨rfl, nofun⟩
      · exact built_elements items hlater d hd
    · have hinside : ∀ d ∈ sub.drawn.disclosures, Built hasher d :=
        processSub_cases (P := fun _ sub => ∀ d ∈ sub.drawn.disclosures, Built hasher d) hsub
          (fun _ hmem => absurd hmem not_mem_nil) fun _ hvalue => built_value item hvalue
      rcases mem_append.1 hd with hd | hd
      · exact hinside d hd
      · exact built_elements items hlater d hd

end

/-! ## No digest key is left -/

variable {names : List String} {fields : Fields}

theorem freeFields_of_forall (h : ∀ member ∈ fields, member.1 ∉ names ∧ member.2.Free names) :
    FreeFields names fields := by
  induction fields with
  | nil => trivial
  | cons member fields ih =>
    exact ⟨h member mem_cons_self, ih fun other hother => h other (mem_cons_of_mem _ hother)⟩

theorem freeItems_of_forall {items : List Json} (h : ∀ item ∈ items, item.Free names) :
    FreeItems names items := by
  induction items with
  | nil => trivial
  | cons item items ih =>
    exact ⟨h item mem_cons_self, ih fun other hother => h other (mem_cons_of_mem _ hother)⟩

theorem mem_of_mapM {α β : Type} {f : α → Option β} {l : List α} {r : List β} (h : l.mapM f = some r) {b : β}
    (hb : b ∈ r) : ∃ a ∈ l, f a = some b := by
  induction l generalizing r with
  | nil =>
    cases h
    cases hb
  | cons a l ih =>
    rw [mapM_cons] at h
    obtain ⟨first, hfirst, h⟩ := Option.bind_eq_some_iff.1 h
    obtain ⟨rest, hrest, h⟩ := Option.bind_eq_some_iff.1 h
    cases h
    rcases mem_cons.1 hb with rfl | hb
    · exact ⟨a, mem_cons_self, hfirst⟩
    · obtain ⟨a', ha', hf⟩ := ih hrest hb
      exact ⟨a', mem_cons_of_mem _ ha', hf⟩

theorem mem_keys_foldl_insert {members : Fields} {name : String}
    (h : name ∈ keys (members.foldl (fun fields member => fields.insert member.1 member.2) fields)) :
    name ∈ members.keys ∨ name ∈ fields.keys := by
  induction members generalizing fields with
  | nil => exact .inr h
  | cons member members ih =>
    rcases ih h with hmem | hmem
    · exact .inl (mem_cons_of_mem _ hmem)
    · rcases mem_keys_insert.1 hmem with rfl | hmem
      · exact .inl mem_cons_self
      · exact .inr hmem

variable {ds : List Disclosure}

section

variable (hnames : ∀ d ∈ ds, d.claimName ≠ some "_sd")
include hnames

theorem sd_not_mem_insertDisclosed (fields : Fields) : "_sd" ∉ keys (insertDisclosed ds fields) := by
  intro hmem
  rcases mem_keys_foldl_insert hmem with hmem | hmem
  · obtain ⟨member, hmember, hname⟩ := mem_map.1 hmem
    obtain ⟨digest, -, hfound⟩ := mem_filterMap.1 hmember
    obtain ⟨d, hd, hpair⟩ := Option.bind_eq_some_iff.1 hfound
    obtain ⟨name, hclaim, rfl⟩ := Option.map_eq_some_iff.1 hpair
    exact hnames d (mem_reverse.1 (mem_of_find?_eq_some hd)) (hclaim.trans (congrArg some hname))
  · rw [keys_erase] at hmem
    exact absurd (mem_filter.1 hmem).2 (by decide)

theorem free_resolveObject {recur : Json → Option Json} (hrecur : ∀ v r, recur v = some r → r.Free ["_sd"])
    {rs : Fields} (h : resolveObject ds recur fields = some rs) : FreeFields ["_sd"] rs := by
  refine freeFields_of_forall fun member hmember => ?_
  obtain ⟨before, hbefore, hresolved⟩ := mem_of_mapM h hmember
  obtain ⟨value, hvalue, rfl⟩ := Option.map_eq_some_iff.1 hresolved
  have hmem : before.1 ∈ keys (insertDisclosed ds fields) := mem_map_of_mem hbefore
  refine ⟨fun hkey => ?_, hrecur _ _ hvalue⟩
  exact sd_not_mem_insertDisclosed hnames fields (mem_singleton.1 hkey ▸ hmem)

theorem free_resolveValue {fuel : ℕ} {v r : Json} (h : resolveValue ds fuel v = some r) : r.Free ["_sd"] := by
  induction fuel generalizing v r with
  | zero => cases h
  | succ fuel ih =>
    cases v with
    | obj fields =>
      obtain ⟨rs, hrs, rfl⟩ := Option.map_eq_some_iff.1 h
      exact free_resolveObject hnames (fun _ _ => ih) hrs
    | arr items =>
      obtain ⟨rs, hrs, rfl⟩ := Option.map_eq_some_iff.1 h
      refine freeItems_of_forall fun item hitem => ?_
      obtain ⟨before, -, hresolved⟩ := mem_of_mapM hrs hitem
      exact ih hresolved
    | null | bool | int | float | str =>
      cases h
      trivial

theorem free_of_resolveClaims {fuel : ℕ} {payload claims : Json} (hobject : payload.asObject.isSome)
    (h : resolveClaims ds fuel payload = some claims) : claims.Free ["_sd"] ∧ claims.get? "_sd_alg" = none := by
  cases payload with
  | null | bool | int | float | str | arr => cases hobject
  | obj fields =>
    obtain ⟨rs, hrs, rfl⟩ := Option.map_eq_some_iff.1 h
    have hfree := free_resolveObject hnames (fun _ _ => free_resolveValue hnames) hrs
    constructor
    · rw [erase_eq_self (not_mem_keys hfree mem_cons_self)]
      refine freeFields_of_forall fun member hmember => ?_
      have hmem := mem_of_mem_filter hmember
      clear hrs hmember h
      induction rs with
      | nil => cases hmem
      | cons first rest ih =>
        rcases mem_cons.1 hmem with rfl | hmem
        · exact hfree.1
        · exact ih hfree.2 hmem
    · rw [get?, lookup_erase, if_pos rfl]

end

/-! ## Digests in the payload -/

/-- The disclosures whose paths lie in no other disclosable value. -/
def outermost (owners : Owners) : List Disclosure :=
  (owners.filter fun owner => owners.all fun other => decide (other.1 <+: owner.1 → other.1 = owner.1)).map Prod.snd

theorem mem_outermost {owners : Owners} {d : Disclosure} :
    d ∈ outermost owners ↔ ∃ path, (path, d) ∈ owners ∧ ∀ other ∈ owners, other.1 <+: path → other.1 = path := by
  simp [outermost, imp_iff_not_or]

section Outermost

variable {step : Step} {inside rest : Owners} {own : Option Disclosure} {d : Disclosure}

theorem mem_at {owner : Path × Disclosure} : owner ∈ Owners.at step inside own rest ↔
    (∃ inner ∈ inside, owner = (step :: inner.1, inner.2)) ∨ (∃ d, own = some d ∧ owner = ([step], d)) ∨ owner ∈
    rest := by
  rw [Owners.at, mem_append, mem_append, or_assoc, Owners.under, mem_map, mem_map]
  simp only [Option.mem_toList, eq_comm]

/-- The outermost disclosures at a step: its own, or without one those inside, and the rest. -/
theorem mem_outermost_at (hinside : ∀ owner ∈ inside, owner.1 ≠ [])
    (hrest : ∀ owner ∈ rest, ∀ path, owner.1 ≠ step :: path) (hnil : ∀ owner ∈ rest, owner.1 ≠ []) :
    d ∈ outermost (.at step inside own rest) ↔
      (own = none ∧ d ∈ outermost inside ∨ own = some d) ∨ d ∈ outermost rest := by
  have hapart {path : Path} {owner : Path × Disclosure} (howner : owner ∈ rest) (hbelow : owner.1 <+: step :: path) :
      False := by
    obtain ⟨tail, htail⟩ := hbelow
    cases hpath : owner.1 with
    | nil => exact hnil owner howner hpath
    | cons first others =>
      rw [hpath, cons_append] at htail
      exact hrest owner howner others (by rw [hpath, (cons.inj htail).1])
  have hbefore {owner : Path × Disclosure} {path : Path} (howner : owner ∈ rest)
    (hbelow : step :: path <+: owner.1) :
      False := by
    obtain ⟨tail, htail⟩ := hbelow
    exact hrest owner howner (path ++ tail) htail.symm
  rw [mem_outermost, mem_outermost, mem_outermost]
  constructor
  · rintro ⟨path, hmem, houter⟩
    rcases mem_at.1 hmem with ⟨inner, hinner, heq⟩ | ⟨d', hown, heq⟩ | hmem
    · cases heq
      cases own with
      | some d' =>
        have hself := houter ([step], d') (mem_at.2 (.inr (.inl ⟨d', rfl, rfl⟩))) ⟨inner.1, rfl⟩
        exact absurd (cons.inj hself).2.symm (hinside inner hinner)
      | none =>
        refine .inl (.inl ⟨rfl, inner.1, hinner, fun other hother hbelow => ?_⟩)
        have houtside := houter (step :: other.1, other.2) (mem_at.2 (.inl ⟨other, hother, rfl⟩))
          ((prefix_cons_inj step).2 hbelow)
        exact (cons.inj houtside).2
    · cases heq
      exact .inl (.inr hown)
    · exact .inr ⟨path, hmem, fun other hother => houter other (mem_at.2 (.inr (.inr hother)))⟩
  · rintro ((⟨rfl, path, hmem, houter⟩ | rfl) | ⟨path, hmem, houter⟩)
    · refine ⟨step :: path, mem_at.2 (.inl ⟨_, hmem, rfl⟩), fun other hother hbelow => ?_⟩
      rcases mem_at.1 hother with ⟨inner, hinner, rfl⟩ | ⟨d', hown, -⟩ | hother
      · rw [houter inner hinner ((prefix_cons_inj step).1 hbelow)]
      · cases hown
      · exact (hapart hother hbelow).elim
    · refine ⟨[step], mem_at.2 (.inr (.inl ⟨d, rfl, rfl⟩)), fun other hother hbelow => ?_⟩
      rcases mem_at.1 hother with ⟨inner, hinner, rfl⟩ | ⟨d', -, rfl⟩ | hother
      · have hempty := prefix_nil.1 ((prefix_cons_inj step).1 hbelow)
        exact absurd hempty (hinside inner hinner)
      · rfl
      · exact (hapart hother hbelow).elim
    · refine ⟨path, mem_at.2 (.inr (.inr hmem)), fun other hother hbelow => ?_⟩
      rcases mem_at.1 hother with ⟨inner, -, rfl⟩ | ⟨d', -, rfl⟩ | hother
      · exact (hbefore hmem hbelow).elim
      · exact (hbefore hmem hbelow).elim
      · exact houter other hother hbelow

end Outermost

theorem mem_collectMembers {digest : String} : digest ∈ collectMembers fields ↔ ∃ member ∈ fields, member.1 ≠
    "_sd" ∧ digest ∈ collectDigests member.2 := by
  induction fields with
  | nil => simp [collectMembers]
  | cons member fields ih =>
    simp only [collectMembers, mem_append, ih, mem_cons, exists_eq_or_imp]
    refine or_congr_left ?_
    split_ifs with hkey
    · exact iff_of_false not_mem_nil fun h => h.1 hkey
    · exact (and_iff_right hkey).symm

mutual

theorem collectDigests_of_free : ∀ value : Json, value.Free digestKeys → collectDigests value = []
  | .obj fields, h => by
    rw [collectDigests, sdDigests_eq_nil (not_mem_keys h (by decide)),
      lookup_eq_none (not_mem_keys h (by decide)), collectMembers_of_free fields h]
    rfl
  | .arr items, h => collectItems_of_free items h
  | .null, _ | .bool _, _ | .int _, _ | .float _, _ | .str _, _ => rfl

theorem collectMembers_of_free : ∀ fields : List (String × Json), FreeFields digestKeys fields →
    collectMembers fields = []
  | [], _ => rfl
  | (key, value) :: fields, h => by
    rw [collectMembers, collectDigests_of_free value h.1.2, collectMembers_of_free fields h.2, ite_self,
      nil_append]

theorem collectItems_of_free : ∀ items : List Json, FreeItems digestKeys items → collectItems items = []
  | [], _ => rfl
  | item :: items, h => by
    rw [collectItems, collectDigests_of_free item h.1, collectItems_of_free items h.2, nil_append]

end

/-- The digests that are found are those of the outermost disclosures, and decoys. -/
structure Found (digests : List String) (owners : Owners) (drawn : Drawn) : Prop where
  outermost : ∀ d ∈ outermost owners, d.digest ∈ digests
  only : ∀ digest ∈ digests, digest ∈ drawn.decoys ∨ ∃ d ∈ Credentials.outermost owners, d.digest = digest

section Found

variable {step : Step} {inside rest : Owners} {d : Disclosure} {drawn later : Drawn}
  {inner digests all : List String}

theorem Found.sd (h : Found digests rest later) (hinside : ∀ owner ∈ inside, owner.1 ≠ [])
    (hrest : ∀ owner ∈ rest, ∀ path, owner.1 ≠ step :: path) (hnil : ∀ owner ∈ rest, owner.1 ≠ [])
    (hall : ∀ digest, digest ∈ all ↔ digest = d.digest ∨ digest ∈ digests) :
    Found all (.at step inside (some d) rest) ((drawn.push d).append later) := by
  constructor
  · intro other hother
    rw [hall]
    rcases (mem_outermost_at hinside hrest hnil).1 hother with (⟨hnone, -⟩ | hown) | hother
    · cases hnone
    · exact .inl (congrArg Disclosure.digest (Option.some.inj hown).symm)
    · exact .inr (h.outermost other hother)
  · intro digest hdigest
    rcases (hall digest).1 hdigest with rfl | hdigest
    · exact .inr ⟨d, (mem_outermost_at hinside hrest hnil).2 (.inl (.inr rfl)), rfl⟩
    · rcases h.only digest hdigest with hdecoy | ⟨other, hother, rfl⟩
      · exact .inl (mem_append_right _ hdecoy)
      · exact .inr ⟨other, (mem_outermost_at hinside hrest hnil).2 (.inr hother), rfl⟩

theorem Found.clear (hin : Found inner inside drawn) (h : Found digests rest later)
    (hinside : ∀ owner ∈ inside, owner.1 ≠ []) (hrest : ∀ owner ∈ rest, ∀ path, owner.1 ≠ step :: path)
    (hnil : ∀ owner ∈ rest, owner.1 ≠ []) (hall : ∀ digest, digest ∈ all ↔ digest ∈ inner ∨ digest ∈ digests) :
    Found all (.at step inside none rest) (drawn.append later) := by
  constructor
  · intro other hother
    rw [hall]
    rcases (mem_outermost_at hinside hrest hnil).1 hother with (⟨-, hother⟩ | hown) | hother
    · exact .inl (hin.outermost other hother)
    · cases hown
    · exact .inr (h.outermost other hother)
  · intro digest hdigest
    rcases (hall digest).1 hdigest with hdigest | hdigest
    · rcases hin.only digest hdigest with hdecoy | ⟨other, hother, rfl⟩
      · exact .inl (mem_append_left _ hdecoy)
      · exact .inr ⟨other, (mem_outermost_at hinside hrest hnil).2 (.inl (.inl ⟨rfl, hother⟩)), rfl⟩
    · rcases h.only digest hdigest with hdecoy | ⟨other, hother, rfl⟩
      · exact .inl (mem_append_right _ hdecoy)
      · exact .inr ⟨other, (mem_outermost_at hinside hrest hnil).2 (.inr hother), rfl⟩

theorem found_nil (drawn : Drawn) : Found [] [] drawn :=
  ⟨fun _ h => absurd (mem_outermost.1 h) (by simp), fun _ h => absurd h not_mem_nil⟩

end Found

/-- The digests of an issued object: those of its loop and its decoys. -/
theorem collectDigests_issued {rng : Rng} {members : Processed Members} {decoys digests : List String}
    (hmembers : processMembers codec hasher rng frame fields = .ok members)
    (hfree : FreeFields digestKeys fields) (hdigests : digests.Perm (members.value.sdDigests ++ decoys))
    (hvalue : object.value = if digests = [] then members.value.result else insert "_sd"
    (.arr (digests.map .str)) members.value.result) (digest : String) : digest ∈
    collectDigests (.obj object.value) ↔
    (digest ∈ members.value.sdDigests ++ collectMembers members.value.result) ∨ digest ∈ decoys := by
  have hkeys := (keys_result hmembers).subset
  have hsd : "_sd" ∉ members.value.result.keys := fun hmem => not_mem_keys hfree (by decide) (hkeys hmem)
  have hdots : "..." ∉ members.value.result.keys := fun hmem => not_mem_keys hfree (by decide) (hkeys hmem)
  have hstrings : sdDigests object.value = digests := by
    rw [hvalue]
    split_ifs with hnil
    · rw [sdDigests_eq_nil hsd, hnil]
    · rw [sdDigests, lookup_insert]
      simp [asArray, filterMap_map, Function.comp_def, asStr]
  have hlookup : object.value.lookup "..." = none := by
    rw [hvalue]
    split_ifs
    · exact lookup_eq_none hdots
    · rw [lookup_insert_of_ne (by decide), lookup_eq_none hdots]
  have hcollect : digest ∈ collectMembers object.value ↔ digest ∈ collectMembers members.value.result := by
    rw [hvalue]
    split_ifs
    · exact Iff.rfl
    · rw [mem_collectMembers, mem_collectMembers]
      have hperm : (insert "_sd" (.arr (digests.map .str)) members.value.result).Perm _ :=
        insert_perm hsd
      simp only [hperm.mem_iff, mem_cons, exists_eq_or_imp, ne_eq, not_true_eq_false, false_and, false_or]
  rw [collectDigests, hlookup, hstrings, mem_append, mem_append, hcollect, hdigests.mem_iff,
    mem_append, mem_append]
  simp only [Option.bind_none, Option.toList_none, not_mem_nil, or_false]
  exact or_right_comm

mutual

theorem found_value : ∀ (value : Json) {rng : Rng} {frame : Json} {processed : Processed Json},
    processValue codec hasher rng frame value = .ok processed → value.Ordered → value.Free digestKeys →
    Found (collectDigests processed.value) (ownersOf (some frame) value processed.drawn) processed.drawn
  | .obj fields, rng, frame, processed, h, hordered, hfree => by
    obtain ⟨object, hobject, rfl⟩ := processValue_obj h
    obtain ⟨members, decoys, hmembers, hdrawn, digests, hdigests, hvalue⟩ := processObjectOf_eq_ok hobject
    have hfound := found_members fields hmembers hordered.2 hordered.1.nodup hfree
    have hall := collectDigests_issued hmembers hfree hdigests hvalue
    have howners : ownersOf (some frame) (.obj fields) object.drawn =
        ownersOfMembers frame.asObject fields members.drawn := by
      rw [ownersOf, hdrawn, Drawn.append, append_nil]
      rfl
    constructor
    · intro d hd
      rw [howners] at hd
      exact (hall _).2 (.inl (hfound.outermost d hd))
    · intro digest hdigest
      rw [howners, hdrawn]
      rcases (hall digest).1 hdigest with hdigest | hdecoy
      · exact (hfound.only digest hdigest).imp_left (mem_append_left _)
      · exact .inl (mem_append_right _ hdecoy)
  | .arr items, rng, frame, processed, h, hordered, hfree => by
    obtain ⟨array, harray, rfl⟩ := processValue_arr h
    exact found_elements items harray hordered hfree
  | .null, _, _, _, h, _, _ | .bool _, _, _, _, h, _, _ | .int _, _, _, _, h, _, _ | .float _, _, _, _, h, _, _
  | .str _, _, _, _, h, _, _ => by
    cases h
    exact found_nil _

theorem found_members : ∀ (fields : List (String × Json)) {rng : Rng} {frame : Option Fields}
    {members : Processed Members}, processMembers codec hasher rng frame fields = .ok members →
    OrderedFields fields → (keys fields).Nodup → FreeFields digestKeys fields →
    Found (members.value.sdDigests ++ collectMembers members.value.result)
      (ownersOfMembers frame fields members.drawn)
      members.drawn
  | [], _, _, members, h, _, _, _ => by
    cases h
    exact found_nil _
  | (key, value) :: fields, rng, frame, members, h, hordered, hnodup, hfree => by
    obtain ⟨hnew, hnodup⟩ := nodup_cons.1 hnodup
    obtain ⟨sub, later, hsub, hcases⟩ := processMembers_cons h
    have hinside : Found (collectDigests sub.value)
      (ownersOf (frame.bind (·.lookup key)) value sub.drawn) sub.drawn :=
      processSub_cases (P := fun subFrame sub =>
        Found (collectDigests sub.value) (ownersOf subFrame value sub.drawn) sub.drawn) hsub
        (by rw [collectDigests_of_free value hfree.1.2]; exact found_nil _)
        fun _ hvalue => found_value value hvalue hordered.1 hfree.1.2
    rcases hcases with ⟨hkey, d, hd, hlater, rfl⟩ | ⟨hkey, hlater, rfl⟩
    · have hfound := found_members fields hlater hordered.2 hnodup hfree.2
      rw [ownersOfMembers_sd hsub hkey]
      refine hfound.sd ownersOf_ne_nil (ownersOfMembers_ne hnew) ownersOfMembers_ne_nil fun digest => ?_
      rw [cons_append, mem_cons]
    · have hfound := found_members fields hlater hordered.2 hnodup hfree.2
      rw [ownersOfMembers_clear hsub hkey]
      refine hinside.clear hfound ownersOf_ne_nil (ownersOfMembers_ne hnew) ownersOfMembers_ne_nil fun digest => ?_
      have hsd : key ≠ "_sd" := fun heq => hfree.1.1 (heq ▸ by decide)
      rw [collectMembers, if_neg hsd, mem_append, mem_append, mem_append]
      exact or_left_comm

theorem found_elements : ∀ (items : List Json) {rng : Rng} {frame : Option Fields} {i : ℕ}
    {array : Processed (List Json)}, processElements codec hasher rng frame i items = .ok array →
    OrderedItems items → FreeItems digestKeys items →
    Found (collectItems array.value) (ownersOfElements frame i items array.drawn) array.drawn
  | [], _, _, _, array, h, _, _ => by
    cases h
    exact found_nil _
  | item :: items, rng, frame, i, array, h, hordered, hfree => by
    rcases processElements_cons h with ⟨hindex, d, later, hd, hlater, rfl⟩ | ⟨hindex, sub, later, hsub, hlater, rfl⟩
    · have hfound := found_elements items hlater hordered.2 hfree.2
      rw [ownersOfElements_sd hindex]
      refine hfound.sd (fun _ howner => absurd howner not_mem_nil) ownersOfElements_ne ownersOfElements_ne_nil
        fun digest => ?_
      simp [collectItems, collectDigests, collectMembers, sdDigests, lookup_cons, asStr]
    · have hfound := found_elements items hlater hordered.2 hfree.2
      have hinside : Found (collectDigests sub.value) (ownersOf (frame.bind (·.lookup (toString i))) item sub.drawn)
          sub.drawn :=
        processSub_cases (P := fun subFrame sub =>
          Found (collectDigests sub.value) (ownersOf subFrame item sub.drawn) sub.drawn) hsub
          (by rw [collectDigests_of_free item hfree.1]; exact found_nil _)
          fun _ hvalue => found_value item hvalue hordered.1 hfree.1
      rw [ownersOfElements_clear hsub hindex]
      refine hinside.clear hfound ownersOf_ne_nil ownersOfElements_ne ownersOfElements_ne_nil fun digest => ?_
      rw [collectItems, mem_append]

end

/-! ## Verification of what was issued -/

/-- No two strings that were hashed in a run have one digest. -/
structure DistinctDigests (drawn : Drawn) : Prop where
  nodup : (drawn.disclosures.map Disclosure.digest).Nodup
  decoys : ∀ d ∈ drawn.disclosures, d.digest ∉ drawn.decoys

theorem DistinctDigests.collisionFree {drawn : Drawn} (h : DistinctDigests drawn) : CollisionFree drawn :=
  ⟨fun _ hd _ hother heq => inj_on_of_nodup_map h.nodup hd hother heq, h.decoys⟩

section Issued

variable {fields : Fields} {frame : Json} {rng : Rng} {issued : Processed Json}

theorem issuePayload_obj (h : issuePayload codec hasher (.obj fields) frame none rng = .ok issued) :
    (obj fields).Free ["..."] ∧ ∃ object, processObject codec hasher rng fields frame.asObject = .ok object ∧
      issued.drawn = object.drawn ∧ issued.value = .obj (if object.drawn.disclosures = [] then object.value
        else insert "_sd_alg" (.str hasher.algName) object.value) := by
  obtain ⟨hvalid, h⟩ := unit_bind_eq_ok_iff.1 h
  obtain ⟨object, hobject, h⟩ := bind_eq_ok_iff.1 h
  cases h
  exact ⟨(validateNoReservedKeys_iff _).1 hvalid, object, hobject, rfl, rfl⟩

variable {object : Processed Fields}

theorem keys_processObject {frame : Option Fields} (h : processObject codec hasher rng fields frame = .ok object)
    {name : String} (hname : name ∈ object.value.keys) : name = "_sd" ∨ name ∈ fields.keys := by
  obtain ⟨members, decoys, hmembers, -, digests, -, hvalue⟩ := processObjectOf_eq_ok h
  rw [hvalue] at hname
  split_ifs at hname
  · exact .inr ((keys_result hmembers).subset hname)
  · exact (mem_keys_insert.1 hname).imp_right fun hmem => (keys_result hmembers).subset hmem

theorem collectDigests_payload (halg : "_sd_alg" ∉ object.value.keys) (alg digest : String) :
    digest ∈ collectDigests (.obj (insert "_sd_alg" (.str alg) object.value)) ↔ digest ∈
    collectDigests (.obj object.value) := by
  have hperm : (insert "_sd_alg" (.str alg) object.value).Perm _ := insert_perm halg
  have hmembers : digest ∈ collectMembers (insert "_sd_alg" (.str alg) object.value) ↔
      digest ∈ collectMembers object.value := by
    rw [mem_collectMembers, mem_collectMembers]
    simp only [hperm.mem_iff, mem_cons, exists_eq_or_imp, collectDigests, not_mem_nil, and_false, false_or]
  have hdigests : sdDigests (insert "_sd_alg" (.str alg) object.value) = sdDigests object.value := by
    rw [sdDigests, lookup_insert_of_ne (by decide), sdDigests]
  simp only [collectDigests, mem_append, hmembers, hdigests]
  rw [lookup_insert_of_ne (by decide)]

theorem checkSdAlg_payload (halg : "_sd_alg" ∉ object.value.keys) :
    checkSdAlg hasher
    (.obj (if object.drawn.disclosures = [] then object.value else insert "_sd_alg"
    (.str hasher.algName) object.value)) = .ok () := by
  rw [checkSdAlg]
  split_ifs
  · rw [strField, get?, lookup_eq_none halg]
    rfl
  · rw [strField, get?, lookup_insert]
    exact if_neg (not_not.2 rfl)

theorem found_payload (h : issuePayload codec hasher (.obj fields) frame none rng = .ok issued)
    (hordered : (obj fields).Ordered) (hfree : (obj fields).Free digestKeys)
    (halg : "_sd_alg" ∉ fields.keys) : Found (collectDigests issued.value)
    ((disclosable frame (.obj fields)).zip issued.drawn.disclosures) issued.drawn ∧
    checkSdAlg hasher issued.value = .ok () := by
  obtain ⟨-, object, hobject, hdrawn, hvalue⟩ := issuePayload_obj h
  have hprocessed : processValue codec hasher rng frame (.obj fields) = .ok ⟨.obj object.value, object.drawn⟩ := by
    rw [processValue]
    exact bind_eq_ok_iff.2 ⟨object, hobject, rfl⟩
  have halg' : "_sd_alg" ∉ object.value.keys := fun hmem =>
    (keys_processObject hobject hmem).elim (by decide) halg
  have hfound := found_value (.obj fields) hprocessed hordered hfree
  have hsame (digest : String) : digest ∈ collectDigests issued.value ↔
    digest ∈ collectDigests (.obj object.value) := by
    rw [hvalue]
    split_ifs
    · exact Iff.rfl
    · exact collectDigests_payload halg' _ digest
  constructor
  · rw [hdrawn]
    exact ⟨fun d hd => (hsame _).2 (hfound.outermost d hd),
      fun digest hdigest => hfound.only digest ((hsame _).1 hdigest)⟩
  · rw [hvalue]
    exact checkSdAlg_payload halg'

theorem built_payload (h : issuePayload codec hasher (.obj fields) frame none rng = .ok issued) :
    (∀ d ∈ issued.drawn.disclosures, Built hasher d) ∧
      (disclosable frame (.obj fields)).length = issued.drawn.disclosures.length := by
  obtain ⟨-, object, hobject, hdrawn, -⟩ := issuePayload_obj h
  have hprocessed : processValue codec hasher rng frame (.obj fields) = .ok ⟨.obj object.value, object.drawn⟩ := by
    rw [processValue]
    exact bind_eq_ok_iff.2 ⟨object, hobject, rfl⟩
  have hlength := congrArg length (sameNames_value _ hprocessed)
  rw [length_map, length_map] at hlength
  rw [hdrawn]
  exact ⟨built_value _ hprocessed, hlength⟩

/-- No disclosure is made inside a disclosed value: no disclosable path lies in another. -/
def Flat (paths : List Path) : Prop := ∀ path ∈ paths, ∀ other ∈ paths, other <+: path → other = path

variable {paths : List Path} {ds : List Disclosure}

theorem exists_owner (h : paths.length = ds.length) {path : Path} (hpath : path ∈ paths) :
    ∃ d, (path, d) ∈ paths.zip ds := by
  rw [← map_fst_zip h.le] at hpath
  obtain ⟨owner, howner, rfl⟩ := mem_map.1 hpath
  exact ⟨owner.2, howner⟩

theorem owner_unique (hnodup : ds.Nodup) {path other : Path} {d : Disclosure} (h : (path, d) ∈ paths.zip ds)
    (h' : (other, d) ∈ paths.zip ds) : path = other := by
  induction paths generalizing ds with
  | nil => cases h
  | cons first paths ih =>
    cases ds with
    | nil => cases h
    | cons d' ds =>
      obtain ⟨hnew, hnodup⟩ := nodup_cons.1 hnodup
      rcases mem_cons.1 h with heq | hmem <;> rcases mem_cons.1 h' with heq' | hmem'
      · rw [(Prod.mk.inj heq).1, (Prod.mk.inj heq').1]
      · exact absurd ((Prod.mk.inj heq).2 ▸ (of_mem_zip hmem').2) hnew
      · exact absurd ((Prod.mk.inj heq').2 ▸ (of_mem_zip hmem).2) hnew
      · exact ih hnodup hmem hmem'

/-- Every disclosure is found in the payload exactly when none is made inside another. -/
theorem found_all_iff_flat {drawn : Drawn} {digests : List String}
    (hfound : Found digests (paths.zip drawn.disclosures) drawn)
    (hlength : paths.length = drawn.disclosures.length) (hdistinct : DistinctDigests drawn) :
    (∀ d ∈ drawn.disclosures, d.digest ∈ digests) ↔ Flat paths := by
  constructor
  · intro hall path hpath other hother hbelow
    obtain ⟨d, howner⟩ := exists_owner hlength hpath
    have hd : d ∈ drawn.disclosures := (of_mem_zip howner).2
    rcases hfound.only _ (hall d hd) with hdecoy | ⟨d', hd', hdigest⟩
    · exact absurd hdecoy (hdistinct.decoys d hd)
    · obtain ⟨path', howner', houter⟩ := mem_outermost.1 hd'
      obtain rfl := inj_on_of_nodup_map hdistinct.nodup (of_mem_zip howner').2 hd hdigest
      obtain rfl := owner_unique hdistinct.nodup.of_map howner howner'
      obtain ⟨d', howner'⟩ := exists_owner hlength hother
      exact houter (other, d') howner' hbelow
  · intro hflat d hd
    have hsnd : d ∈ (paths.zip drawn.disclosures).map Prod.snd := by rwa [map_snd_zip hlength.ge]
    obtain ⟨⟨path, d⟩, howner, rfl⟩ := mem_map.1 hsnd
    refine hfound.outermost d (mem_outermost.2 ⟨path, howner, fun other hother hbelow => ?_⟩)
    exact hflat path (of_mem_zip howner).1 other.1 (of_mem_zip hother).1 hbelow

theorem get?_eq_none_iff {key : String} : (obj fields).get? key = none ↔ key ∉ fields.keys := by
  constructor
  · intro h hmem
    obtain ⟨member, hmember, rfl⟩ := mem_map.1 hmem
    rw [get?, lookup_eq_none_iff] at h
    simpa using h member hmember
  · exact lookup_eq_none

theorem prune_all_shown (ds : List Disclosure) (value : Json) :
    prune (hidden (paths.zip ds) ds) value = value := by
  have hnone : hidden (paths.zip ds) ds = fun _ => false := by
    funext path
    rw [hidden, any_eq_false]
    intro owner howner
    simp [(of_mem_zip howner).2]
  rw [hnone, prune_none]

end Issued

/-- All disclosures of an issued SD-JWT verify to the original claims if and only if the claims have no
`_sd` at any level and no `_sd_alg` at the top, and no disclosable path lies inside another. -/
theorem verify_issued_iff {claims frame : Json} {rng : Rng} {issued : Processed Json} {signer : JwtSigner}
    {verifier : JwtVerifier} {jws : String} (hordered : claims.Ordered)
    (hissued : issuePayload codec hasher claims frame none rng = .ok issued)
    (hsign : signer.signJwt (jwtHeader signer) issued.value = .ok jws)
    (hverify : verifier.verifyJwt jws = .ok issued.value) (hdistinct : DistinctDigests issued.drawn) :
    (∃ sdJwt, issue codec hasher claims frame signer none rng = .ok sdJwt ∧
      ∃ fuel, verify hasher fuel sdJwt verifier {} none = some (.ok ⟨claims, none⟩)) ↔
      claims.Free ["_sd"] ∧ claims.get? "_sd_alg" = none ∧ Flat (disclosable frame claims) := by
  have hissue := issue_eq hissued signer
  rw [hsign] at hissue
  cases claims with
  | null | bool | int | float | str | arr => cases hissued
  | obj fields =>
    obtain ⟨hdots, object, hobject, hdrawn, hvalue⟩ := issuePayload_obj hissued
    obtain ⟨hbuilt, hlength⟩ := built_payload hissued
    have hnames : ∀ d ∈ issued.drawn.disclosures, d.claimName ≠ some "_sd" := fun d hd => (hbuilt d hd).2
    have hkeys (hsd : (obj fields).Free ["_sd"]) : (obj fields).Free digestKeys :=
      (free_iff _).2 fun name hname => by
        rcases mem_pair.1 hname with rfl | rfl
        · exact hsd
        · exact hdots
    constructor
    · rintro ⟨sdJwt, hsdJwt, fuel, hresult⟩
      cases hsdJwt.symm.trans hissue
      rw [verify] at hresult
      split at hresult
      · cases hresult
      · rename_i payload haccept
        rw [acceptDisclosures, hverify, ok_bind] at haccept
        obtain ⟨-, haccept⟩ := unit_bind_eq_ok_iff.1 haccept
        obtain ⟨-, haccept⟩ := unit_bind_eq_ok_iff.1 haccept
        obtain ⟨hdigests, haccept⟩ := unit_bind_eq_ok_iff.1 haccept
        cases haccept
        obtain ⟨resolved, hresolved, hclaims⟩ := Option.map_eq_some_iff.1 hresult
        obtain ⟨kb, hkb, hclaims⟩ := bind_eq_ok_iff.1 hclaims
        obtain rfl : resolved = .obj fields := congrArg VerificationResult.claims (Except.ok.inj hclaims)
        -- what is resolved has no `_sd` and no `_sd_alg` left
        obtain ⟨hsd, halg⟩ := free_of_resolveClaims hnames (by rw [hvalue]; rfl) hresolved
        obtain ⟨hfound, -⟩ := found_payload hissued hordered (hkeys hsd) (get?_eq_none_iff.1 halg)
        refine ⟨hsd, halg, (found_all_iff_flat hfound hlength hdistinct).1 fun d hd => ?_⟩
        rw [← (hbuilt d hd).1]
        exact verifyDisclosureDigests_eq_ok_iff.1 hdigests d hd
    · rintro ⟨hsd, halg, hflat⟩
      obtain ⟨hfound, hchecked⟩ := found_payload hissued hordered (hkeys hsd) (get?_eq_none_iff.1 halg)
      have hdigests := (found_all_iff_flat hfound hlength hdistinct).2 hflat
      -- flat disclosures have all their digests in the payload
      have haccept : acceptDisclosures hasher ⟨jws, issued.drawn.disclosures, none⟩ verifier = .ok issued.value := by
        rw [acceptDisclosures, hverify, ok_bind, hchecked, ok_bind,
          checkDuplicateDisclosures_eq_ok_iff.2 hdistinct.nodup, ok_bind,
          verifyDisclosureDigests_eq_ok_iff.2 fun d hd => by rw [(hbuilt d hd).1]; exact hdigests d hd]
        rfl
      have hresolved := resolveClaims_payload hissued hordered (hkeys hsd) (get?_eq_none_iff.1 halg)
        (hdistinct.collisionFree.known (Subset.refl _)) le_rfl
      refine ⟨_, hissue, (obj fields).depth, ?_⟩
      rw [verify, haccept]
      dsimp only
      rw [hresolved, prune_all_shown]
      rfl

/-- A codec that writes the names of claims. -/
def nameCodec : JsonCodec where
  toStr
    | .arr [_, .str name, _] => name
    | _ => ""
  fromStr _ := none

def oneSigner : JwtSigner := ⟨"HS256", none, fun _ _ => .ok "jws"⟩

/-- The user's claims come back from the verifier. -/
theorem verify_issued_user :
    ∃ issued, issuePayload nameCodec SdJwt.plainHasher userClaims userFrame none zeroRng = .ok issued ∧
      ∃ sdJwt, issue nameCodec SdJwt.plainHasher userClaims userFrame oneSigner none zeroRng = .ok sdJwt ∧
        ∃ fuel, verify SdJwt.plainHasher fuel sdJwt ⟨fun _ => .ok issued.value⟩ {} none =
          some (.ok ⟨userClaims, none⟩) := by
  refine ⟨_, rfl, (verify_issued_iff userClaims_ordered rfl rfl rfl ⟨by decide +kernel, by decide +kernel⟩).2
    ⟨?_, rfl, ?_⟩⟩
  · exact ⟨⟨by decide, trivial⟩, ⟨by decide, trivial⟩, trivial⟩
  · unfold Flat
    decide +kernel

def streetClaims : Json := .obj [("address", .obj [("street", .str "Main")])]

/-- The address is disclosable, and in it the street. -/
def streetFrame : Json :=
  .obj [("_sd", .arr [.str "address"]), ("address", .obj [("_sd", .arr [.str "street"])])]

/-- The street's digest stands in the value of the address, where the verifier does not look. -/
theorem verify_street_fails :
    ∃ issued, issuePayload nameCodec SdJwt.plainHasher streetClaims streetFrame none zeroRng = .ok issued ∧
      DistinctDigests issued.drawn ∧
      ∃ sdJwt, issue nameCodec SdJwt.plainHasher streetClaims streetFrame oneSigner none zeroRng = .ok sdJwt ∧
        ∃ e, ∀ fuel, verify SdJwt.plainHasher fuel sdJwt ⟨fun _ => .ok issued.value⟩ {} none = some (.error e) := by
  refine ⟨_, rfl, ⟨by decide +kernel, by decide +kernel⟩, _, rfl,
    .verification ("disclosure digest not found in payload: " ++
      SdJwt.plainHasher.hashB64 (String.ofList (Base64.encode (Text.utf8 "street")))), fun fuel => ?_⟩
  exact verify_of_error (by decide +kernel) fuel

end AffinidiTdk.Credentials
