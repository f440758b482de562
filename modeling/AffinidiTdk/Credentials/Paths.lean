/-
Selective disclosure on paths. The specification knows nothing of digests: a frame marks paths of the
claims as disclosable, each has a disclosure of its own, and what a presentation shows is the claims
without the marked paths whose disclosures are not in it. Issuance makes one disclosure for each
marked path, in their order.
-/
import AffinidiTdk.Credentials.Issuer

namespace AffinidiTdk.Credentials

open Fallible List Drawn Disclosure
open Json (Fields)

/-! ## Claims without some paths -/

/-- A step from a value into one of its parts. -/
inductive Step
  | key (name : String)
  | index (i : ℕ)
  deriving DecidableEq

abbrev Path := List Step

mutual

/-- The value without the members and elements at hidden paths. -/
def prune (hidden : Path → Bool) : Json → Json
  | .obj fields => .obj (pruneMembers hidden fields)
  | .arr items => .arr (pruneElements hidden 0 items)
  | value => value

def pruneMembers (hidden : Path → Bool) : List (String × Json) → List (String × Json)
  | [] => []
  | (key, value) :: fields =>
    if hidden [.key key] then pruneMembers hidden fields
    else (key, prune (fun path => hidden (.key key :: path)) value) :: pruneMembers hidden fields

def pruneElements (hidden : Path → Bool) (i : ℕ) : List Json → List Json
  | [] => []
  | item :: items =>
    if hidden [.index i] then pruneElements hidden (i + 1) items
    else prune (fun path => hidden (.index i :: path)) item :: pruneElements hidden (i + 1) items

end

mutual

/-- The paths that a frame makes disclosable, a value's own path after those inside it. -/
def disclosable (frame : Json) : Json → List Path
  | .obj fields => disclosableMembers frame.asObject fields
  | .arr items => disclosableElements frame.asObject 0 items
  | _ => []

def disclosableMembers (frame : Option Fields) : List (String × Json) → List Path
  | [] => []
  | (key, value) :: fields =>
    let inside := match frame.bind (·.lookup key) with
      | some subFrame => disclosable subFrame value
      | none => []
    let own := if key ∈ sdClaims frame then [[.key key]] else []
    inside.map (.key key :: ·) ++ own ++ disclosableMembers frame fields

def disclosableElements (frame : Option Fields) (i : ℕ) : List Json → List Path
  | [] => []
  | item :: items =>
    let inside := match frame.bind (·.lookup (toString i)) with
      | some subFrame => disclosable subFrame item
      | none => []
    let here := if i ∈ sdIndices frame then [[.index i]] else inside.map (.index i :: ·)
    here ++ disclosableElements frame (i + 1) items

end

/-- Disclosable paths with their disclosures. -/
abbrev Owners := List (Path × Disclosure)

/-- The disclosure of the path is not among those that are shown. -/
def hidden (owners : Owners) (shown : List Disclosure) (path : Path) : Bool :=
  owners.any fun owner => owner.1 = path ∧ owner.2 ∉ shown

/-! ## Pruning -/

section Pruning

variable {f g : Path → Bool}

theorem pruneMembers_congr {fields : Fields}
    (h : ∀ key ∈ fields.keys, ∀ path, f (.key key :: path) = g (.key key :: path)) :
    pruneMembers f fields = pruneMembers g fields := by
  induction fields with
  | nil => rfl
  | cons member fields ih =>
    obtain ⟨key, value⟩ := member
    have hhere := h key mem_cons_self
    rw [pruneMembers, pruneMembers, hhere [], funext hhere, ih fun name hname => h name (mem_cons_of_mem _ hname)]

theorem pruneElements_congr {items : List Json} {i : ℕ}
    (h : ∀ j, i ≤ j → ∀ path, f (.index j :: path) = g (.index j :: path)) :
    pruneElements f i items = pruneElements g i items := by
  induction items generalizing i with
  | nil => rfl
  | cons item items ih =>
    have hhere := h i le_rfl
    rw [pruneElements, pruneElements, hhere [], funext hhere, ih fun j hj => h j (Nat.le_of_succ_le hj)]

mutual

theorem prune_none : ∀ value : Json, prune (fun _ => false) value = value
  | .obj fields => congrArg Json.obj (pruneMembers_none fields)
  | .arr items => congrArg Json.arr (pruneElements_none 0 items)
  | .null | .bool _ | .int _ | .float _ | .str _ => rfl

theorem pruneMembers_none : ∀ fields : List (String × Json), pruneMembers (fun _ => false) fields = fields
  | [] => rfl
  | (key, value) :: fields => by
    rw [pruneMembers, if_neg Bool.false_ne_true, prune_none value, pruneMembers_none fields]

theorem pruneElements_none (i : ℕ) : ∀ items : List Json, pruneElements (fun _ => false) i items = items
  | [] => rfl
  | item :: items => by
    rw [pruneElements, if_neg Bool.false_ne_true, prune_none item, pruneElements_none (i + 1) items]

end

mutual

variable {names : List String}

theorem free_prune (f : Path → Bool) : ∀ value : Json, value.Free names → (prune f value).Free names
  | .obj fields, h => free_pruneMembers f fields h
  | .arr items, h => free_pruneElements f 0 items h
  | .null, _ | .bool _, _ | .int _, _ | .float _, _ | .str _, _ => trivial

theorem free_pruneMembers (f : Path → Bool) : ∀ fields : List (String × Json), Json.FreeFields names fields →
    Json.FreeFields names (pruneMembers f fields)
  | [], _ => trivial
  | (key, value) :: fields, ⟨⟨hkey, hvalue⟩, hfields⟩ => by
    rw [pruneMembers]
    split_ifs
    · exact free_pruneMembers f fields hfields
    · exact ⟨⟨hkey, free_prune _ value hvalue⟩, free_pruneMembers f fields hfields⟩

theorem free_pruneElements (f : Path → Bool) (i : ℕ) : ∀ items : List Json, Json.FreeItems names items →
    Json.FreeItems names (pruneElements f i items)
  | [], _ => trivial
  | item :: items, ⟨hitem, hitems⟩ => by
    rw [pruneElements]
    split_ifs
    · exact free_pruneElements f (i + 1) items hitems
    · exact ⟨free_prune _ item hitem, free_pruneElements f (i + 1) items hitems⟩

end

end Pruning

/-! ## Owners -/

section Owners

variable {owners others : Owners} {shown : List Disclosure} {step other : Step} {path : Path}

/-- The owners inside a part, seen from the value. -/
def Owners.under (step : Step) (owners : Owners) : Owners := owners.map fun owner => (step :: owner.1, owner.2)

theorem hidden_append : hidden (owners ++ others) shown path =
    (hidden owners shown path || hidden others shown path) :=
  any_append

theorem hidden_under : hidden (owners.under step) shown (step :: path) = hidden owners shown path := by
  rw [hidden, Owners.under, any_map]
  simp only [hidden, Function.comp_def, List.cons.injEq, true_and]

theorem hidden_eq_false (h : ∀ owner ∈ owners, owner.1 ≠ path) : hidden owners shown path = false := by
  rw [hidden, any_eq_false]
  intro owner howner
  simp [h owner howner]

theorem hidden_under_of_ne (h : step ≠ other) : hidden (owners.under step) shown (other :: path) = false := by
  refine hidden_eq_false ?_
  rintro owner howner heq
  obtain ⟨inner, -, rfl⟩ := mem_map.1 howner
  exact h (List.cons.inj heq).1

theorem hidden_singleton (d : Disclosure) : hidden [(path, d)] shown path = decide (d ∉ shown) := by simp [hidden]

theorem zip_under (paths : List Path) (ds : List Disclosure) :
    (paths.map (step :: ·)).zip ds = Owners.under step (paths.zip ds) := by
  rw [Owners.under, zip_map_left]
  rfl

/-- The owners at a step: those inside the part, its own disclosure if it has one, and the rest. -/
def Owners.at (step : Step) (inside : Owners) (own : Option Disclosure) (rest : Owners) : Owners :=
  inside.under step ++ own.toList.map ([step], ·) ++ rest

variable {inside rest : Owners} {own : Option Disclosure}

theorem hidden_at_self (hinside : ∀ owner ∈ inside, owner.1 ≠ [])
    (hrest : ∀ owner ∈ rest, ∀ path, owner.1 ≠ step :: path) :
    hidden (.at step inside own rest) shown [step] = own.any (· ∉ shown) := by
  rw [Owners.at, hidden_append, hidden_append, hidden_under, hidden_eq_false hinside,
    hidden_eq_false fun owner howner => hrest owner howner [], Bool.false_or, Bool.or_false]
  cases own with
  | none => rfl
  | some d => exact hidden_singleton d

theorem hidden_at_inside (hown : own.any (· ∉ shown) = false)
    (hrest : ∀ owner ∈ rest, ∀ path, owner.1 ≠ step :: path)
    (path : Path) : hidden (.at step inside own rest) shown (step :: path) = hidden inside shown path := by
  rw [Owners.at, hidden_append, hidden_append, hidden_under,
    hidden_eq_false fun owner howner => hrest owner howner path, Bool.or_false]
  cases own with
  | none => exact Bool.or_false _
  | some d =>
    have hd : d ∈ shown := by simpa using hown
    simp [hidden, hd]

theorem hidden_at_rest (h : step ≠ other) :
    hidden (.at step inside own rest) shown (other :: path) = hidden rest shown (other :: path) := by
  have hself : hidden (own.toList.map ([step], ·)) shown (other :: path) = false := by
    refine hidden_eq_false ?_
    rintro owner howner heq
    obtain ⟨d, -, rfl⟩ := mem_map.1 howner
    exact h (List.cons.inj heq).1
  rw [Owners.at, hidden_append, hidden_append, hidden_under_of_ne h, hself, Bool.or_self, Bool.false_or]

theorem pruneMembers_at {key : String} {value : Json} {fields : Fields} (hkey : key ∉ fields.keys)
    (hinside : ∀ owner ∈ inside, owner.1 ≠ []) (hrest : ∀ owner ∈ rest, ∀ path, owner.1 ≠ .key key :: path) :
    pruneMembers (hidden (.at (.key key) inside own rest) shown) ((key, value) :: fields) =
      (if own.any (· ∉ shown) then [] else [(key, prune (hidden inside shown) value)]) ++
        pruneMembers (hidden rest shown) fields := by
  have htail : pruneMembers (hidden (.at (.key key) inside own rest) shown) fields =
      pruneMembers (hidden rest shown) fields :=
    pruneMembers_congr fun name hname path => hidden_at_rest fun heq => hkey ((Step.key.inj heq) ▸ hname)
  rw [pruneMembers, hidden_at_self hinside hrest, htail]
  split_ifs with hown
  · rfl
  · rw [funext (hidden_at_inside (Bool.eq_false_of_not_eq_true hown) hrest)]
    rfl

theorem pruneElements_at {i : ℕ} {item : Json} {items : List Json} (hinside : ∀ owner ∈ inside, owner.1 ≠ [])
    (hrest : ∀ owner ∈ rest, ∀ path, owner.1 ≠ .index i :: path) :
    pruneElements (hidden (.at (.index i) inside own rest) shown) i (item :: items) =
      (if own.any (· ∉ shown) then [] else [prune (hidden inside shown) item]) ++
        pruneElements (hidden rest shown) (i + 1) items := by
  have htail : pruneElements (hidden (.at (.index i) inside own rest) shown) (i + 1) items =
      pruneElements (hidden rest shown) (i + 1) items :=
    pruneElements_congr fun j hj path => hidden_at_rest fun heq => absurd (Step.index.inj heq) (by omega)
  rw [pruneElements, hidden_at_self hinside hrest, htail]
  split_ifs with hown
  · rfl
  · rw [funext (hidden_at_inside (Bool.eq_false_of_not_eq_true hown) hrest)]
    rfl

end Owners

/-! ## What issuance makes -/

section Issuance

variable {codec : JsonCodec} {hasher : Hasher} {rng : Rng} {frame : Option Fields}

/-- A value under the frame of its own that it may have. -/
def processSub (codec : JsonCodec) (hasher : Hasher) (rng : Rng) (subFrame : Option Json) (value : Json) :
    Except SdJwtError (Processed Json) :=
  match subFrame with
  | some subFrame => processValue codec hasher rng subFrame value
  | none => .ok ⟨value, {}⟩

def disclosableSub (subFrame : Option Json) (value : Json) : List Path :=
  match subFrame with
  | some subFrame => disclosable subFrame value
  | none => []

theorem processSub_cases {P : Option Json → Processed Json → Prop} {subFrame : Option Json} {value : Json}
    {sub : Processed Json} (h : processSub codec hasher rng subFrame value = .ok sub) (hnone : P none ⟨value, {}⟩)
    (hsome : ∀ subFrame, processValue codec hasher rng subFrame value = .ok sub → P (some subFrame) sub) :
    P subFrame sub := by
  cases subFrame with
  | none =>
    cases h
    exact hnone
  | some subFrame => exact hsome subFrame h

theorem processMembers_eq (key : String) (value : Json) (fields : Fields) :
    processMembers codec hasher rng frame ((key, value) :: fields) =
      (processSub codec hasher rng (frame.bind (·.lookup key)) value >>= fun sub =>
        if key ∈ sdClaims frame then
          let d := newClaim codec hasher (rng.after sub.drawn) key sub.value
          processMembers codec hasher (rng.after (sub.drawn.push d)) frame fields >>= fun later =>
            .ok ⟨⟨later.value.result, d.digest :: later.value.sdDigests⟩, (sub.drawn.push d).append later.drawn⟩
        else
          processMembers codec hasher (rng.after sub.drawn) frame fields >>= fun later =>
            .ok ⟨⟨(key, sub.value) :: later.value.result, later.value.sdDigests⟩,
              sub.drawn.append later.drawn⟩) := by
  rw [processMembers]
  rfl

theorem processElements_eq (i : ℕ) (item : Json) (items : List Json) :
    processElements codec hasher rng frame i (item :: items) =
      if i ∈ sdIndices frame then
        let d := newArrayElement codec hasher rng item
        processElements codec hasher (rng.after (push {} d)) frame (i + 1) items >>= fun later =>
          .ok ⟨.obj [("...", .str d.digest)] :: later.value, (push {} d).append later.drawn⟩
      else
        processSub codec hasher rng (frame.bind (·.lookup (toString i))) item >>= fun sub =>
          processElements codec hasher (rng.after sub.drawn) frame (i + 1) items >>= fun later =>
            .ok ⟨sub.value :: later.value, sub.drawn.append later.drawn⟩ := by
  rw [processElements]
  rfl

theorem processMembers_cons {key : String} {value : Json} {fields : Fields} {members : Processed Members}
    (h : processMembers codec hasher rng frame ((key, value) :: fields) = .ok members) : ∃ sub later,
    processSub codec hasher rng (frame.bind (·.lookup key)) value = .ok sub ∧
    ((key ∈ sdClaims frame ∧ ∃ d, d = newClaim codec hasher (rng.after sub.drawn) key sub.value ∧
    processMembers codec hasher (rng.after (sub.drawn.push d)) frame fields = .ok later ∧ members =
    ⟨⟨later.value.result, d.digest :: later.value.sdDigests⟩, (sub.drawn.push d).append later.drawn⟩) ∨
    key ∉ sdClaims frame ∧ processMembers codec hasher (rng.after sub.drawn) frame fields = .ok later ∧ members =
    ⟨⟨(key, sub.value) :: later.value.result, later.value.sdDigests⟩, sub.drawn.append later.drawn⟩) := by
  rw [processMembers_eq] at h
  obtain ⟨sub, hsub, h⟩ := bind_eq_ok_iff.1 h
  split_ifs at h with hkey
  · obtain ⟨later, hlater, h⟩ := bind_eq_ok_iff.1 h
    exact ⟨sub, later, hsub, .inl ⟨hkey, _, rfl, hlater, (Except.ok.inj h).symm⟩⟩
  · obtain ⟨later, hlater, h⟩ := bind_eq_ok_iff.1 h
    exact ⟨sub, later, hsub, .inr ⟨hkey, hlater, (Except.ok.inj h).symm⟩⟩

variable {items : List Json}

theorem processElements_cons {i : ℕ} {item : Json} {array : Processed (List Json)}
    (h : processElements codec hasher rng frame i (item :: items) = .ok array) :
    (i ∈ sdIndices frame ∧ ∃ d later, d = newArrayElement codec hasher rng item ∧ processElements codec
    hasher (rng.after (push {} d)) frame (i + 1) items = .ok later ∧ array =
    ⟨.obj [("...", .str d.digest)] :: later.value, (push {} d).append later.drawn⟩) ∨ i ∉ sdIndices frame ∧
    ∃ sub later, processSub codec hasher rng (frame.bind (·.lookup (toString i))) item = .ok sub ∧
    processElements codec hasher (rng.after sub.drawn) frame (i + 1) items = .ok later ∧ array =
    ⟨sub.value :: later.value, sub.drawn.append later.drawn⟩ := by
  rw [processElements_eq] at h
  split_ifs at h with hindex
  · obtain ⟨later, hlater, h⟩ := bind_eq_ok_iff.1 h
    exact .inl ⟨hindex, _, later, rfl, hlater, (Except.ok.inj h).symm⟩
  · obtain ⟨sub, hsub, h⟩ := bind_eq_ok_iff.1 h
    obtain ⟨later, hlater, h⟩ := bind_eq_ok_iff.1 h
    exact .inr ⟨hindex, sub, later, hsub, hlater, (Except.ok.inj h).symm⟩

theorem processObjectOf_eq_ok {loop : Except SdJwtError (Processed Members)} {object : Processed Fields}
    (h : processObjectOf hasher rng frame loop = .ok object) : ∃ members decoys, loop = .ok members ∧
    object.drawn = members.drawn.append ⟨[], decoys⟩ ∧ ∃ digests : List String,
    digests.Perm (members.value.sdDigests ++ decoys) ∧ object.value = if digests = [] then members.value.result
    else Json.Fields.insert "_sd" (.arr (digests.map .str)) members.value.result := by
  unfold processObjectOf at h
  split at h
  · cases h
  · obtain ⟨members, hmembers, h⟩ := bind_eq_ok_iff.1 h
    cases h
    refine ⟨members, _, hmembers, rfl, _, perm_insertionSort (· ≤ ·) _, ?_⟩
    simp only [← length_eq_zero_iff, length_insertionSort]

variable {processed : Processed Json}

theorem processValue_obj {frame : Json} {fields : Fields}
    (h : processValue codec hasher rng frame (.obj fields) = .ok processed) : ∃ object, processObject codec hasher
    rng fields frame.asObject = .ok object ∧ processed = ⟨.obj object.value, object.drawn⟩ := by
  rw [processValue] at h
  obtain ⟨object, hobject, h⟩ := bind_eq_ok_iff.1 h
  exact ⟨object, hobject, (Except.ok.inj h).symm⟩

theorem processValue_arr {frame : Json} (h : processValue codec hasher rng frame (.arr items) = .ok processed) :
    ∃ array, processElements codec hasher rng frame.asObject 0 items = .ok array ∧ processed =
    ⟨.arr array.value, array.drawn⟩ := by
  rw [processValue] at h
  obtain ⟨array, harray, h⟩ := bind_eq_ok_iff.1 h
  exact ⟨array, harray, (Except.ok.inj h).symm⟩

end Issuance

/-! ## Disclosures and paths -/

section Paths

variable {codec : JsonCodec} {hasher : Hasher}

def Step.name : Step → Option String
  | .key name => some name
  | .index _ => none

/-- The claim name of a disclosure for the path. -/
def claimNameAt (path : Path) : Option String := path.getLast?.bind Step.name

variable {path : Path}

theorem claimNameAt_cons (h : path ≠ []) (step : Step) : claimNameAt (step :: path) = claimNameAt path := by
  cases path with
  | nil => exact absurd rfl h
  | cons next path => rw [claimNameAt, getLast?_cons_cons, claimNameAt]

theorem disclosableMembers_cons (frame : Option Fields) (key : String) (value : Json) (fields : Fields) :
    disclosableMembers frame ((key, value) :: fields) = (disclosableSub (frame.bind (·.lookup key)) value).map
    (.key key :: ·) ++ (if key ∈ sdClaims frame then [[.key key]] else []) ++ disclosableMembers frame fields := by
  rw [disclosableMembers]
  rfl

theorem disclosableElements_cons (frame : Option Fields) (i : ℕ) (item : Json) (items : List Json) :
    disclosableElements frame i (item :: items) =
    (if i ∈ sdIndices frame then [[.index i]] else (disclosableSub (frame.bind (·.lookup (toString i))) item).map
    (.index i :: ·)) ++ disclosableElements frame (i + 1) items := by
  rw [disclosableElements]
  rfl

variable {frame : Option Fields} {fields : Fields}

theorem head_members (h : path ∈ disclosableMembers frame fields) :
    ∃ key ∈ fields.keys, ∃ rest, path = .key key :: rest := by
  induction fields with
  | nil => cases h
  | cons member fields ih =>
    rw [disclosableMembers_cons] at h
    rcases mem_append.1 h with h | h
    · refine ⟨member.1, mem_cons_self, ?_⟩
      rcases mem_append.1 h with h | h
      · obtain ⟨inner, -, rfl⟩ := mem_map.1 h
        exact ⟨inner, rfl⟩
      · split_ifs at h
        · exact ⟨[], mem_singleton.1 h⟩
        · cases h
    · obtain ⟨key, hkey, rest, rfl⟩ := ih h
      exact ⟨key, mem_cons_of_mem _ hkey, rest, rfl⟩

variable {items : List Json} {i : ℕ}

theorem head_elements (h : path ∈ disclosableElements frame i items) :
    ∃ j, i ≤ j ∧ ∃ rest, path = .index j :: rest := by
  induction items generalizing i with
  | nil => cases h
  | cons item items ih =>
    rw [disclosableElements_cons] at h
    rcases mem_append.1 h with h | h
    · refine ⟨i, le_rfl, ?_⟩
      split_ifs at h
      · exact ⟨[], mem_singleton.1 h⟩
      · obtain ⟨inner, -, rfl⟩ := mem_map.1 h
        exact ⟨inner, rfl⟩
    · obtain ⟨j, hj, rest, rfl⟩ := ih h
      exact ⟨j, Nat.le_of_succ_le hj, rest, rfl⟩

variable {value : Json}

theorem disclosable_ne_nil {frame : Json} (h : path ∈ disclosable frame value) : path ≠ [] := by
  cases value with
  | obj fields =>
    obtain ⟨key, -, rest, rfl⟩ := head_members h
    exact cons_ne_nil _ _
  | arr items =>
    obtain ⟨j, -, rest, rfl⟩ := head_elements h
    exact cons_ne_nil _ _
  | null | bool | int | float | str => cases h

variable {subFrame : Option Json}

theorem disclosableSub_ne_nil (h : path ∈ disclosableSub subFrame value) : path ≠ [] := by
  cases subFrame with
  | none => cases h
  | some subFrame => exact disclosable_ne_nil h

theorem map_claimNameAt_cons {paths : List Path} (h : ∀ path ∈ paths, path ≠ []) (step : Step) :
    (paths.map (step :: ·)).map claimNameAt = paths.map claimNameAt := by
  rw [map_map]
  exact map_congr_left fun path hpath => claimNameAt_cons (h path hpath) step

/-- What is made under a frame has the claim names of the paths that the frame marks, in their order. -/
def SameNames (subFrame : Option Json) (value : Json) (drawn : Drawn) : Prop :=
  (disclosableSub subFrame value).map claimNameAt = drawn.disclosures.map Disclosure.claimName

mutual

theorem sameNames_value : ∀ (value : Json) {rng : Rng} {frame : Json} {processed : Processed Json},
    processValue codec hasher rng frame value = .ok processed → SameNames (some frame) value processed.drawn
  | .obj fields, rng, frame, processed, h => by
    obtain ⟨object, hobject, rfl⟩ := processValue_obj h
    obtain ⟨members, decoys, hmembers, hdrawn, -⟩ := processObjectOf_eq_ok hobject
    rw [SameNames, hdrawn, append, append_nil]
    exact sameNames_members fields hmembers
  | .arr items, rng, frame, processed, h => by
    obtain ⟨array, harray, rfl⟩ := processValue_arr h
    exact sameNames_elements items harray
  | .null, _, _, _, h | .bool _, _, _, _, h | .int _, _, _, _, h | .float _, _, _, _, h | .str _, _, _, _, h => by
    cases h
    rfl

theorem sameNames_members : ∀ (fields : List (String × Json)) {rng : Rng} {frame : Option Fields}
    {members : Processed Members}, processMembers codec hasher rng frame fields = .ok members →
    (disclosableMembers frame fields).map claimNameAt = members.drawn.disclosures.map claimName
  | [], rng, frame, members, h => by
    cases h
    rfl
  | (key, value) :: fields, rng, frame, members, h => by
    obtain ⟨sub, later, hsub, hcases⟩ := processMembers_cons h
    have hinside : SameNames (frame.bind (·.lookup key)) value sub.drawn :=
      processSub_cases (P := fun subFrame sub => SameNames subFrame value sub.drawn) hsub rfl
        fun _ hvalue => sameNames_value value hvalue
    rw [disclosableMembers_cons, map_append, map_append,
      map_claimNameAt_cons (fun path => disclosableSub_ne_nil) _, hinside]
    rcases hcases with ⟨hkey, d, rfl, hlater, rfl⟩ | ⟨hkey, hlater, rfl⟩
    · rw [if_pos hkey, sameNames_members fields hlater]
      simp only [append, push, map_append]
      rfl
    · rw [if_neg hkey, sameNames_members fields hlater]
      simp only [append, map_append, map_nil, append_nil]

theorem sameNames_elements : ∀ (items : List Json) {rng : Rng} {frame : Option Fields} {i : ℕ}
    {array : Processed (List Json)}, processElements codec hasher rng frame i items = .ok array →
    (disclosableElements frame i items).map claimNameAt = array.drawn.disclosures.map claimName
  | [], rng, frame, i, array, h => by
    cases h
    rfl
  | item :: items, rng, frame, i, array, h => by
    rw [disclosableElements_cons, map_append]
    rcases processElements_cons h with ⟨hindex, d, later, rfl, hlater, rfl⟩ | ⟨hindex, sub, later, hsub, hlater, rfl⟩
    · rw [if_pos hindex, sameNames_elements items hlater]
      simp only [append, push, map_append]
      rfl
    · have hinside : SameNames (frame.bind (·.lookup (toString i))) item sub.drawn :=
        processSub_cases (P := fun subFrame sub => SameNames subFrame item sub.drawn) hsub rfl
          fun _ hvalue => sameNames_value item hvalue
      rw [if_neg hindex, sameNames_elements items hlater, map_claimNameAt_cons (fun path => disclosableSub_ne_nil) _,
        hinside]
      simp only [append, map_append]

end

/-- The disclosures of a run, each with its path. -/
def ownersOf (subFrame : Option Json) (value : Json) (drawn : Drawn) : Owners :=
  (disclosableSub subFrame value).zip drawn.disclosures

def ownersOfMembers (frame : Option Fields) (fields : Fields) (drawn : Drawn) : Owners :=
  (disclosableMembers frame fields).zip drawn.disclosures

def ownersOfElements (frame : Option Fields) (i : ℕ) (items : List Json) (drawn : Drawn) : Owners :=
  (disclosableElements frame i items).zip drawn.disclosures

variable {drawn : Drawn}

theorem ownersOf_ne_nil : ∀ owner ∈ ownersOf subFrame value drawn, owner.1 ≠ [] := fun _ howner =>
  disclosableSub_ne_nil (of_mem_zip howner).1

theorem ownersOfMembers_ne {key : String} (h : key ∉ fields.keys) : ∀ owner ∈ ownersOfMembers frame fields drawn,
    ∀ path, owner.1 ≠ .key key :: path := by
  rintro owner howner path heq
  obtain ⟨name, hname, rest, hhead⟩ := head_members (of_mem_zip howner).1
  rw [hhead] at heq
  exact h (Step.key.inj (List.cons.inj heq).1 ▸ hname)

theorem ownersOfElements_ne :
    ∀ owner ∈ ownersOfElements frame (i + 1) items drawn, ∀ path, owner.1 ≠ .index i :: path := by
  rintro owner howner path heq
  obtain ⟨j, hj, rest, hhead⟩ := head_elements (of_mem_zip howner).1
  rw [hhead] at heq
  exact absurd (Step.index.inj (List.cons.inj heq).1) (by omega)

theorem ownersOfMembers_ne_nil : ∀ owner ∈ ownersOfMembers frame fields drawn, owner.1 ≠ [] := by
  intro owner howner
  obtain ⟨name, -, rest, hhead⟩ := head_members (of_mem_zip howner).1
  rw [hhead]
  exact cons_ne_nil _ _

theorem ownersOfElements_ne_nil : ∀ owner ∈ ownersOfElements frame i items drawn, owner.1 ≠ [] := by
  intro owner howner
  obtain ⟨j, -, rest, hhead⟩ := head_elements (of_mem_zip howner).1
  rw [hhead]
  exact cons_ne_nil _ _

end Paths

end AffinidiTdk.Credentials
