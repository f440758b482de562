/-
Hashing by n degrees ends. A recursive call is made with an issuer that knows a blank node of the
dataset its caller's did not, so the nodes that are left bound the depth; the permutations of a group
bound the loop. What is returned keeps every identifier that was issued and has one for the node.
-/
import AffinidiTdk.Rdf.Labels
import AffinidiTdk.Rdf.Permutations

namespace AffinidiTdk.Rdf

open Fallible List
open IdentifierIssuer

/-! ## One activation -/

/-- One activation of `hash_ndegree_quads`, with what its recursive calls give. -/
def hashNdegreeStep (sha256 : Text → Text) (look : Lookup) (recurse : Recursion) : Recursion :=
  fun blankNodeId issuer => do
    let (dataToHash, chosenIssuer) ← groupLoop look.canonical recurse
      (hashToRelated sha256 look blankNodeId issuer) []
      issuer maxPermutations
    pure (sha256 dataToHash, (chosenIssuer.issue blankNodeId).1)

theorem hashNdegreeQuads_succ (sha256 : Text → Text) (look : Lookup) (fuel : ℕ) :
    hashNdegreeQuads sha256 look (fuel + 1) = hashNdegreeStep sha256 look (hashNdegreeQuads sha256 look fuel) := rfl

/-- The recursion that stops at a call whose issuer has not issued more of the blank nodes than the caller's. -/
def onlyGrowing (ids : List Text) (caller : IdentifierIssuer) (recurse : Recursion) : Recursion :=
  fun blankNodeId issuer =>
    if remaining ids issuer < remaining ids caller then recurse blankNodeId issuer else throw .deep

/-! ## The calls that are made -/

section
variable {fuel : ℕ} {recurse other : Recursion} {issuer : IdentifierIssuer}

variable {sha256 : Text → Text}

theorem hashNdegreeStep_congr {look : Lookup}
    (hagree : Agree (blankNodes look.quads) (remaining (blankNodes look.quads) issuer) recurse other)
    (hrecurse : recurse.Sound (blankNodes look.quads) (remaining (blankNodes look.quads) issuer))
    (hvalid : issuer.Valid) (id : Text) : hashNdegreeStep sha256 look recurse id issuer = hashNdegreeStep sha256
    look other id issuer := by
  rw [hashNdegreeStep, hashNdegreeStep]
  rw [(groupLoop_agree hagree hrecurse _ (fun group hgroup id hid => mem_hashToRelated hgroup hid)
    [] issuer _ hvalid (Nat.lt_succ_self _)).1]

theorem hashNdegreeStep_meets {look : Lookup} (hrecurse : recurse.Sound (blankNodes look.quads) fuel)
    (hvalid : issuer.Valid) (hfuel : remaining (blankNodes look.quads) issuer ≤ fuel) (id : Text) :
    Meets (hashNdegreeStep sha256 look recurse id issuer) fun result => result.2.Valid := by
  refine (groupLoop_agree (fun _ _ _ _ _ => rfl) hrecurse _ (fun group hgroup id hid => mem_hashToRelated hgroup hid)
    [] issuer _ hvalid (Nat.lt_succ_of_le hfuel)).2.bind fun result hresult => meets_pure ?_
  exact hresult.valid.issue id

end

/-! ## The depth of the recursion -/

section
variable (sha256 : Text → Text) (look : Lookup)

/-- `hash_ndegree_quads` where every recursive call is checked to know more of the blank nodes. -/
def hashNdegreeChecked : ℕ → Recursion
  | 0, _, _ => throw .deep
  | fuel + 1, blankNodeId, issuer =>
    hashNdegreeStep sha256 look
      (onlyGrowing (blankNodes look.quads) issuer (hashNdegreeChecked fuel)) blankNodeId issuer

variable {sha256 look} {issuer : IdentifierIssuer}

variable {fuel : ℕ}

theorem Recursion.Sound.mono {recurse : Recursion} {ids : List Text} {less : ℕ} (h : recurse.Sound ids fuel)
    (hle : less ≤ fuel) : recurse.Sound ids less :=
  fun id hid issuer hvalid hless => h id hid issuer hvalid (Nat.lt_of_lt_of_le hless hle)

theorem hashNdegreeQuads_fuel {more : ℕ} (hle : fuel ≤ more) (id : Text) (issuer : IdentifierIssuer)
    (hvalid : issuer.Valid) (hfuel : remaining (blankNodes look.quads) issuer < fuel) :
    hashNdegreeQuads sha256 look fuel id issuer = hashNdegreeQuads sha256 look more id issuer := by
  induction fuel generalizing more id issuer with
  | zero => exact absurd hfuel (Nat.not_lt_zero _)
  | succ fuel ih =>
    obtain ⟨more, rfl⟩ : ∃ less, more = less + 1 := ⟨more - 1, by omega⟩
    rw [hashNdegreeQuads_succ, hashNdegreeQuads_succ]
    have hremaining := Nat.le_of_lt_succ hfuel
    refine hashNdegreeStep_congr ?_ ((hashNdegreeQuads_sound sha256 look fuel).mono hremaining) hvalid id
    exact fun id _ issuer hvalid hless => ih (Nat.le_of_succ_le_succ hle) id issuer hvalid (by omega)

theorem hashNdegreeQuads_eq_checked (fuel : ℕ) (id : Text) (issuer : IdentifierIssuer) (hvalid : issuer.Valid)
    (hfuel : remaining (blankNodes look.quads) issuer < fuel) :
    hashNdegreeQuads sha256 look fuel id issuer = hashNdegreeChecked sha256 look fuel id issuer := by
  induction fuel generalizing id issuer with
  | zero => exact absurd hfuel (Nat.not_lt_zero _)
  | succ fuel ih =>
    rw [hashNdegreeQuads_succ, hashNdegreeChecked]
    have hremaining := Nat.le_of_lt_succ hfuel
    refine hashNdegreeStep_congr ?_ ((hashNdegreeQuads_sound sha256 look fuel).mono hremaining) hvalid id
    intro id _ grown hgrown hless
    rw [onlyGrowing, if_pos hless]
    exact ih id grown hgrown (by omega)

theorem hashNdegreeQuads_ne_deep (id : Text) (hvalid : issuer.Valid)
    (hfuel : remaining (blankNodes look.quads) issuer < fuel) :
    hashNdegreeQuads sha256 look fuel id issuer ≠ .error .deep := by
  obtain ⟨fuel, rfl⟩ : ∃ less, fuel = less + 1 := ⟨fuel - 1, by omega⟩
  rw [hashNdegreeQuads_succ]
  exact (hashNdegreeStep_meets (hashNdegreeQuads_sound sha256 look fuel) hvalid (Nat.le_of_lt_succ hfuel) id).1

end

/-! ## What is issued stays -/

/-- Every identifier of an issuer is the other's too. -/
def Keeps (issuer grown : IdentifierIssuer) : Prop :=
  ∀ id label, issuer.get id = some label → grown.get id = some label

section
variable {issuer grown final canonical : IdentifierIssuer} {recurse : Recursion} {choice : Choice}

theorem Keeps.refl (issuer : IdentifierIssuer) : Keeps issuer issuer := fun _ _ h => h

theorem Keeps.trans (h : Keeps issuer grown) (h' : Keeps grown final) : Keeps issuer final :=
  fun id label hget => h' id label (h id label hget)

theorem lookup_append_of_eq_some {entries : List (Text × Text)} {id label : Text}
    (h : entries.lookup id = some label)
    (more : List (Text × Text)) : (entries ++ more).lookup id = some label := by
  rw [lookup_append, h]
  rfl

theorem keeps_issue (issuer : IdentifierIssuer) (id : Text) : Keeps issuer (issuer.issue id).1 := by
  intro other label hget
  rw [issue]
  split
  · exact hget
  · exact lookup_append_of_eq_some hget _

theorem isIssued_issue (issuer : IdentifierIssuer) (id : Text) : (issuer.issue id).1.isIssued id = true := by
  rw [issue]
  split
  · next canonical hget =>
    rw [isIssued, hget]
    rfl
  · next hget =>
    have hnone : issuer.issued.lookup id = none := hget
    show ((issuer.issued ++ [(id, _)]).lookup id).isSome = true
    rw [lookup_append, hnone, lookup_cons_self]
    rfl

/-- Whatever the recursion gives keeps what was issued. -/
def Recursion.Keeping (recurse : Recursion) : Prop :=
  ∀ id issuer result, recurse id issuer = .ok result → Keeps issuer result.2

variable {related pending : List Text}

theorem pathOf_keeps {path path' : Text} {pending' : List Text}
    (h : pathOf canonical choice related issuer path pending = some (grown, path', pending')) :
    Keeps issuer grown := by
  induction related generalizing issuer path pending with
  | nil =>
    obtain ⟨rfl, -, -⟩ : issuer = grown ∧ path = path' ∧ pending = pending' := by simpa [pathOf] using h
    exact Keeps.refl issuer
  | cons id related ih =>
    rw [pathOf] at h
    split at h
    · dsimp only at h
      split_ifs at h
      exact ih h
    · dsimp only at h
      split_ifs at h <;> exact (keeps_issue issuer id).trans (ih h)

theorem deepen_keeps (hrecurse : recurse.Keeping) {path path' : Text}
    (h : deepen recurse choice pending issuer path = .ok (some (grown, path'))) : Keeps issuer grown := by
  induction pending generalizing issuer path with
  | nil =>
    obtain ⟨rfl, -⟩ := Prod.mk.inj (Option.some.inj (Except.ok.inj h))
    exact Keeps.refl issuer
  | cons id pending ih =>
    rw [deepen] at h
    obtain ⟨result, hresult, hrest⟩ := bind_eq_ok_iff.1 h
    dsimp only at hrest
    split_ifs at hrest
    · cases hrest
    · exact (hrecurse id issuer result hresult).trans (ih hrest)

/-- The issuer of a choice, where there is one, keeps what another had issued. -/
def Choice.Keeping (choice : Choice) (issuer : IdentifierIssuer) : Prop :=
  ∀ chosen, choice.issuer = some chosen → Keeps issuer chosen

theorem tryPermutation_keeps (hrecurse : recurse.Keeping) (hchoice : choice.Keeping issuer) {next : Choice}
    (h : tryPermutation canonical recurse issuer related choice = .ok next) : next.Keeping issuer := by
  rw [tryPermutation] at h
  split at h
  · exact Except.ok.inj h ▸ hchoice
  · next issuerCopy path pending hpath =>
    obtain ⟨result, hresult, hrest⟩ := bind_eq_ok_iff.1 h
    split at hrest
    · exact Except.ok.inj hrest ▸ hchoice
    · split_ifs at hrest
      · cases hrest
        rintro chosen hchosen
        cases hchosen
        exact (pathOf_keeps hpath).trans (deepen_keeps hrecurse hresult)
      · exact Except.ok.inj hrest ▸ hchoice

theorem permutationLoop_keeps (hrecurse : recurse.Keeping) {group : List Text} {left : ℕ} {permIndices : List ℕ}
    (hchoice : choice.Keeping issuer) {result : Choice × ℕ}
    (h : permutationLoop canonical recurse issuer group left permIndices choice = .ok result) :
    result.1.Keeping issuer := by
  induction left generalizing permIndices choice with
  | zero => exact absurd h nofun
  | succ left ih =>
    rw [permutationLoop] at h
    obtain ⟨next, hnext, hrest⟩ := bind_eq_ok_iff.1 h
    have hkeeping := tryPermutation_keeps hrecurse hchoice hnext
    split at hrest
    · cases hrest
      exact hkeeping
    · exact ih hkeeping hrest

variable {result : Text × IdentifierIssuer}

theorem groupLoop_keeps (hrecurse : recurse.Keeping) {groups : Groups} {data : Text} {left : ℕ}
    (h : groupLoop canonical recurse groups data issuer left = .ok result) : Keeps issuer result.2 := by
  induction groups generalizing data issuer left with
  | nil =>
    cases h
    exact Keeps.refl issuer
  | cons group groups ih =>
    rw [groupLoop] at h
    obtain ⟨found, hfound, hrest⟩ := bind_eq_ok_iff.1 h
    have hkeeping := permutationLoop_keeps hrecurse (fun _ hnone => absurd hnone (by simp)) hfound
    have hchosen : Keeps issuer (found.1.issuer.getD issuer) := by
      cases hissuer : found.1.issuer with
      | none => exact Keeps.refl issuer
      | some chosen => exact hkeeping chosen hissuer
    exact hchosen.trans (ih hrest)

theorem hashNdegreeQuads_keeping (sha256 : Text → Text) (look : Lookup) (fuel : ℕ) :
    (hashNdegreeQuads sha256 look fuel).Keeping := by
  induction fuel with
  | zero => exact fun id issuer result h => absurd h nofun
  | succ fuel ih =>
    intro id issuer result h
    obtain ⟨found, hfound, hrest⟩ := bind_eq_ok_iff.1 h
    cases hrest
    exact (groupLoop_keeps ih hfound).trans (keeps_issue found.2 id)

theorem hashNdegreeQuads_issues {sha256 : Text → Text} {look : Lookup} {fuel : ℕ} {id : Text}
    (h : hashNdegreeQuads sha256 look fuel id issuer = .ok result) : result.2.isIssued id = true := by
  cases fuel with
  | zero => exact absurd h nofun
  | succ fuel =>
    obtain ⟨found, -, hrest⟩ := bind_eq_ok_iff.1 h
    cases hrest
    exact isIssued_issue found.2 id

end

/-! ## Termination -/

/-- **Termination**: on every dataset the recursion gives a result, which no amount of fuel past the
nodes that are left changes; every recursive call knows a blank node its caller did not; a group of n
nodes is tried in at most n! orders and in no more than the limit; and the issuer that is returned
keeps what was issued and has an identifier for the node. -/
theorem hashNdegreeQuads_terminates (sha256 : Text → Text) (look : Lookup) (id : Text) (issuer : IdentifierIssuer)
    (hvalid : issuer.Valid) :
    (∃ result, result ≠ .error .deep ∧ ∀ fuel, remaining (blankNodes look.quads) issuer < fuel →
      hashNdegreeQuads sha256 look fuel id issuer = result ∧
      hashNdegreeChecked sha256 look fuel id issuer = result) ∧
    (∀ recurse chosenIssuer group left choice, left ≤ maxPermutations → ∃ perms : List (List ℕ),
      perms.length ≤ min group.length.factorial maxPermutations ∧
      permutationLoop look.canonical recurse chosenIssuer group left (List.range group.length) choice =
        (perms.foldlM (fun choice perm => tryPermutation look.canonical recurse chosenIssuer
            (perm.filterMap fun idx => group[idx]?) choice) choice >>= afterPermutations left perms)) ∧
    ∀ fuel hash grown, hashNdegreeQuads sha256 look fuel id issuer = .ok (hash, grown) →
      Keeps issuer grown ∧ grown.isIssued id = true := by
  refine ⟨⟨hashNdegreeQuads sha256 look (remaining (blankNodes look.quads) issuer + 1) id issuer, ?_, ?_⟩, ?_, ?_⟩
  · exact hashNdegreeQuads_ne_deep id hvalid (Nat.lt_succ_self _)
  · intro fuel hfuel
    have hsame : hashNdegreeQuads sha256 look fuel id issuer =
        hashNdegreeQuads sha256 look (remaining (blankNodes look.quads) issuer + 1) id issuer :=
      (hashNdegreeQuads_fuel hfuel id issuer hvalid (Nat.lt_succ_self _)).symm
    exact ⟨hsame, (hashNdegreeQuads_eq_checked fuel id issuer hvalid hfuel).symm.trans hsame⟩
  · intro recurse chosenIssuer group left choice hleft
    refine ⟨permutationsFrom left (List.range group.length), Nat.le_min.2 ⟨?_, ?_⟩, permutationLoop_eq ..⟩
    · exact length_permutationsFrom_le_factorial left group.length
    · exact Nat.le_trans (length_permutationsFrom_le left _) hleft
  · intro fuel hash grown h
    exact ⟨hashNdegreeQuads_keeping sha256 look fuel id issuer _ h, hashNdegreeQuads_issues h⟩

/-- A circle of two blank nodes, where every node is related to the other. -/
theorem hashNdegreeQuads_terminates_circle :
    ∃ result, result ≠ .error .deep ∧ ∀ fuel, 1 < fuel →
      hashNdegreeQuads (fun text => text) ⟨[⟨.blank ⟨['x']⟩, ⟨['p']⟩, .blank ⟨['y']⟩, .default⟩,
          ⟨.blank ⟨['y']⟩, ⟨['p']⟩, .blank ⟨['x']⟩, .default⟩], [], .new "c14n".toList⟩ fuel ['x']
        ((IdentifierIssuer.new ['b']).issue ['x']).1 = result :=
  have hissuer : ((IdentifierIssuer.new ['b']).issue ['x']).1.Valid := (valid_new ['b']).issue ['x']
  have hterminates := (hashNdegreeQuads_terminates (fun text => text)
    ⟨[⟨.blank ⟨['x']⟩, ⟨['p']⟩, .blank ⟨['y']⟩, .default⟩,
      ⟨.blank ⟨['y']⟩, ⟨['p']⟩, .blank ⟨['x']⟩, .default⟩], [], .new "c14n".toList⟩ ['x'] _ hissuer).1
  hterminates.imp fun _ h => ⟨h.1, fun fuel hfuel => (h.2 fuel hfuel).1⟩

end AffinidiTdk.Rdf
