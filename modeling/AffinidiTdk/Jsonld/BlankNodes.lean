/-
What blank nodes `to_rdf` makes (`affinidi-rdf-encoding`, `jsonld/to_rdf.rs`). The conversion is written
once more with a record of the places that get one. Generated labels count up from `b0`, so no two are
alike; a label of the document is copied, and nothing keeps it from being one of the generated. A literal
has a tag only as a language string.
-/
import AffinidiTdk.Jsonld.ToRdf
import AffinidiTdk.Rdf.Labels

namespace AffinidiTdk.Jsonld

open Fallible List Option Object
open AffinidiTdk.Rdf

/-! ## The record -/

/-- A place of the document that gets a blank node: the label, and whether it was generated. -/
structure Site where
  generated : Bool
  label : Text
  deriving DecidableEq

/-- The conversion so far and the places it came to. -/
structure Recorded where
  progress : Progress
  sites : List Site

/-- The place of an object, where it is a blank node. -/
def siteOf (generated : Bool) : Object → List Site
  | .blank b => [⟨generated, b.id⟩]
  | .named _ | .literal _ => []

/-- `processNodeWith` with the place of the node. -/
def processNodeRecordedWith (node : Json.Fields) (graph : GraphLabel) (recorded : Recorded)
    (processProperties : Subject → Recorded → Except RdfError Recorded) : Except RdfError (Subject × Recorded) := do
  let (subject, progress) ← nodeSubject node recorded.progress
  let progress := (typeQuads subject graph node).foldl Progress.add progress
  let sites := recorded.sites ++ siteOf (node.lookup "@id").isNone (Object.ofSubject subject)
  let recorded ← processProperties subject ⟨progress, sites⟩
  pure (subject, recorded)

/-- `listNode` with the place of the list cell. -/
def listNodeRecorded (graph : GraphLabel) (item : Option Object) (rest : Object) (recorded : Recorded) :
    Except RdfError (Object × Recorded) := do
  let (node, progress) ← listNode graph item rest recorded.progress
  pure (node, ⟨progress, recorded.sites ++ siteOf true node⟩)

mutual

def valueToObjectRecorded (doubles : Doubles) (graph : GraphLabel) :
    Json → Recorded → Except RdfError (Option Object × Recorded)
  | .obj fields, recorded =>
    match valueShape fields with
    | .literal value => pure (some (.literal (valueObjectToLiteral doubles value fields)), recorded)
    | .list _ => do
      let (object, recorded) ← listMemberRecorded doubles graph fields recorded
      pure (some object, recorded)
    | .reference (.str id) =>
      let object := Object.ofSubject (subjectOf id)
      pure (some object, { recorded with sites := recorded.sites ++ siteOf false object })
    | .reference _ => throw (.toRdfError "@id must be a string")
    | .node => do
      let (subject, recorded) ← processNodeRecordedWith fields graph recorded fun subject =>
        processPropertiesRecorded doubles graph subject fields
      pure (some (Object.ofSubject subject), recorded)
  | _, recorded => pure (none, recorded)

def processPropertiesRecorded (doubles : Doubles) (graph : GraphLabel) (subject : Subject) :
    List (String × Json) → Recorded → Except RdfError Recorded
  | [], recorded => pure recorded
  | (key, .arr items) :: members, recorded =>
    if Text.startsWith "@" key then processPropertiesRecorded doubles graph subject members recorded
    else do
      let recorded ← processItemsRecorded doubles graph subject ⟨key.toList⟩ items recorded
      processPropertiesRecorded doubles graph subject members recorded
  | _ :: members, recorded => processPropertiesRecorded doubles graph subject members recorded

def processItemsRecorded (doubles : Doubles) (graph : GraphLabel) (subject : Subject) (predicate : NamedNode) :
    List Json → Recorded → Except RdfError Recorded
  | [], recorded => pure recorded
  | item :: items, recorded => do
    let (object, recorded) ← valueToObjectRecorded doubles graph item recorded
    let recorded := match object with
      | some object => { recorded with progress := recorded.progress.add ⟨subject, predicate, object, graph⟩ }
      | none => recorded
    processItemsRecorded doubles graph subject predicate items recorded

def listMemberRecorded (doubles : Doubles) (graph : GraphLabel) :
    List (String × Json) → Recorded → Except RdfError (Object × Recorded)
  | (key, .arr items) :: members, recorded =>
    if key = "@list" then listToRdfRecorded doubles graph items recorded
    else listMemberRecorded doubles graph members recorded
  | (key, _) :: members, recorded =>
    if key = "@list" then throw (.toRdfError "@list must be an array")
    else listMemberRecorded doubles graph members recorded
  | [], _ => throw (.toRdfError "@list must be an array")

def listToRdfRecorded (doubles : Doubles) (graph : GraphLabel) :
    List Json → Recorded → Except RdfError (Object × Recorded)
  | [], recorded => pure (.named ⟨rdf.nil⟩, recorded)
  | item :: items, recorded => do
    let (rest, recorded) ← listToRdfRecorded doubles graph items recorded
    let (object, recorded) ← valueToObjectRecorded doubles graph item recorded
    listNodeRecorded graph object rest recorded

end

def processNodesRecorded (doubles : Doubles) : List Json → Recorded → Except RdfError Recorded
  | [], recorded => pure recorded
  | .obj node :: nodes, recorded => do
    let (_, recorded) ← processNodeRecordedWith node .default recorded fun subject =>
      processPropertiesRecorded doubles .default subject node
    processNodesRecorded doubles nodes recorded
  | _ :: nodes, recorded => processNodesRecorded doubles nodes recorded

/-- `toRdf` with the places that got a blank node, in the order of the conversion. -/
def toRdfRecorded (doubles : Doubles) (expanded : Json) : Except RdfError (Dataset × List Site) :=
  match expanded with
  | .arr nodes => do
    let recorded ← processNodesRecorded doubles nodes ⟨⟨[], 0⟩, []⟩
    pure (⟨recorded.progress.quads⟩, recorded.sites)
  | _ => throw (.toRdfError "expanded JSON-LD must be an array")

/-- Two places, one of them generated, have different labels. -/
def KeptApart (sites : List Site) : Prop :=
  sites.Pairwise fun a b => a.generated = true ∨ b.generated = true → a.label ≠ b.label

instance : DecidablePred KeptApart := fun sites =>
  inferInstanceAs (Decidable (sites.Pairwise fun a b => a.generated = true ∨ b.generated = true → a.label ≠ b.label))

/-! ## The places of a document -/

/-- The label that an identifier of the document gives, where it is one of a blank node. -/
def labelOfId : Json → List (Option Text)
  | .str id =>
    match subjectOf id with
    | .blank b => [some b.id]
    | .named _ => []
  | _ => []

/-- The label of a node; none where it is to be generated. -/
def nodeNames (node : Json.Fields) : List (Option Text) :=
  match node.lookup "@id" with
  | some id => labelOfId id
  | none => [none]

mutual

/-- The blank nodes of a value in the order of the conversion, with the labels the document gives them. -/
def valueNames : Json → List (Option Text)
  | .obj fields =>
    match valueShape fields with
    | .literal _ => []
    | .list _ => listMemberNames fields
    | .reference id => labelOfId id
    | .node => nodeNames fields ++ propertyNames fields
  | _ => []

def propertyNames : List (String × Json) → List (Option Text)
  | [] => []
  | (key, .arr items) :: members =>
    if Text.startsWith "@" key then propertyNames members else itemNames items ++ propertyNames members
  | _ :: members => propertyNames members

def itemNames : List Json → List (Option Text)
  | [] => []
  | item :: items => valueNames item ++ itemNames items

def listMemberNames : List (String × Json) → List (Option Text)
  | (key, .arr items) :: members => if key = "@list" then listNames items else listMemberNames members
  | _ :: members => listMemberNames members
  | [] => []

/-- A list is converted from its end, every item before its cell. -/
def listNames : List Json → List (Option Text)
  | [] => []
  | item :: items => listNames items ++ (valueNames item ++ [none])

end

/-- The blank nodes of the nodes of a document. -/
def documentNames : List Json → List (Option Text)
  | [] => []
  | .obj node :: nodes => nodeNames node ++ propertyNames node ++ documentNames nodes
  | _ :: nodes => documentNames nodes

/-- The label that is generated for a number. -/
def generatedLabel (n : ℕ) : Text := 'b' :: Nat.toDigits 10 n

/-- No label of the document is one of those that are generated for its other blank nodes. -/
def LabelsFree (nodes : List Json) : Prop :=
  ∀ label, some label ∈ documentNames nodes → ∀ n < (documentNames nodes).count none, label ≠ generatedLabel n

/-! ## Labels in the order of the conversion -/

/-- The places with these names when the next number to generate is the given one. -/
def sitesFrom : ℕ → List (Option Text) → List Site
  | _, [] => []
  | n, none :: names => ⟨true, generatedLabel n⟩ :: sitesFrom (n + 1) names
  | n, some label :: names => ⟨false, label⟩ :: sitesFrom n names

def labelsFrom (n : ℕ) (names : List (Option Text)) : List Text := (sitesFrom n names).map Site.label

theorem count_none_cons_some (label : Text) (names : List (Option Text)) :
    (some label :: names).count none = names.count none :=
  count_cons_of_ne (some_ne_none label)

theorem sitesFrom_append (n : ℕ) (names others : List (Option Text)) :
    sitesFrom n (names ++ others) = sitesFrom n names ++ sitesFrom (n + names.count none) others := by
  induction names generalizing n with
  | nil => rfl
  | cons name names ih =>
    cases name with
    | none =>
      rw [cons_append, sitesFrom, sitesFrom, ih, count_cons_self, cons_append]
      congr 3
      omega
    | some label =>
      rw [cons_append, sitesFrom, sitesFrom, ih, count_none_cons_some, cons_append]

theorem labelsFrom_append (n : ℕ) (names others : List (Option Text)) :
    labelsFrom n (names ++ others) = labelsFrom n names ++ labelsFrom (n + names.count none) others := by
  rw [labelsFrom, sitesFrom_append, map_append]
  rfl

theorem generatedLabel_injective : Function.Injective generatedLabel := IdentifierIssuer.identifier_injective ['b']

theorem mem_sitesFrom {n : ℕ} {names : List (Option Text)} {site : Site} : site ∈ sitesFrom n names ↔
    (∃ k, n ≤ k ∧ k < n + names.count none ∧ site = ⟨true, generatedLabel k⟩) ∨
      ∃ label, some label ∈ names ∧ site = ⟨false, label⟩ := by
  induction names generalizing n with
  | nil =>
    refine ⟨fun hsite => absurd hsite not_mem_nil, ?_⟩
    rintro (⟨k, hn, hk, -⟩ | ⟨label, hlabel, -⟩)
    · exact absurd hk (Nat.not_lt.2 hn)
    · exact absurd hlabel not_mem_nil
  | cons name names ih =>
    cases name with
    | none =>
      rw [sitesFrom, mem_cons, ih, count_cons_self]
      constructor
      · rintro (rfl | ⟨k, hn, hk, rfl⟩ | ⟨label, hlabel, rfl⟩)
        · exact .inl ⟨n, le_rfl, by omega, rfl⟩
        · exact .inl ⟨k, by omega, by omega, rfl⟩
        · exact .inr ⟨label, mem_cons_of_mem _ hlabel, rfl⟩
      · rintro (⟨k, hn, hk, rfl⟩ | ⟨label, hlabel, rfl⟩)
        · by_cases heq : k = n
          · exact .inl (by rw [heq])
          · exact .inr (.inl ⟨k, by omega, by omega, rfl⟩)
        · exact .inr (.inr ⟨label, (mem_cons.1 hlabel).resolve_left nofun, rfl⟩)
    | some label =>
      rw [sitesFrom, mem_cons, ih, count_none_cons_some]
      constructor
      · rintro (rfl | hgenerated | ⟨other, hother, rfl⟩)
        · exact .inr ⟨label, mem_cons_self, rfl⟩
        · exact .inl hgenerated
        · exact .inr ⟨other, mem_cons_of_mem _ hother, rfl⟩
      · rintro (hgenerated | ⟨other, hother, rfl⟩)
        · exact .inr (.inl hgenerated)
        · rcases mem_cons.1 hother with heq | hother
          · exact .inl (by rw [some.inj heq])
          · exact .inr (.inr ⟨other, hother, rfl⟩)

/-- Generated labels differ from one another, so only a label of the document can be met again. -/
theorem keptApart_sitesFrom (n : ℕ) (names : List (Option Text)) :
    KeptApart (sitesFrom n names) ↔
      ∀ label, some label ∈ names → ∀ k, n ≤ k → k < n + names.count none → label ≠ generatedLabel k := by
  induction names generalizing n with
  | nil => simp [sitesFrom, KeptApart]
  | cons name names ih =>
    cases name with
    | none =>
      rw [sitesFrom, KeptApart, pairwise_cons, count_cons_self]
      constructor
      · rintro ⟨hhead, htail⟩ label hlabel k hn hk heq
        have hmem := (mem_cons.1 hlabel).resolve_left nofun
        by_cases hfirst : k = n
        · exact hhead ⟨false, label⟩ (mem_sitesFrom.2 (.inr ⟨label, hmem, rfl⟩)) (.inl rfl) (by rw [heq, hfirst])
        · exact (ih (n + 1)).1 htail label hmem k (by omega) (by omega) heq
      · intro hfree
        refine ⟨fun site hsite _ heq => ?_, (ih (n + 1)).2 fun label hlabel k hn hk =>
          hfree label (mem_cons_of_mem _ hlabel) k (by omega) (by omega)⟩
        rcases mem_sitesFrom.1 hsite with ⟨k, hn, -, rfl⟩ | ⟨label, hlabel, rfl⟩
        · obtain rfl := generatedLabel_injective heq
          omega
        · exact hfree label (mem_cons_of_mem _ hlabel) n le_rfl (by omega) heq.symm
    | some label =>
      rw [sitesFrom, KeptApart, pairwise_cons, count_none_cons_some]
      constructor
      · rintro ⟨hhead, htail⟩ other hother k hn hk heq
        rcases mem_cons.1 hother with hsame | hother
        · cases hsame
          exact hhead ⟨true, generatedLabel k⟩ (mem_sitesFrom.2 (.inl ⟨k, hn, hk, rfl⟩)) (.inr rfl) heq
        · exact (ih n).1 htail other hother k hn hk heq
      · intro hfree
        refine ⟨fun site hsite hgenerated heq => ?_, (ih n).2 fun other hother =>
          hfree other (mem_cons_of_mem _ hother)⟩
        rcases mem_sitesFrom.1 hsite with ⟨k, hn, hk, rfl⟩ | ⟨other, -, rfl⟩
        · exact hfree label mem_cons_self k hn hk heq
        · exact hgenerated.elim nofun nofun

/-! ## One conversion -/

def blankId : Object → List Text
  | .blank b => [b.id]
  | .named _ | .literal _ => []

/-- A tag means a language string. -/
def TaggedLiteral (lit : Literal) : Prop := ∀ lang ∈ lit.language, lit.datatype = ⟨rdf.langString⟩

/-- The object is no blank node but one of these, and no literal with a tag of another kind. -/
structure Known (labels : List Text) (object : Object) : Prop where
  labels : blankId object ⊆ labels
  tagged : ∀ lit, object = .literal lit → TaggedLiteral lit

/-- A quad with known labels, all of its tagged literals well formed. -/
structure KnownQuad (labels : List Text) (quad : Quad) : Prop where
  labels : ∀ id ∈ quadBlankNodeIds quad, id ∈ labels
  tagged : ∀ lit ∈ quadLiterals quad, TaggedLiteral lit

/-- What a conversion with these names does: it takes as many numbers as there are names to generate,
and its quads know no blank nodes but its own and those it was given. -/
structure Follows (known : List Text) (names : List (Option Text)) (progress progress' : Progress) : Prop where
  counter : progress'.blankCounter = progress.blankCounter + names.count none
  quads : ∀ quad ∈ progress'.quads, quad ∈ progress.quads ∨
    KnownQuad (known ++ labelsFrom progress.blankCounter names) quad

section
variable {doubles : Doubles} {subject : Subject} {predicate : NamedNode} {known more : List Text}
  {names others : List (Option Text)} {progress progress' final : Progress} {object : Option Object}
    {result rest : Object}

theorem Follows.refl (known : List Text) (progress : Progress) : Follows known [] progress progress :=
  ⟨rfl, fun _ hquad => .inl hquad⟩

section

variable (h : Follows known names progress progress')
include h

theorem Follows.mono (hsub : known ⊆ more) : Follows more names progress progress' := by
  refine ⟨h.counter, fun quad hquad => (h.quads quad hquad).imp_right fun hmade => ⟨fun id hid => ?_, hmade.tagged⟩⟩
  exact mem_append.2 ((mem_append.1 (hmade.labels id hid)).imp_left (@hsub id))

/-- Two parts of the conversion follow on from one another. -/
theorem Follows.trans (h' : Follows (known ++ labelsFrom progress.blankCounter names) others progress' final) :
    Follows known (names ++ others) progress final := by
  refine ⟨by rw [h'.counter, h.counter, count_append, Nat.add_assoc], fun quad hquad => ?_⟩
  rw [labelsFrom_append, ← h.counter, ← append_assoc]
  rcases h'.quads quad hquad with hold | hmade
  · exact (h.quads quad hold).imp_right fun hmade =>
      ⟨fun id hid => mem_append_left _ (hmade.labels id hid), hmade.tagged⟩
  · exact .inr hmade

theorem Follows.add (hsubject : blankId (ofSubject subject) ⊆ known ++ labelsFrom progress.blankCounter names)
    {item : Object} (hitem : Known (known ++ labelsFrom progress.blankCounter names) item) :
    Follows known names progress (progress'.add ⟨subject, predicate, item, .default⟩) := by
  refine ⟨h.counter, fun other hother => ?_⟩
  rcases mem_append.1 hother with hold | hnew
  · exact h.quads other hold
  · refine .inr (mem_singleton.1 hnew ▸ ⟨fun id hid => ?_, fun lit hlit => ?_⟩)
    · have hid : id ∈ blankId (ofSubject subject) ∨ id ∈ blankId item := by
        cases subject <;> cases item <;> simp_all [quadBlankNodeIds, blankId, ofSubject]
      exact hid.elim (@hsubject id) fun hin => hitem.labels hin
    · cases item with
      | literal other => exact mem_singleton.1 hlit ▸ hitem.tagged other rfl
      | named | blank => cases hlit

end

theorem Known.append {labels more : List Text} {item : Object} (h : Known labels item) : Known (labels ++ more) item :=
  ⟨subset_append_of_subset_left _ h.labels, h.tagged⟩

theorem Known.of_append {labels : List Text} {item : Object} (h : Known labels item) (more : List Text) :
    Known (more ++ labels) item :=
  ⟨subset_append_of_subset_right _ h.labels, h.tagged⟩

theorem known_ofSubject {labels : List Text} (h : blankId (ofSubject subject) ⊆ labels) :
    Known labels (ofSubject subject) :=
  ⟨h, by cases subject <;> nofun⟩

theorem follows_typeQuads (known : List Text) (subject : Subject) (node : Json.Fields) (progress : Progress)
    (hknown : blankId (ofSubject subject) ⊆ known) :
    Follows known [] progress ((typeQuads subject .default node).foldl Progress.add progress) := by
  unfold typeQuads
  generalize ((node.lookup "@type").bind Json.asArray).getD [] = types
  have hfold : ∀ before : Progress, Follows known [] progress before → Follows known [] progress
      ((types.filterMap fun typeVal => typeVal.asStr.map fun iri =>
        (⟨subject, ⟨rdf.type⟩, .named ⟨iri.toList⟩, .default⟩ : Quad)).foldl Progress.add before) := by
    induction types with
    | nil => exact fun before h => h
    | cons typeVal types ih =>
      intro before h
      cases htype : typeVal.asStr with
      | none =>
        simp only [filterMap_cons, htype, Option.map_none]
        exact ih before h
      | some iri =>
        simp only [filterMap_cons, htype, Option.map_some, foldl_cons]
        exact ih _ (h.add (subset_append_of_subset_left _ hknown) ⟨nil_subset _, nofun⟩)
  exact hfold progress (Follows.refl known progress)

theorem valueObjectToLiteral_tagged (doubles : Doubles) (value : Json) (fields : Json.Fields) :
    TaggedLiteral (valueObjectToLiteral doubles value fields) := by
  have hnumber (n : Json) : TaggedLiteral (numberToLiteral doubles n) := by
    unfold numberToLiteral
    split
    · nofun
    · split
      · nofun
      · nofun
    · nofun
  unfold valueObjectToLiteral
  dsimp only
  split_ifs
  · nofun
  split
  · exact fun _ _ => rfl
  split
  · nofun
  split
  · nofun
  · exact hnumber _
  · exact hnumber _
  · nofun

theorem siteOf_label (generated : Bool) (object : Object) :
    (siteOf generated object).map Site.label = blankId object := by
  cases object <;> rfl

theorem siteOf_subjectOf (n : ℕ) (id : String) :
    siteOf false (ofSubject (subjectOf id)) = sitesFrom n (labelOfId (.str id)) := by
  rw [labelOfId]
  cases subjectOf id <;> rfl

theorem count_labelOfId (id : Json) : (labelOfId id).count none = 0 := by
  unfold labelOfId
  split
  · split <;> rfl
  · rfl

theorem nodeSubject_recorded {node : Json.Fields} (h : nodeSubject node progress = .ok (subject, progress')) :
    Follows [] (nodeNames node) progress progress' ∧ siteOf (node.lookup "@id").isNone (ofSubject subject) =
    sitesFrom progress.blankCounter (nodeNames node) := by
  unfold nodeSubject at h
  unfold nodeNames
  split at h
  · next id hid =>
    cases h
    rw [hid]
    exact ⟨⟨by rw [count_labelOfId]; rfl, fun _ hquad => .inl hquad⟩, siteOf_subjectOf _ id⟩
  · cases h
  · next hid =>
    cases h
    rw [hid]
    exact ⟨⟨rfl, fun _ hquad => .inl hquad⟩, rfl⟩

theorem processNodeWith_recorded {node : Json.Fields} {properties : Subject → Progress → Except RdfError Progress}
    {propertiesRecorded : Subject → Recorded → Except RdfError Recorded}
    (hproperties : ∀ subject before after, properties subject before = .ok after →
    Follows (blankId (ofSubject subject)) names before after ∧ ∀ sites, propertiesRecorded subject
    ⟨before, sites⟩ = .ok ⟨after, sites ++ sitesFrom before.blankCounter names⟩)
    (h : processNodeWith node .default progress properties = .ok (subject, progress')) : Follows []
    (nodeNames node ++ names) progress progress' ∧ blankId (ofSubject subject) ⊆ labelsFrom
    progress.blankCounter (nodeNames node ++ names) ∧ ∀ sites, processNodeRecordedWith node .default
    ⟨progress, sites⟩ propertiesRecorded =
    .ok (subject, ⟨progress', sites ++ sitesFrom progress.blankCounter (nodeNames node ++ names)⟩) := by
  obtain ⟨⟨subject₁, progress₁⟩, hsubject, h⟩ := bind_eq_ok_iff.1 h
  obtain ⟨progress₂, hprocess, h⟩ := bind_eq_ok_iff.1 h
  obtain ⟨rfl, rfl⟩ := Prod.mk.inj (Except.ok.inj h)
  obtain ⟨hfollows, hsite⟩ := nodeSubject_recorded hsubject
  obtain ⟨hrest, hrecorded⟩ := hproperties _ _ _ hprocess
  have hown : blankId (ofSubject subject₁) = labelsFrom progress.blankCounter (nodeNames node) := by
    rw [← siteOf_label, hsite, labelsFrom]
  have htypes := follows_typeQuads (blankId (ofSubject subject₁)) subject₁ node progress₁ (List.Subset.refl _)
  have hcounter : ((typeQuads subject₁ .default node).foldl Progress.add progress₁).blankCounter =
      progress.blankCounter + (nodeNames node).count none := htypes.counter.trans hfollows.counter
  refine ⟨?_, ?_, fun sites => ?_⟩
  · rw [hown] at htypes hrest
    have hnode := hfollows.trans (htypes.mono (by simp))
    rw [append_nil] at hnode
    exact hnode.trans (hrest.mono (by simp))
  · rw [hown, labelsFrom_append]
    exact subset_append_left _ _
  · rw [processNodeRecordedWith]
    refine bind_eq_ok_iff.2 ⟨_, hsubject, bind_eq_ok_iff.2 ⟨_, hrecorded _, ?_⟩⟩
    rw [hsite, hcounter, append_assoc, ← sitesFrom_append]
    rfl

theorem listNode_recorded (h : listNode .default object rest progress = .ok (result, progress'))
    (hobject : ∀ item, object = some item → Known known item) (hrest : Known known rest) :
    Follows known [none] progress progress' ∧ Known (labelsFrom progress.blankCounter [none]) result ∧
      ∀ sites, listNodeRecorded .default object rest ⟨progress, sites⟩ =
        .ok (result, ⟨progress', sites ++ sitesFrom progress.blankCounter [none]⟩) := by
  cases object with
  | none => cases h
  | some item =>
    cases h
    have hfresh : Follows known [none] progress progress.fresh.1 := ⟨rfl, fun _ hquad => .inl hquad⟩
    refine ⟨(hfresh.add ?_ (hobject item rfl).append).add ?_ hrest.append, ⟨List.Subset.refl _, nofun⟩,
      fun sites => rfl⟩
    · exact subset_append_right _ _
    · exact subset_append_right _ _

mutual

theorem valueToObject_recorded : ∀ {value : Json} {progress progress' : Progress} {object : Option Object},
    valueToObject doubles .default value progress = .ok (object, progress') →
      Follows [] (valueNames value) progress progress' ∧
      (∀ item, object = some item → Known (labelsFrom progress.blankCounter (valueNames value)) item) ∧
      ∀ sites, valueToObjectRecorded doubles .default value ⟨progress, sites⟩ =
        .ok (object, ⟨progress', sites ++ sitesFrom progress.blankCounter (valueNames value)⟩)
  | .obj fields, progress, progress', object, h => by
    rw [valueToObject] at h
    rw [valueNames]
    cases hshape : valueShape fields with
    | literal value =>
      simp only [hshape] at h
      cases h
      refine ⟨Follows.refl _ _, fun item hitem => ?_, fun sites => ?_⟩
      · cases hitem
        exact ⟨nil_subset _, fun lit hlit => Object.literal.inj hlit ▸ valueObjectToLiteral_tagged doubles value fields⟩
      · rw [valueToObjectRecorded, hshape]
        simp [sitesFrom]
        rfl
    | list list =>
      simp only [hshape] at h
      obtain ⟨⟨list, progress₁⟩, hlist, h⟩ := bind_eq_ok_iff.1 h
      cases h
      obtain ⟨hfollows, hlabels, hrecorded⟩ := listMember_recorded hlist
      refine ⟨hfollows, fun item hitem => some.inj hitem ▸ hlabels, fun sites => ?_⟩
      rw [valueToObjectRecorded, hshape]
      exact bind_eq_ok_iff.2 ⟨_, hrecorded sites, rfl⟩
    | reference id =>
      simp only [hshape] at h
      cases id with
      | str id =>
        cases h
        refine ⟨⟨by rw [count_labelOfId]; rfl, fun _ hquad => .inl hquad⟩, fun item hitem => ?_, fun sites => ?_⟩
        · cases hitem
          refine known_ofSubject ?_
          rw [labelsFrom, ← siteOf_subjectOf, siteOf_label]
          exact List.Subset.refl _
        · rw [valueToObjectRecorded, hshape, ← siteOf_subjectOf]
          rfl
      | null | bool | int | float | arr | obj => cases h
    | node =>
      simp only [hshape] at h
      obtain ⟨⟨subject, progress₁⟩, hnode, h⟩ := bind_eq_ok_iff.1 h
      cases h
      obtain ⟨hfollows, hlabels, hrecorded⟩ := processNodeWith_recorded
        (fun subject before after hafter => processProperties_recorded hafter) hnode
      refine ⟨hfollows, fun item hitem => some.inj hitem ▸ known_ofSubject hlabels, fun sites => ?_⟩
      rw [valueToObjectRecorded, hshape]
      exact bind_eq_ok_iff.2 ⟨_, hrecorded sites, rfl⟩
  | .null, _, _, _, h | .bool _, _, _, _, h | .int _, _, _, _, h | .float _, _, _, _, h
  | .str _, _, _, _, h | .arr _, _, _, _, h => by
    cases h
    unfold valueNames valueToObjectRecorded
    exact ⟨Follows.refl _ _, nofun, fun sites => by rw [sitesFrom, append_nil]; rfl⟩

theorem processProperties_recorded : ∀ {members : List (String × Json)} {subject : Subject}
    {progress progress' : Progress},
    processProperties doubles .default subject members progress = .ok progress' →
      Follows (blankId (ofSubject subject)) (propertyNames members) progress progress' ∧
      ∀ sites, processPropertiesRecorded doubles .default subject members ⟨progress, sites⟩ =
        .ok ⟨progress', sites ++ sitesFrom progress.blankCounter (propertyNames members)⟩
  | [], _, _, _, h => by
    cases h
    exact ⟨Follows.refl _ _, fun sites => by rw [propertyNames, sitesFrom, append_nil]; rfl⟩
  | (key, .arr items) :: members, subject, _, _, h => by
    rw [processProperties] at h
    rw [propertyNames]
    by_cases hat : Text.startsWith "@" key = true
    · rw [if_pos hat] at h ⊢
      obtain ⟨hfollows, hrecorded⟩ := processProperties_recorded h
      exact ⟨hfollows, fun sites => by rw [processPropertiesRecorded, if_pos hat, hrecorded]⟩
    · rw [if_neg hat] at h ⊢
      obtain ⟨progress₁, hitems, h⟩ := bind_eq_ok_iff.1 h
      obtain ⟨hfollows, hrecorded⟩ := processItems_recorded hitems
      obtain ⟨hrest, hrestRecorded⟩ := processProperties_recorded h
      refine ⟨hfollows.trans (hrest.mono (subset_append_left _ _)), fun sites => ?_⟩
      rw [processPropertiesRecorded, if_neg hat, sitesFrom_append, ← hfollows.counter, ← append_assoc]
      exact bind_eq_ok_iff.2 ⟨_, hrecorded sites, hrestRecorded _⟩
  | (_, .null) :: members, _, _, _, h | (_, .bool _) :: members, _, _, _, h
  | (_, .int _) :: members, _, _, _, h | (_, .float _) :: members, _, _, _, h
  | (_, .str _) :: members, _, _, _, h | (_, .obj _) :: members, _, _, _, h => by
    unfold processProperties at h
    unfold propertyNames processPropertiesRecorded
    exact processProperties_recorded h

theorem processItems_recorded : ∀ {items : List Json} {subject : Subject} {predicate : NamedNode}
    {progress progress' : Progress},
    processItems doubles .default subject predicate items progress = .ok progress' →
      Follows (blankId (ofSubject subject)) (itemNames items) progress progress' ∧
      ∀ sites, processItemsRecorded doubles .default subject predicate items ⟨progress, sites⟩ =
        .ok ⟨progress', sites ++ sitesFrom progress.blankCounter (itemNames items)⟩
  | [], _, _, _, _, h => by
    cases h
    exact ⟨Follows.refl _ _, fun sites => by rw [itemNames, sitesFrom, append_nil]; rfl⟩
  | item :: items, subject, predicate, progress, _, h => by
    rw [processItems] at h
    obtain ⟨⟨object, progress₁⟩, hobject, h⟩ := bind_eq_ok_iff.1 h
    obtain ⟨hfollows, hlabels, hrecorded⟩ := valueToObject_recorded hobject
    rw [itemNames]
    have hown := hfollows.mono (nil_subset (blankId (ofSubject subject)))
    cases object with
    | none =>
      obtain ⟨hrest, hrestRecorded⟩ := processItems_recorded h
      refine ⟨hown.trans (hrest.mono (subset_append_left _ _)), fun sites => ?_⟩
      rw [processItemsRecorded, sitesFrom_append, ← hfollows.counter, ← append_assoc]
      exact bind_eq_ok_iff.2 ⟨_, hrecorded sites, hrestRecorded _⟩
    | some object =>
      obtain ⟨hrest, hrestRecorded⟩ := processItems_recorded h
      have hadd : Follows (blankId (ofSubject subject)) (valueNames item) progress
          (progress₁.add ⟨subject, predicate, object, .default⟩) :=
        hown.add (subset_append_left _ _) ((hlabels object rfl).of_append _)
      refine ⟨hadd.trans (hrest.mono (subset_append_left _ _)), fun sites => ?_⟩
      rw [processItemsRecorded, sitesFrom_append, ← hfollows.counter, ← append_assoc]
      exact bind_eq_ok_iff.2 ⟨_, hrecorded sites, hrestRecorded _⟩

theorem listMember_recorded : ∀ {members : List (String × Json)} {progress progress' : Progress} {result : Object},
    listMember doubles .default members progress = .ok (result, progress') →
      Follows [] (listMemberNames members) progress progress' ∧
      Known (labelsFrom progress.blankCounter (listMemberNames members)) result ∧
      ∀ sites, listMemberRecorded doubles .default members ⟨progress, sites⟩ =
        .ok (result, ⟨progress', sites ++ sitesFrom progress.blankCounter (listMemberNames members)⟩)
  | [], _, _, _, h => by cases h
  | (key, .arr items) :: members, _, _, _, h => by
    rw [listMember] at h
    rw [listMemberNames]
    by_cases hlist : key = "@list"
    · rw [if_pos hlist] at h ⊢
      obtain ⟨hfollows, hlabels, hrecorded⟩ := listToRdf_recorded h
      exact ⟨hfollows, hlabels, fun sites => by rw [listMemberRecorded, if_pos hlist, hrecorded]⟩
    · rw [if_neg hlist] at h ⊢
      obtain ⟨hfollows, hlabels, hrecorded⟩ := listMember_recorded h
      exact ⟨hfollows, hlabels, fun sites => by rw [listMemberRecorded, if_neg hlist, hrecorded]⟩
  | (key, .null) :: members, _, _, _, h | (key, .bool _) :: members, _, _, _, h
  | (key, .int _) :: members, _, _, _, h | (key, .float _) :: members, _, _, _, h
  | (key, .str _) :: members, _, _, _, h | (key, .obj _) :: members, _, _, _, h => by
    unfold listMember at h
    unfold listMemberNames listMemberRecorded
    by_cases hlist : key = "@list"
    · rw [if_pos hlist] at h
      cases h
    · rw [if_neg hlist] at h
      obtain ⟨hfollows, hlabels, hrecorded⟩ := listMember_recorded h
      exact ⟨hfollows, hlabels, fun sites => by rw [if_neg hlist, hrecorded]⟩

theorem listToRdf_recorded : ∀ {items : List Json} {progress progress' : Progress} {result : Object},
    listToRdf doubles .default items progress = .ok (result, progress') →
      Follows [] (listNames items) progress progress' ∧
      Known (labelsFrom progress.blankCounter (listNames items)) result ∧
      ∀ sites, listToRdfRecorded doubles .default items ⟨progress, sites⟩ =
        .ok (result, ⟨progress', sites ++ sitesFrom progress.blankCounter (listNames items)⟩)
  | [], _, _, _, h => by
    cases h
    exact ⟨Follows.refl _ _, ⟨nil_subset _, nofun⟩, fun sites => by rw [listNames, sitesFrom, append_nil]; rfl⟩
  | item :: items, progress, _, _, h => by
    rw [listToRdf] at h
    obtain ⟨⟨rest, progress₁⟩, hrest, h⟩ := bind_eq_ok_iff.1 h
    obtain ⟨⟨object, progress₂⟩, hobject, h⟩ := bind_eq_ok_iff.1 h
    obtain ⟨hfollows, hlabels, hrecorded⟩ := listToRdf_recorded hrest
    obtain ⟨hitem, hitemLabels, hitemRecorded⟩ := valueToObject_recorded hobject
    -- the cell knows the cell after it and its item
    obtain ⟨hcell, hcellLabels, hcellRecorded⟩ := listNode_recorded h
      (fun other hother => (hitemLabels other hother).of_append (labelsFrom progress.blankCounter (listNames items)))
      hlabels.append
    have hboth := (hitem.mono (nil_subset (labelsFrom progress.blankCounter (listNames items)))).trans hcell
    rw [listNames]
    refine ⟨hfollows.trans hboth, ?_, fun sites => ?_⟩
    · rw [labelsFrom_append, labelsFrom_append, ← hfollows.counter, ← hitem.counter]
      exact (hcellLabels.of_append _).of_append _
    · rw [listToRdfRecorded, sitesFrom_append, sitesFrom_append, ← hfollows.counter, ← hitem.counter,
        ← append_assoc, ← append_assoc]
      exact bind_eq_ok_iff.2
        ⟨_, hrecorded sites, bind_eq_ok_iff.2 ⟨_, hitemRecorded _, hcellRecorded _⟩⟩

end

theorem processNodes_recorded {nodes : List Json} (h : processNodes doubles nodes progress = .ok progress') :
    Follows [] (documentNames nodes) progress progress' ∧ ∀ sites, processNodesRecorded doubles nodes
    ⟨progress, sites⟩ = .ok ⟨progress', sites ++ sitesFrom progress.blankCounter (documentNames nodes)⟩ := by
  induction nodes generalizing progress with
  | nil =>
    cases h
    exact ⟨Follows.refl _ _, fun sites => by rw [documentNames, sitesFrom, append_nil]; rfl⟩
  | cons node nodes ih =>
    cases node with
    | obj node =>
      rw [processNodes] at h
      obtain ⟨⟨subject, progress₁⟩, hnode, h⟩ := bind_eq_ok_iff.1 h
      obtain ⟨hfollows, -, hrecorded⟩ := processNodeWith_recorded
        (fun subject before after hafter => processProperties_recorded hafter) hnode
      obtain ⟨hrest, hrestRecorded⟩ := ih h
      rw [documentNames]
      refine ⟨hfollows.trans (hrest.mono (nil_subset _)), fun sites => ?_⟩
      rw [processNodesRecorded, sitesFrom_append, ← hfollows.counter, ← append_assoc]
      exact bind_eq_ok_iff.2 ⟨_, hrecorded sites, hrestRecorded _⟩
    | null | bool | int | float | str | arr =>
      unfold processNodes at h
      unfold documentNames processNodesRecorded
      exact ih h

end

/-! ## The blank nodes of a dataset -/

/-- **Blank nodes are kept apart exactly when** no label of the document is one of the labels that are
generated for it; every blank node of the dataset is at one of the places. -/
theorem toRdf_keptApart_iff {doubles : Doubles} {nodes : List Json} {dataset : Dataset}
    (h : toRdf doubles (.arr nodes) = .ok dataset) :
    ∃ sites, toRdfRecorded doubles (.arr nodes) = .ok (dataset, sites) ∧
      (∀ quad ∈ dataset.quads, ∀ id ∈ quadBlankNodeIds quad, ∃ site ∈ sites, site.label = id) ∧
      (KeptApart sites ↔ LabelsFree nodes) := by
  obtain ⟨progress, hprogress, h⟩ := bind_eq_ok_iff.1 h
  cases h
  obtain ⟨hfollows, hrecorded⟩ := processNodes_recorded hprogress
  refine ⟨sitesFrom 0 (documentNames nodes), ?_, fun quad hquad id hid => ?_, ?_⟩
  · exact bind_eq_ok_iff.2 ⟨_, hrecorded [], rfl⟩
  · exact mem_map.1 (((hfollows.quads quad hquad).resolve_left not_mem_nil).labels id hid)
  · rw [keptApart_sitesFrom]
    refine forall₂_congr fun label _ => ⟨fun hfree n hn => hfree n (Nat.zero_le n) (by omega),
      fun hfree n _ hn => ?_⟩
    exact hfree n (by omega)

/-- A node that the document calls `_:b0` and a node without an identifier. -/
def sharedLabel (label : String) : List Json :=
  [.obj [("@id", .str label), ("p", .arr [.obj [("@value", .str "x")]])],
    .obj [("p", .arr [.obj [("@value", .str "y")]])]]

def noDoubles : Doubles := ⟨fun _ => none, fun _ => []⟩

theorem toRdf_keptApart_otherLabel :
    ∃ sites, toRdfRecorded noDoubles (.arr (sharedLabel "_:c0")) =
        .ok (⟨[⟨.blank ⟨"c0".toList⟩, ⟨['p']⟩, .literal (.new ['x']), .default⟩,
          ⟨.blank ⟨"b0".toList⟩, ⟨['p']⟩, .literal (.new ['y']), .default⟩]⟩, sites) ∧ KeptApart sites := by
  have hfree : LabelsFree (sharedLabel "_:c0") := by
    intro label hlabel n hn
    have hnames : documentNames (sharedLabel "_:c0") = [some "c0".toList, none] := by decide +kernel
    rw [hnames] at hlabel
    obtain rfl : label = "c0".toList := by simpa using hlabel
    exact fun heq => absurd (List.cons.inj heq).1 (by decide)
  have hok : toRdf noDoubles (.arr (sharedLabel "_:c0")) =
      .ok ⟨[⟨.blank ⟨"c0".toList⟩, ⟨['p']⟩, .literal (.new ['x']), .default⟩,
        ⟨.blank ⟨"b0".toList⟩, ⟨['p']⟩, .literal (.new ['y']), .default⟩]⟩ := by decide +kernel
  obtain ⟨sites, hsites, -, hapart⟩ := toRdf_keptApart_iff hok
  exact ⟨sites, hsites, hapart.2 hfree⟩

/-- Both nodes become `_:b0`, and so their statements are about one. -/
theorem toRdf_merges_nodes :
    ∃ sites, toRdfRecorded noDoubles (.arr (sharedLabel "_:b0")) =
        .ok (⟨[⟨.blank ⟨"b0".toList⟩, ⟨['p']⟩, .literal (.new ['x']), .default⟩,
          ⟨.blank ⟨"b0".toList⟩, ⟨['p']⟩, .literal (.new ['y']), .default⟩]⟩, sites) ∧ ¬KeptApart sites :=
  ⟨[⟨false, "b0".toList⟩, ⟨true, "b0".toList⟩], by decide +kernel, by decide⟩

end AffinidiTdk.Jsonld
