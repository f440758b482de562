/-
One canonical text, one dataset: where no name holds what ends it on a line, a line is read in one way
only, so datasets with the same canonical text are the same up to their blank nodes.
-/
import AffinidiTdk.Rdf.Labels
import AffinidiTdk.Rdf.RoundTrip

namespace AffinidiTdk.Rdf

open List
open NQuads

/-! ## Lines are read in one way -/

/-- The bracket that closes the IRI is the first one with a blank after it. -/
def Enclosed (iri : Text) : Prop := ¬['>', ' '] <:+: iri

/-- No name of the quad holds what ends it, and only language strings have a tag. -/
structure Delimited (quad : Quad) : Prop where
  iris : ∀ iri ∈ quadIris quad, Enclosed iri
  labels : ∀ id ∈ quadBlankNodeIds quad, ' ' ∉ id
  tags : ∀ lit ∈ quadLiterals quad, ∀ lang ∈ lit.language, ' ' ∉ lang ∧ lit.datatype = ⟨rdf.langString⟩

variable {r s : Text}

variable {a b : Text}

theorem append_stop_inj {stop : Char} (ha : stop ∉ a) (hb : stop ∉ b) (h : a ++ stop :: r = b ++ stop :: s) :
    a = b ∧ r = s := by
  induction a generalizing b with
  | nil =>
    cases b with
    | nil => exact ⟨rfl, (cons.inj h).2⟩
    | cons c b => exact absurd ((cons.inj h).1 ▸ mem_cons_self) hb
  | cons c a ih =>
    cases b with
    | nil => exact absurd ((cons.inj h).1 ▸ mem_cons_self) ha
    | cons d b =>
      obtain ⟨rfl, htail⟩ := cons.inj h
      obtain ⟨rfl, hrs⟩ := ih (fun hmem => ha (mem_cons_of_mem c hmem))
        (fun hmem => hb (mem_cons_of_mem c hmem))
        htail
      exact ⟨rfl, hrs⟩

theorem Enclosed.tail {c : Char} (h : Enclosed (c :: a)) : Enclosed a :=
  fun hin => h (hin.trans (suffix_cons c a).isInfix)

theorem enclosed_append_inj (ha : Enclosed a) (hb : Enclosed b) (h : a ++ '>' :: ' ' :: r = b ++ '>' :: ' ' :: s) :
    a = b ∧ r = s := by
  -- a bracket with a blank after it cannot stand inside the longer of the two
  have hfirst {b t : Text} (hb : Enclosed b) (h : '>' :: ' ' :: t = b ++ '>' :: ' ' :: s) : b = [] ∧ t = s := by
    rcases b with - | ⟨c, - | ⟨d, b⟩⟩
    · simpa using h
    · simp at h
    · simp only [cons_append, cons.injEq] at h
      obtain ⟨rfl, rfl, -⟩ := h
      exact absurd (prefix_append ['>', ' '] b).isInfix hb
  induction a generalizing b with
  | nil =>
    obtain ⟨rfl, hrs⟩ := hfirst hb h
    exact ⟨rfl, hrs⟩
  | cons c a ih =>
    cases b with
    | nil =>
      rcases a with - | ⟨d, a⟩
      · simp at h
      · simp only [cons_append, nil_append, cons.injEq] at h
        obtain ⟨rfl, rfl, -⟩ := h
        exact absurd (prefix_append ['>', ' '] a).isInfix ha
    | cons d b =>
      obtain ⟨rfl, htail⟩ := cons.inj h
      obtain ⟨rfl, hrs⟩ := ih ha.tail hb.tail htail
      exact ⟨rfl, hrs⟩

theorem writeIri_inj (ha : Enclosed a) (hb : Enclosed b) (h : writeIri a ++ ' ' :: r = writeIri b ++ ' ' :: s) :
    a = b ∧ r = s := by
  simp only [writeIri, cons_append, append_assoc, nil_append, cons.injEq, true_and] at h
  exact enclosed_append_inj ha hb h

theorem writeBlank_inj (ha : ' ' ∉ a) (hb : ' ' ∉ b) (h : writeBlank a ++ ' ' :: r = writeBlank b ++ ' ' :: s) :
    a = b ∧ r = s := by
  simp only [writeBlank, cons_append, cons.injEq, true_and] at h
  exact append_stop_inj ha hb h

theorem escapeNquads_inj (h : escapeNquads a ++ '"' :: r = escapeNquads b ++ '"' :: s) : a = b ∧ r = s := by
  have hscan : rawLoop 0 0 (escapeNquads a ++ '"' :: r) = .ok (escapeNquads a, r) := rawLoop_escapeNquads a r
  rw [h, rawLoop_escapeNquads, Except.ok.injEq, Prod.mk.injEq] at hscan
  obtain ⟨hraw, hrest⟩ := hscan
  have hvalue := unescapeNquads_escapeNquads a
  rw [← hraw, unescapeNquads_escapeNquads, Except.ok.injEq] at hvalue
  exact ⟨hvalue.symm, hrest.symm⟩

/-- What stands after the closing quote. -/
def literalEnd (lit : Literal) : Text :=
  match lit.language with
  | some lang => '@' :: lang
  | none => if lit.datatype.iri ≠ xsd.string then '^' :: '^' :: writeIri lit.datatype.iri else []

theorem writeLiteral_eq (lit : Literal) : writeLiteral lit =
    '"' :: escapeNquads lit.value ++ '"' :: literalEnd lit := rfl

/-- The literal may stand on a line. -/
structure Literal.Delimited (lit : Literal) : Prop where
  iri : Enclosed lit.datatype.iri
  tag : ∀ lang ∈ lit.language, ' ' ∉ lang ∧ lit.datatype = ⟨rdf.langString⟩

theorem literalEnd_inj {a b : Literal} (ha : a.Delimited) (hb : b.Delimited)
    (h : literalEnd a ++ ' ' :: r = literalEnd b ++ ' ' :: s) :
    a.datatype = b.datatype ∧ a.language = b.language ∧ r = s := by
  obtain ⟨value, ⟨iri⟩, language⟩ := a
  obtain ⟨value', ⟨iri'⟩, language'⟩ := b
  unfold literalEnd at h
  cases language with
  | some lang =>
    obtain ⟨hlang, hstring⟩ := ha.tag lang rfl
    cases language' with
    | some lang' =>
      obtain ⟨hlang', hstring'⟩ := hb.tag lang' rfl
      simp only [cons_append, cons.injEq, true_and] at h
      obtain ⟨rfl, hrs⟩ := append_stop_inj hlang hlang' h
      exact ⟨hstring.trans hstring'.symm, rfl, hrs⟩
    | none =>
      dsimp only at h
      split_ifs at h <;> simp at h
  | none =>
    cases language' with
    | some lang' =>
      dsimp only at h
      split_ifs at h <;> simp at h
    | none =>
      dsimp only at h
      split_ifs at h with hiri hiri' hiri'
      · simp only [cons_append, cons.injEq, true_and] at h
        obtain ⟨rfl, hrs⟩ := writeIri_inj ha.iri hb.iri h
        exact ⟨rfl, rfl, hrs⟩
      · simp at h
      · simp at h
      · simp only [ne_eq, not_not] at hiri hiri'
        subst hiri hiri'
        exact ⟨rfl, rfl, (cons.inj h).2⟩

theorem writeLiteral_inj {a b : Literal} (ha : a.Delimited) (hb : b.Delimited)
    (h : writeLiteral a ++ ' ' :: r = writeLiteral b ++ ' ' :: s) : a = b ∧ r = s := by
  simp only [writeLiteral_eq, cons_append, append_assoc, cons.injEq, true_and] at h
  obtain ⟨hvalue, hend⟩ := escapeNquads_inj h
  obtain ⟨hdatatype, hlanguage, hrs⟩ := literalEnd_inj ha hb hend
  obtain ⟨value, datatype, language⟩ := a
  obtain ⟨value', datatype', language'⟩ := b
  exact ⟨by simp_all, hrs⟩

def Subject.toObject : Subject → Object
  | .named n => .named n
  | .blank b => .blank b

def GraphLabel.toObject? : GraphLabel → Option Object
  | .named n => some (.named n)
  | .blank b => some (.blank b)
  | .default => none

/-- The term may stand on a line. -/
def Object.Delimited : Object → Prop
  | .named n => Enclosed n.iri
  | .blank b => ' ' ∉ b.id
  | .literal lit => lit.Delimited

theorem writeObject_inj {a b : Object} (ha : a.Delimited) (hb : b.Delimited)
    (h : writeObject a ++ ' ' :: r = writeObject b ++ ' ' :: s) : a = b ∧ r = s := by
  cases a with
  | named n =>
    cases b with
    | named m =>
      obtain ⟨hiri, hrs⟩ := writeIri_inj ha hb h
      exact ⟨congrArg _ (NamedNode.ext hiri), hrs⟩
    | blank m => simp [writeObject, writeIri, writeBlank] at h
    | literal m => simp [writeObject, writeIri, writeLiteral] at h
  | blank n =>
    cases b with
    | named m => simp [writeObject, writeIri, writeBlank] at h
    | blank m =>
      obtain ⟨hid, hrs⟩ := writeBlank_inj ha hb h
      exact ⟨congrArg _ (BlankNode.ext hid), hrs⟩
    | literal m => simp [writeObject, writeBlank, writeLiteral] at h
  | literal n =>
    cases b with
    | named m => simp [writeObject, writeIri, writeLiteral] at h
    | blank m => simp [writeObject, writeBlank, writeLiteral] at h
    | literal m =>
      obtain ⟨rfl, hrs⟩ := writeLiteral_inj ha hb h
      exact ⟨rfl, hrs⟩

section
variable {a b : Quad}

theorem Delimited.object (h : Delimited a) : a.object.Delimited := by
  cases hobject : a.object with
  | named n => exact h.iris _ (by simp [quadIris, hobject])
  | blank n => exact h.labels _ (by simp [quadBlankNodeIds, hobject])
  | literal lit => exact ⟨h.iris _ (by simp [quadIris, hobject]), h.tags lit (by simp [quadLiterals, hobject])⟩

theorem writeSubject_inj (ha : Delimited a) (hb : Delimited b)
    (h : writeSubject a.subject ++ ' ' :: r = writeSubject b.subject ++ ' ' :: s) :
    a.subject = b.subject ∧ r = s := by
  have hdelimited {a : Quad} (ha : Delimited a) : a.subject.toObject.Delimited := by
    cases hsubject : a.subject with
    | named n => exact ha.iris _ (by simp [quadIris, hsubject])
    | blank n => exact ha.labels _ (by simp [quadBlankNodeIds, hsubject])
  have hwrite (subject : Subject) : writeSubject subject = writeObject subject.toObject := by cases subject <;> rfl
  rw [hwrite, hwrite] at h
  obtain ⟨hsame, hrs⟩ := writeObject_inj (hdelimited ha) (hdelimited hb) h
  refine ⟨?_, hrs⟩
  cases hsa : a.subject <;> cases hsb : b.subject <;> simp_all [Subject.toObject]

theorem writeGraph_inj (ha : Delimited a) (hb : Delimited b)
    (h : writeGraph a.graph ++ '.' :: r = writeGraph b.graph ++ '.' :: s) : a.graph = b.graph ∧ r = s := by
  have hdelimited {a : Quad} (ha : Delimited a) : ∀ term ∈ a.graph.toObject?, term.Delimited := by
    cases hgraph : a.graph with
    | named n => rintro _ ⟨⟩; exact ha.iris _ (by simp [quadIris, hgraph])
    | blank n => rintro _ ⟨⟩; exact ha.labels _ (by simp [quadBlankNodeIds, hgraph])
    | default => rintro _ ⟨⟩
  have hwrite (graph : GraphLabel) : writeGraph graph = graph.toObject?.elim [] (writeObject · ++ [' ']) := by
    cases graph <;> rfl
  have hsame : a.graph.toObject? = b.graph.toObject? ∧ r = s := by
    rw [hwrite, hwrite] at h
    cases hga : a.graph.toObject? with
    | none =>
      cases hgb : b.graph.toObject? with
      | none => simpa [hga, hgb] using h
      | some term => cases term <;> simp [hga, hgb, writeObject, writeIri, writeBlank, writeLiteral] at h
    | some term =>
      cases hgb : b.graph.toObject? with
      | none => cases term <;> simp [hga, hgb, writeObject, writeIri, writeBlank, writeLiteral] at h
      | some other =>
        simp only [hga, hgb, Option.elim_some, append_assoc, singleton_append] at h
        obtain ⟨rfl, hrs⟩ := writeObject_inj (hdelimited ha _ hga) (hdelimited hb _ hgb) h
        exact ⟨rfl, (cons.inj hrs).2⟩
  refine ⟨?_, hsame.2⟩
  cases hga : a.graph <;> cases hgb : b.graph <;> simp_all [GraphLabel.toObject?]

theorem serializeQuad_inj (ha : Delimited a) (hb : Delimited b) (h : serializeQuad a ++ r = serializeQuad b ++ s) :
    a = b ∧ r = s := by
  have hpa : Enclosed a.predicate.iri := ha.iris _ (by simp [quadIris])
  have hpb : Enclosed b.predicate.iri := hb.iris _ (by simp [quadIris])
  simp only [serializeQuad, append_assoc, cons_append] at h
  obtain ⟨hsubject, h⟩ := writeSubject_inj ha hb h
  obtain ⟨hpredicate, h⟩ := writeIri_inj hpa hpb h
  obtain ⟨hobject, h⟩ := writeObject_inj ha.object hb.object h
  obtain ⟨hgraph, hrs⟩ := writeGraph_inj ha hb h
  obtain ⟨subject, ⟨predicate⟩, object, graph⟩ := a
  obtain ⟨subject', ⟨predicate'⟩, object', graph'⟩ := b
  exact ⟨by simp_all, by simpa using hrs⟩

end

/-! ## Documents are read in one way -/

theorem serializeDataset_inj {quads others : List Quad} (hquads : ∀ quad ∈ quads, Delimited quad)
    (hothers : ∀ quad ∈ others, Delimited quad) (h : serializeDataset quads = serializeDataset others) :
    quads = others := by
  induction quads generalizing others with
  | nil =>
    cases others with
    | nil => rfl
    | cons b others => simp [serializeDataset] at h
  | cons a quads ih =>
    cases others with
    | nil => simp [serializeDataset] at h
    | cons b others =>
      simp only [serializeDataset, flatMap_cons, append_assoc] at h
      obtain ⟨rfl, hrest⟩ := serializeQuad_inj (hquads _ mem_cons_self) (hothers _ mem_cons_self) h
      rw [ih (fun quad hquad => hquads quad (mem_cons_of_mem _ hquad))
        (fun quad hquad => hothers quad (mem_cons_of_mem _ hquad)) (append_cancel_left hrest)]

/-! ## Datasets up to their blank nodes -/

/-- The same quads under other names of the blank nodes, no two under one name. -/
def Isomorphic (d e : Dataset) : Prop :=
  ∃ f : Text → Text, (∀ a ∈ blankNodes d.quads, ∀ b ∈ blankNodes d.quads, f a = f b → a = b) ∧
    ∀ quad, quad ∈ e.quads ↔ ∃ original ∈ d.quads, original.rename f = quad

theorem quadIris_rename (f : Text → Text) (quad : Quad) : quadIris (quad.rename f) = quadIris quad := by
  obtain ⟨subject, predicate, object, graph⟩ := quad
  cases subject <;> cases object <;> cases graph <;> rfl

theorem quadLiterals_rename (f : Text → Text) (quad : Quad) : quadLiterals (quad.rename f) = quadLiterals quad := by
  obtain ⟨subject, predicate, object, graph⟩ := quad
  cases subject <;> cases object <;> cases graph <;> rfl

theorem rename_rename (f g : Text → Text) (quad : Quad) : (quad.rename f).rename g =
    quad.rename fun id => g (f id) := by
  obtain ⟨subject, predicate, object, graph⟩ := quad
  cases subject <;> cases object <;> cases graph <;> rfl

theorem rename_inj {f : Text → Text} {a b : Quad}
    (hf : ∀ x ∈ quadBlankNodeIds a, ∀ y ∈ quadBlankNodeIds b, f x = f y → x = y) (h : a.rename f = b.rename f) :
    a = b := by
  obtain ⟨subject, predicate, object, graph⟩ := a
  obtain ⟨subject', predicate', object', graph'⟩ := b
  simp only [Quad.rename, Quad.mk.injEq] at h
  obtain ⟨hsubject, rfl, hobject, hgraph⟩ := h
  have hs : subject = subject' := by
    cases subject <;> cases subject' <;> simp_all [quadBlankNodeIds, BlankNode.ext_iff]
  have ho : object = object' := by
    cases object with
    | blank x =>
      cases object' with
      | blank y => rw [BlankNode.ext
          (hf x.id (by simp [quadBlankNodeIds]) y.id (by simp [quadBlankNodeIds]) (by simpa using hobject))]
      | named n => simp at hobject
      | literal lit => simp at hobject
    | named n | literal lit => cases object' <;> simp_all
  have hg : graph = graph' := by
    cases graph with
    | blank x =>
      cases graph' with
      | blank y => rw [BlankNode.ext
          (hf x.id (by simp [quadBlankNodeIds]) y.id (by simp [quadBlankNodeIds]) (by simpa using hgraph))]
      | named n => simp at hgraph
      | default => simp at hgraph
    | named n | default => cases graph' <;> simp_all
  rw [hs, ho, hg]

section
variable {quads kept : List Quad} {labels : List (Text × Text)}

theorem Delimited.rename {f : Text → Text} {quad : Quad} (h : Delimited quad)
    (hf : ∀ id ∈ quadBlankNodeIds (quad.rename f), ' ' ∉ id) : Delimited (quad.rename f) :=
  ⟨by rw [quadIris_rename]; exact h.iris, hf, by rw [quadLiterals_rename]; exact h.tags⟩

theorem CompleteLabelling.alphanum (h : CompleteLabelling quads labels) {quad : Quad} (hquad : quad ∈ quads) {id : Text}
    (hid : id ∈ quadBlankNodeIds (quad.rename (labelOf labels))) : id ≠ [] ∧ ∀ c ∈ id, c.isAlphanum = true := by
  have hvalue := h.values.mem_iff.1 (h.relabelled hquad hid)
  obtain ⟨n, -, rfl⟩ := mem_map.1 hvalue
  refine ⟨append_ne_nil_of_left_ne_nil (by decide) _, fun c hc => ?_⟩
  rcases mem_append.1 hc with hname | hdigit
  · exact all_eq_true.1 (by decide : "c14n".toList.all Char.isAlphanum = true) c hname
  · simp [Char.isAlphanum, Nat.isDigit_of_mem_toDigits (by decide) (by decide) hdigit]

theorem delimited_relabelled (h : CompleteLabelling quads labels) {quad : Quad} (hquad : quad ∈ quads)
    (hdelimited : Delimited quad) : Delimited (quad.rename (labelOf labels)) :=
  hdelimited.rename fun _ hid hblank => absurd ((h.alphanum hquad hid).2 ' ' hblank) (by decide)

theorem OneOfEach.mem_iff (h : OneOfEach quads kept) (hquads : ∀ quad ∈ quads, Delimited quad) {quad : Quad} :
    quad ∈ kept ↔ quad ∈ quads := by
  refine ⟨fun hmem => h.sublist.subset hmem, fun hmem => ?_⟩
  obtain ⟨other, hother, hline⟩ := mem_map.1 (h.covers quad hmem)
  have hsame := serializeQuad_inj (r := []) (s := []) (hquads other (h.sublist.subset hother)) (hquads quad hmem)
    (by rw [hline])
  exact hsame.1 ▸ hother

end

section
variable {d e : Dataset} {g g' : Text → Text}

/-- Datasets that come out the same under two renamings, each of which tells the blank nodes apart. -/
theorem isomorphic_of_rename (hg : ∀ a ∈ blankNodes d.quads, ∀ b ∈ blankNodes d.quads, g a = g b → a = b)
    (hg' : ∀ a ∈ blankNodes e.quads, ∀ b ∈ blankNodes e.quads, g' a = g' b → a = b)
    (hto : ∀ quad ∈ d.quads, ∃ other ∈ e.quads, quad.rename g = other.rename g')
    (hfrom : ∀ other ∈ e.quads, ∃ quad ∈ d.quads, quad.rename g = other.rename g') : Isomorphic d e := by
  have hids : ∀ id ∈ blankNodes d.quads, ∃ other ∈ blankNodes e.quads, g id = g' other := by
    intro id hid
    obtain ⟨quad, hquad, hin⟩ := mem_blankNodes.1 hid
    obtain ⟨other, hother, hsame⟩ := hto quad hquad
    have hnames := congrArg quadBlankNodeIds hsame
    rw [quadBlankNodeIds_rename, quadBlankNodeIds_rename] at hnames
    obtain ⟨x, hx, hlabel⟩ := mem_map.1 (hnames ▸ mem_map_of_mem hin)
    exact ⟨x, mem_blankNodes.2 ⟨other, hother, hx⟩, hlabel.symm⟩
  -- each blank node goes to the one that gets the same label
  choose! f hf hlabel using hids
  have hfinj : ∀ a ∈ blankNodes d.quads, ∀ b ∈ blankNodes d.quads, f a = f b → a = b := by
    intro a ha b hb hab
    exact hg a ha b hb (by rw [hlabel a ha, hlabel b hb, hab])
  -- a quad of one dataset and a quad of the other that come out the same are the same under `f`
  have hpair {quad other : Quad} (hquad : quad ∈ d.quads) (hother : other ∈ e.quads)
      (hsame : quad.rename g = other.rename g') : quad.rename f = other := by
    have hin : ∀ id ∈ quadBlankNodeIds quad, id ∈ blankNodes d.quads :=
      fun id hid => mem_blankNodes.2 ⟨quad, hquad, hid⟩
    refine rename_inj (f := g') (fun x hx y hy hxy => ?_) ?_
    · rw [quadBlankNodeIds_rename] at hx
      obtain ⟨id, hid, rfl⟩ := mem_map.1 hx
      exact hg' _ (hf id (hin id hid)) y (mem_blankNodes.2 ⟨other, hother, hy⟩) hxy
    · rw [rename_rename, ← hsame]
      exact Quad.rename_congr fun id hid => (hlabel id (hin id hid)).symm
  refine ⟨f, hfinj, fun quad => ⟨fun hquad => ?_, ?_⟩⟩
  · obtain ⟨original, horiginal, hsame⟩ := hfrom quad hquad
    exact ⟨original, horiginal, hpair horiginal hquad hsame⟩
  · rintro ⟨original, horiginal, rfl⟩
    obtain ⟨other, hother, hsame⟩ := hto original horiginal
    rw [hpair horiginal hother hsame]
    exact hother

/-- The text is made of the lines of the dataset, in some order, under a renaming that tells the blank nodes
apart. -/
def Written (d : Dataset) (text : Text) : Prop :=
  ∃ (g : Text → Text) (kept : List Quad), (∀ a ∈ blankNodes d.quads, ∀ b ∈ blankNodes d.quads, g a = g b → a = b) ∧
    (∀ {quad}, quad ∈ kept ↔ quad ∈ d.quads) ∧ (∀ quad ∈ kept, Delimited (quad.rename g)) ∧
    text = serializeDataset (kept.map fun quad => quad.rename g)

/-- A text is read in one way, so what it is written from is known up to the blank nodes. -/
theorem isomorphic_of_written {text : Text} (hd : Written d text) (he : Written e text) : Isomorphic d e := by
  obtain ⟨g, kept, hg, hmem, hkept, rfl⟩ := hd
  obtain ⟨g', kept', hg', hmem', hkept', htext⟩ := he
  have hsame : kept.map (fun quad => quad.rename g) = kept'.map fun quad => quad.rename g' :=
    serializeDataset_inj (forall_mem_map.2 hkept) (forall_mem_map.2 hkept') htext
  refine isomorphic_of_rename hg hg' (fun quad hquad => ?_) fun other hother => ?_
  · obtain ⟨other, hother, heq⟩ := mem_map.1 (hsame ▸ mem_map_of_mem (hmem.2 hquad))
    exact ⟨other, hmem'.1 hother, heq.symm⟩
  · obtain ⟨quad, hquad, heq⟩ := mem_map.1 (hsame.symm ▸ mem_map_of_mem (hmem'.2 hother))
    exact ⟨quad, hmem.1 hquad, heq⟩

/-- Lines in another order are those of the quads in another order. -/
theorem exists_serializeDataset {lines : List Text} {quads : List Quad}
    (h : lines.Perm (quads.map fun quad => serializeQuad (quad.rename g) ++ ['\n'])) :
    ∃ kept : List Quad, kept.Perm quads ∧ lines.flatten = serializeDataset (kept.map fun quad => quad.rename g) := by
  have hcomp := congrFun (congrFun (eq_map_comp_perm fun quad => serializeQuad (quad.rename g) ++ ['\n']) lines) quads
  obtain ⟨kept, rfl, hperm⟩ := hcomp.symm ▸ h
  exact ⟨kept, hperm, by rw [serializeDataset, flatMap_map, flatMap]⟩

/-- What the canonical text is: the lines of the quads under the labels. -/
theorem canonicalize_eq {sha256 : Text → Text} {order : HashOrder} {text : Text}
    (hd : ∀ quad ∈ d.quads, Delimited quad) (h : canonicalize sha256 order d = .ok text) :
    ∃ labels, ∃ kept : List Quad, CompleteLabelling d.quads labels ∧ (∀ {quad}, quad ∈ kept ↔ quad ∈ d.quads) ∧
      text = serializeDataset (kept.map fun quad => quad.rename (labelOf labels)) := by
  obtain ⟨⟨_, labels⟩, hok, htext⟩ := Fallible.bind_eq_ok_iff.1 h
  cases htext
  obtain ⟨hlabels, lines, hperm, -, rfl⟩ := (canonicalizeWithLabelMap_meets sha256 order d).2 _ hok
  obtain ⟨kept, hkept, htext⟩ := exists_serializeDataset hperm
  -- quads with one line are one quad
  have hmem {quad : Quad} : quad ∈ _ ↔ quad ∈ d.quads := (oneOfEach_dedupQuads d.quads).mem_iff hd
  refine ⟨labels, kept, ⟨hlabels.nodup, fun id => ?_, hlabels.values⟩, hkept.mem_iff.trans hmem, htext⟩
  rw [hlabels.keys]
  exact exists_congr fun quad => and_congr_left' hmem

theorem CompleteLabelling.injOn {labels : List (Text × Text)} (h : CompleteLabelling d.quads labels) :
    ∀ a ∈ blankNodes d.quads, ∀ b ∈ blankNodes d.quads, labelOf labels a = labelOf labels b → a = b :=
  fun _ ha _ hb => h.labelOf_inj (mem_blankNodes.1 ha) (mem_blankNodes.1 hb)

theorem canonicalize_written {sha256 : Text → Text} {order : HashOrder} {text : Text}
    (hd : ∀ quad ∈ d.quads, Delimited quad) (h : canonicalize sha256 order d = .ok text) : Written d text := by
  obtain ⟨labels, kept, hlabels, hmem, rfl⟩ := canonicalize_eq hd h
  exact ⟨_, kept, hlabels.injOn, hmem,
    fun quad hquad => delimited_relabelled hlabels (hmem.1 hquad) (hd quad (hmem.1 hquad)), rfl⟩

/-- **The canonical text is a document**, in which the dataset is read again, up to its blank nodes. -/
theorem parse_canonicalize {sha256 : Text → Text} {order : HashOrder} {text : Text}
    (hd : ∀ quad ∈ d.quads, Plain quad) (h : canonicalize sha256 order d = .ok text) :
    ∃ e, parse text = .ok e ∧ Isomorphic d e := by
  have hdelimited : ∀ quad ∈ d.quads, Delimited quad := by
    refine fun quad hquad => ⟨fun iri hiri hin => ?_, fun id hid hblank => ?_, fun lit hlit lang hlang => ?_⟩
    · exact (hd quad hquad).iris iri hiri '>' (hin.subset mem_cons_self) (by simp)
    · exact ((hd quad hquad).labels id hid).2 ' ' hblank (by simp)
    · obtain ⟨hplain, hstring⟩ := (hd quad hquad).tags lit hlit lang hlang
      exact ⟨fun hblank => hplain ' ' hblank (by simp), hstring⟩
  obtain ⟨labels, kept, hlabels, hmem, rfl⟩ := canonicalize_eq hdelimited h
  -- a label is made of letters and digits, so the relabelled quads are plain
  have hplain : ∀ quad ∈ kept, Plain (quad.rename (labelOf labels)) := by
    intro quad hquad
    obtain ⟨hiris, -, htags⟩ := hd quad (hmem.1 hquad)
    refine ⟨by rwa [quadIris_rename], fun id hid => ?_, by rwa [quadLiterals_rename]⟩
    obtain ⟨hne, halphanum⟩ := hlabels.alphanum (hmem.1 hquad) hid
    refine ⟨hne, fun c hc hstop => ?_⟩
    have hc := halphanum c hc
    simp only [mem_cons, not_mem_nil, or_false] at hstop
    rcases hstop with rfl | rfl | rfl | rfl | rfl <;> exact absurd hc (by decide)
  refine ⟨⟨kept.map fun quad => quad.rename (labelOf labels)⟩, ?_, labelOf labels, hlabels.injOn, fun quad => ?_⟩
  · rw [parse, parseLines_serializeDataset _ (forall_mem_map.2 hplain)]
    rfl
  · rw [mem_map]
    exact exists_congr fun original => and_congr_left' hmem

/-- Two blank nodes that name each other. -/
def circle (a b : Text) : Dataset :=
  ⟨[⟨.blank ⟨a⟩, ⟨['p']⟩, .blank ⟨b⟩, .default⟩, ⟨.blank ⟨b⟩, ⟨['q']⟩, .blank ⟨a⟩, .default⟩]⟩

def circleText : Text := "_:c14n0 <p> _:c14n1 .\n_:c14n1 <q> _:c14n0 .\n".toList

theorem forall_mem_circle {P : Quad → Prop} {a b : Text}
    (hp : P ⟨.blank ⟨a⟩, ⟨['p']⟩, .blank ⟨b⟩, .default⟩) (hq : P ⟨.blank ⟨b⟩, ⟨['q']⟩, .blank ⟨a⟩, .default⟩) :
    ∀ quad ∈ (circle a b).quads, P quad := by
  intro quad hquad
  rcases mem_cons.1 hquad with rfl | hquad
  · exact hp
  · obtain rfl := mem_singleton.1 hquad
    exact hq

theorem parse_canonicalize_circle : ∃ e, parse circleText = .ok e ∧ Isomorphic (circle ['a'] ['b']) e :=
  @parse_canonicalize _ id insertionOrder _
    (forall_mem_circle ⟨by decide, by decide, by decide⟩ ⟨by decide, by decide, by decide⟩) (by decide +kernel)

/-- **Soundness**: delimited datasets with one canonical text are the same up to their blank nodes. -/
theorem isomorphic_of_canonicalize_eq {sha256 : Text → Text} {order order' : HashOrder} {text : Text}
    (hd : ∀ quad ∈ d.quads, Delimited quad) (he : ∀ quad ∈ e.quads, Delimited quad)
    (hdtext : canonicalize sha256 order d = .ok text) (hetext : canonicalize sha256 order' e = .ok text) :
    Isomorphic d e :=
  isomorphic_of_written (canonicalize_written hd hdtext) (canonicalize_written he hetext)

end

end AffinidiTdk.Rdf
