/-
Soundness of the canonical text for the datasets that the program makes itself: those that the N-Quads
parser reads and those that JSON-LD documents expand to in safe mode. Parsed labels and tags have no
blanks, and only language strings have a tag; what is left to ask for is that an IRI is closed by its own
bracket, and that a label or a tag from a JSON-LD document has no blank.
-/
import AffinidiTdk.Jsonld.BlankNodes
import AffinidiTdk.Rdf.Soundness
import Mathlib.Data.List.TakeWhile

namespace AffinidiTdk.Jsonld

open Fallible List
open AffinidiTdk.Rdf AffinidiTdk.Rdf.NQuads

/-- A tag has no blank. -/
def CleanTag (lit : Literal) : Prop := ∀ lang ∈ lit.language, ' ' ∉ lang

/-! ## Parsed quads -/

/-- What the parser sees to. -/
structure ParsedQuad (quad : Quad) : Prop where
  labels : ∀ id ∈ quadBlankNodeIds quad, ' ' ∉ id
  tagged : ∀ lit ∈ quadLiterals quad, TaggedLiteral lit
  tags : ∀ lit ∈ quadLiterals quad, CleanTag lit

variable {lineNum : ℕ} {text rest : Text}

theorem not_mem_takeWhile {stops : Char → Bool} {c : Char} (h : stops c = false) (text : Text) :
    c ∉ text.takeWhile stops := by
  intro hmem
  have hstops := mem_takeWhile_imp hmem
  rw [h] at hstops
  cases hstops

theorem parseBlankNode_label {b : BlankNode} (h : parseBlankNode lineNum text = .ok (b, rest)) : ' ' ∉ b.id := by
  obtain ⟨rest₁, -, h⟩ := bind_eq_ok_iff.1 h
  obtain ⟨rest₂, -, h⟩ := bind_eq_ok_iff.1 h
  obtain ⟨-, h⟩ := guard_eq_ok_iff.1 h
  cases h
  exact not_mem_takeWhile (by decide) rest₂

theorem parseLiteral_tag {lit : Literal} (h : parseLiteral lineNum text = .ok (lit, rest)) :
    TaggedLiteral lit ∧ CleanTag lit := by
  obtain ⟨rest₁, -, h⟩ := bind_eq_ok_iff.1 h
  obtain ⟨⟨raw, rest₂⟩, -, h⟩ := bind_eq_ok_iff.1 h
  obtain ⟨value, -, h⟩ := bind_eq_ok_iff.1 h
  by_cases hat : rest₂.head? = some '@'
  · simp only [if_pos hat] at h
    cases h
    refine ⟨fun lang _ => rfl, fun lang hlang => ?_⟩
    cases hlang
    exact not_mem_takeWhile (by decide) rest₂.tail
  by_cases hcaret : rest₂.head? = some '^'
  · simp only [if_neg hat, if_pos hcaret] at h
    obtain ⟨rest₃, -, h⟩ := bind_eq_ok_iff.1 h
    obtain ⟨⟨datatype, rest₄⟩, -, h⟩ := bind_eq_ok_iff.1 h
    cases h
    exact ⟨nofun, nofun⟩
  · simp only [if_neg hat, if_neg hcaret] at h
    cases h
    exact ⟨nofun, nofun⟩

theorem parseSubject_label {subject : Subject} (h : parseSubject lineNum text = .ok (subject, rest)) :
    ∀ b, subject = .blank b → ' ' ∉ b.id := by
  unfold parseSubject at h
  cases hhead : text.head? with
  | none =>
    rw [hhead] at h
    cases h
  | some ch =>
    simp only [hhead] at h
    by_cases hopen : ch = '<'
    · simp only [if_pos hopen] at h
      obtain ⟨⟨n, rest₁⟩, -, h⟩ := bind_eq_ok_iff.1 h
      cases h
      nofun
    by_cases hblank : ch = '_'
    · simp only [if_neg hopen, if_pos hblank] at h
      obtain ⟨⟨b, rest₁⟩, hb, h⟩ := bind_eq_ok_iff.1 h
      cases h
      rintro other heq
      obtain rfl := Subject.blank.inj heq
      exact parseBlankNode_label hb
    · simp only [if_neg hopen, if_neg hblank] at h
      cases h

theorem parseObject_names {object : Object} (h : parseObject lineNum text = .ok (object, rest)) :
    (∀ b, object = .blank b → ' ' ∉ b.id) ∧ ∀ lit, object = .literal lit → TaggedLiteral lit ∧ CleanTag lit := by
  unfold parseObject at h
  cases hhead : text.head? with
  | none =>
    rw [hhead] at h
    cases h
  | some ch =>
    simp only [hhead] at h
    by_cases hopen : ch = '<'
    · simp only [if_pos hopen] at h
      obtain ⟨⟨n, rest₁⟩, -, h⟩ := bind_eq_ok_iff.1 h
      cases h
      exact ⟨nofun, nofun⟩
    by_cases hblank : ch = '_'
    · simp only [if_neg hopen, if_pos hblank] at h
      obtain ⟨⟨b, rest₁⟩, hb, h⟩ := bind_eq_ok_iff.1 h
      cases h
      refine ⟨fun other heq => ?_, nofun⟩
      obtain rfl := Object.blank.inj heq
      exact parseBlankNode_label hb
    by_cases hquote : ch = '"'
    · simp only [if_neg hopen, if_neg hblank, if_pos hquote] at h
      obtain ⟨⟨lit, rest₁⟩, hlit, h⟩ := bind_eq_ok_iff.1 h
      cases h
      refine ⟨nofun, fun other heq => ?_⟩
      obtain rfl := Object.literal.inj heq
      exact parseLiteral_tag hlit
    · simp only [if_neg hopen, if_neg hblank, if_neg hquote] at h
      cases h

theorem parseGraph_label {graph : GraphLabel} (h : parseGraph lineNum text = .ok (graph, rest)) :
    ∀ b, graph = .blank b → ' ' ∉ b.id := by
  unfold parseGraph at h
  by_cases hopen : text.head? = some '<'
  · simp only [if_pos hopen] at h
    obtain ⟨⟨n, rest₁⟩, -, h⟩ := bind_eq_ok_iff.1 h
    cases h
    nofun
  by_cases hblank : text.head? = some '_'
  · simp only [if_neg hopen, if_pos hblank] at h
    obtain ⟨⟨b, rest₁⟩, hb, h⟩ := bind_eq_ok_iff.1 h
    cases h
    rintro other heq
    obtain rfl := GraphLabel.blank.inj heq
    exact parseBlankNode_label hb
  · simp only [if_neg hopen, if_neg hblank] at h
    cases h
    nofun

theorem parseOptionalGraph_label {graph : GraphLabel} (h : parseOptionalGraph lineNum text = .ok (graph, rest)) :
    ∀ b, graph = .blank b → ' ' ∉ b.id := by
  unfold parseOptionalGraph at h
  by_cases hstop : text.head? = some '.'
  · simp only [if_pos hstop] at h
    cases h
    nofun
  · simp only [if_neg hstop] at h
    obtain ⟨⟨g, rest₁⟩, hg, h⟩ := bind_eq_ok_iff.1 h
    cases h
    exact parseGraph_label hg

theorem parseLine_parsed {quad : Quad} (h : parseLine lineNum text = .ok quad) : ParsedQuad quad := by
  obtain ⟨⟨subject, rest₁⟩, hsubject, h⟩ := bind_eq_ok_iff.1 h
  obtain ⟨⟨predicate, rest₂⟩, -, h⟩ := bind_eq_ok_iff.1 h
  obtain ⟨⟨object, rest₃⟩, hobject, h⟩ := bind_eq_ok_iff.1 h
  obtain ⟨⟨graph, rest₄⟩, hgraph, h⟩ := bind_eq_ok_iff.1 h
  obtain ⟨rest₅, -, h⟩ := bind_eq_ok_iff.1 h
  obtain ⟨-, h⟩ := guard_eq_ok_iff.1 h
  cases h
  have hs := parseSubject_label hsubject
  obtain ⟨ho, hl⟩ := parseObject_names hobject
  have hg := parseOptionalGraph_label hgraph
  have hliterals : ∀ lit ∈ quadLiterals ⟨subject, predicate, object, graph⟩, object = .literal lit := by
    intro lit hlit
    cases object with
    | literal other => rw [mem_singleton.1 hlit]
    | named | blank => cases hlit
  refine ⟨fun id hid => ?_, fun lit hlit => (hl lit (hliterals lit hlit)).1,
    fun lit hlit => (hl lit (hliterals lit hlit)).2⟩
  rcases mem_append.1 hid with hid | hid
  · rcases mem_append.1 hid with hid | hid
    · cases subject with
      | blank b => exact mem_singleton.1 hid ▸ hs b rfl
      | named => cases hid
    · cases object with
      | blank b => exact mem_singleton.1 hid ▸ ho b rfl
      | named | literal => cases hid
  · cases graph with
    | blank b => exact mem_singleton.1 hid ▸ hg b rfl
    | named | default => cases hid

theorem parseLines_parsed {numbered : List (Text × ℕ)} {quads : List Quad} (h : parseLines numbered = .ok quads) :
    ∀ quad ∈ quads, ParsedQuad quad := by
  induction numbered generalizing quads with
  | nil =>
    cases h
    nofun
  | cons line more ih =>
    obtain ⟨line, lineNum⟩ := line
    rw [parseLines] at h
    by_cases hskip : trim line = [] ∨ (trim line).head? = some '#'
    · rw [if_pos hskip] at h
      exact ih h
    · rw [if_neg hskip] at h
      obtain ⟨quad, hquad, h⟩ := bind_eq_ok_iff.1 h
      obtain ⟨quads', hquads, h⟩ := bind_eq_ok_iff.1 h
      cases h
      intro other hother
      rcases mem_cons.1 hother with rfl | hother
      · exact parseLine_parsed hquad
      · exact ih hquads other hother

theorem parse_parsed {input : Text} {dataset : Dataset} (h : parse input = .ok dataset) :
    ∀ quad ∈ dataset.quads, ParsedQuad quad := by
  obtain ⟨quads, hquads, h⟩ := bind_eq_ok_iff.1 h
  cases h
  exact parseLines_parsed hquads

/-! ## Converted quads -/

theorem expandAndToRdfSafe_tagged {bundled : Bundled} {doubles : Doubles} {document : Json} {dataset : Dataset}
    (h : expandAndToRdfSafe bundled doubles document = .ok dataset) :
    ∀ quad ∈ dataset.quads, ∀ lit ∈ quadLiterals quad, TaggedLiteral lit := by
  obtain ⟨expanded, -, h⟩ := bind_eq_ok_iff.1 h
  cases expanded with
  | arr nodes =>
    obtain ⟨progress, hprogress, h⟩ := bind_eq_ok_iff.1 h
    cases h
    exact fun quad hquad => (((processNodes_recorded hprogress).1.quads quad hquad).resolve_left not_mem_nil).tagged
  | null | bool | int | float | str | obj => cases h

/-! ## Soundness -/

/-- How a dataset comes about. -/
inductive Produced (bundled : Bundled) (doubles : Doubles) : Dataset → Prop
  | parsed {input : Text} {dataset : Dataset} (h : parse input = .ok dataset) : Produced bundled doubles dataset
  | converted {document : Json} {dataset : Dataset} (h : expandAndToRdfSafe bundled doubles document = .ok dataset) :
    Produced bundled doubles dataset

/-- Every name on the lines of the dataset ends where it should. -/
structure Legible (dataset : Dataset) : Prop where
  iris : ∀ quad ∈ dataset.quads, ∀ iri ∈ quadIris quad, Enclosed iri
  labels : ∀ quad ∈ dataset.quads, ∀ id ∈ quadBlankNodeIds quad, ' ' ∉ id
  tags : ∀ quad ∈ dataset.quads, ∀ lit ∈ quadLiterals quad, CleanTag lit

variable {bundled : Bundled} {doubles : Doubles} {dataset d e : Dataset}

theorem Produced.tagged (h : Produced bundled doubles dataset) :
    ∀ quad ∈ dataset.quads, ∀ lit ∈ quadLiterals quad, TaggedLiteral lit := by
  cases h with
  | parsed h => exact fun quad hquad => (parse_parsed h quad hquad).tagged
  | converted h => exact expandAndToRdfSafe_tagged h

theorem legible_of_parse {input : Text} (h : parse input = .ok dataset)
    (hiris : ∀ quad ∈ dataset.quads, ∀ iri ∈ quadIris quad, Enclosed iri) : Legible dataset :=
  ⟨hiris, fun quad hquad => (parse_parsed h quad hquad).labels, fun quad hquad => (parse_parsed h quad hquad).tags⟩

/-- **Soundness**: legible datasets of the program's own making with one canonical text are the same up to
their blank nodes, whatever the hash function. -/
theorem produced_isomorphic {sha256 : Text → Text} {order order' : HashOrder}
    (hd : Produced bundled doubles d) (he : Produced bundled doubles e) (hdlegible : Legible d)
      (helegible : Legible e)
    (hdtext : canonicalize sha256 order d = .ok text) (hetext : canonicalize sha256 order' e = .ok text) :
    Isomorphic d e := by
  have hdelimited {dataset : Dataset} (hproduced : Produced bundled doubles dataset) (hlegible : Legible dataset) :
      ∀ quad ∈ dataset.quads, Delimited quad := by
    intro quad hquad
    refine ⟨hlegible.iris quad hquad, hlegible.labels quad hquad, fun lit hlit lang hlang => ?_⟩
    exact ⟨hlegible.tags quad hquad lit hlit lang hlang, hproduced.tagged quad hquad lit hlit lang hlang⟩
  exact Rdf.isomorphic_of_canonicalize_eq (hdelimited hd hdlegible) (hdelimited he helegible) hdtext hetext

theorem circle_enclosed (a b : Text) : ∀ quad ∈ (circle a b).quads, ∀ iri ∈ quadIris quad, Enclosed iri := by
  refine forall_mem_circle (fun iri hiri => ?_) fun iri hiri => ?_
  · rw [mem_singleton.1 hiri]
    exact (by decide : ¬ ['>', ' '] <:+: ['p'])
  · rw [mem_singleton.1 hiri]
    exact (by decide : ¬ ['>', ' '] <:+: ['q'])

theorem produced_isomorphic_circle : Isomorphic (circle ['a'] ['b']) (circle ['y'] ['x']) := by
  have hab : parse "_:a <p> _:b .\n_:b <q> _:a .".toList = .ok (circle ['a'] ['b']) := by decide +kernel
  have hyx : parse "_:y <p> _:x .\n_:x <q> _:y .".toList = .ok (circle ['y'] ['x']) := by decide +kernel
  have hproduced {input : Text} {dataset : Dataset} (h : parse input = .ok dataset) :
      Produced (fun _ => none) ⟨fun _ => none, String.toList⟩ dataset := .parsed h
  have habtext : canonicalize id insertionOrder (circle ['a'] ['b']) = .ok circleText := by decide +kernel
  have hyxtext : canonicalize id insertionOrder (circle ['y'] ['x']) = .ok circleText := by decide +kernel
  exact produced_isomorphic (hproduced hab) (hproduced hyx) (legible_of_parse hab (circle_enclosed _ _))
    (legible_of_parse hyx (circle_enclosed _ _)) habtext hyxtext

/-- A line whose object has a closing bracket in it, as an escape. -/
def forgedLine : Text := "<s> <p> <o\\u003E <g> .".toList

def plainLine : Text := "<s> <p> <o> <g> .".toList

def forged : Dataset := ⟨[⟨.named ⟨['s']⟩, ⟨['p']⟩, .named ⟨"o> <g".toList⟩, .default⟩]⟩

def genuine : Dataset := ⟨[⟨.named ⟨['s']⟩, ⟨['p']⟩, .named ⟨['o']⟩, .named ⟨['g']⟩⟩]⟩

/-- Two datasets that the parser reads have one canonical text, and are not the same. -/
theorem forged_canonicalizes_as_genuine :
    parse forgedLine = .ok forged ∧ parse plainLine = .ok genuine ∧
      canonicalize id insertionOrder forged = canonicalize id insertionOrder genuine ∧
      (canonicalize id insertionOrder genuine).isOk ∧ ¬Isomorphic forged genuine := by
  refine ⟨by decide +kernel, by decide +kernel, by decide +kernel, by decide +kernel, ?_⟩
  rintro ⟨f, -, hquads⟩
  obtain ⟨original, horiginal, heq⟩ := (hquads _).1 mem_cons_self
  rw [mem_singleton.1 horiginal] at heq
  simp [Quad.rename] at heq

end AffinidiTdk.Jsonld
