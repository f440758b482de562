/-
The HMAC relabelling of canonical statements (`affinidi-data-integrity`, `bbs_2023_transform.rs`). Labels
are looked for in the text of a whole line, whatever term they stand in; where no IRI and no literal
imitates one, only blank nodes are renamed, and no two datasets come out alike. What a label is sorted by,
the multibase form of its HMAC, is a parameter.
-/
import AffinidiTdk.DataIntegrity.Proof
import AffinidiTdk.Jsonld.Soundness
import Mathlib.Data.List.TakeWhile

namespace AffinidiTdk.DataIntegrity

open List
open Rdf NQuads Jsonld

/-! ## Lines -/

section

variable (start : Text) (ends : Char → Bool) (f : Text → Text)

/-- What the loops over a line come to: a label stands behind each `_:` that `start` follows and runs to the
first character that ends it; every other character is by itself. -/
def pieces : Text → List (Char ⊕ Text)
  | [] => []
  | c :: rest =>
    if ('_' :: ':' :: start).isPrefixOf (c :: rest) then
      .inr (rest.tail.takeWhile fun c => !ends c) :: pieces (rest.tail.dropWhile fun c => !ends c)
    else .inl c :: pieces rest
termination_by text => text.length
decreasing_by
  · have hdrop := (dropWhile_suffix (l := rest.tail) fun c => !ends c).length_le
    simp only [length_tail, length_cons] at hdrop ⊢
    omega
  · simp

def writePiece : Char ⊕ Text → Text := Sum.elim (fun c => [c]) fun label => writeBlank (f label)

/-- A line with every label replaced. -/
def relabelText (line : Text) : Text := (pieces start ends line).flatMap (writePiece f)

end

/-- A label of `relabel_and_sort` and of `distinct_c14n_labels` begins with this. -/
def c14n : Text := "c14n".toList

/-- No letter and no digit: there it ends. -/
def endsLabel (c : Char) : Bool := !c.isAlphanum

/-- One line of `relabel_and_sort`. -/
def relabelLine (labelMap : List (Text × Text)) : Text → Text :=
  relabelText c14n endsLabel (labelOf labelMap)

def relabelAndSort (canonical : Text) (labelMap : List (Text × Text)) : Text :=
  (sortTexts ((lines canonical).map fun line => relabelLine labelMap line ++ ['\n'])).flatten

def relabelBlankLine (line : Text) (labelMap : List (Text × Text)) : Text :=
  relabelText [] isWhitespace (labelOf labelMap) line

def distinctC14nLabels (canonical : Text) : List Text :=
  sortTexts ((lines canonical).flatMap fun line =>
    (pieces c14n endsLabel line).filterMap Sum.getRight?).dedup

/-- The labels in the order of their sort keys, `b0` for the first. -/
def hmacLabelMap (hmac : Text → Text) (canonical : Text) : List (Text × Text) :=
  let keyed := ((distinctC14nLabels canonical).map fun label => (hmac label, label)).insertionSort fun a b =>
    a.1 < b.1 ∨ a.1 = b.1 ∧ a.2 ≤ b.2
  keyed.zipIdx.map fun entry => (entry.1.2, IdentifierIssuer.identifier ['b'] entry.2)

/-- `hmac_canonicalize` from the dataset of the document on. -/
def hmacCanonicalize (sha256 : Text → Text) (order : HashOrder) (hmac : Text → Text) (dataset : Dataset) :
    Except DataIntegrityError Text := do
  let canonical ← (canonicalize sha256 order dataset).mapError fun e => .canonicalization (haltMessage e)
  pure (relabelAndSort canonical (hmacLabelMap hmac canonical))

/-! ## Replacing in parts -/

variable {start : Text} {ends : Char → Bool} {f : Text → Text} {c : Char}

theorem isPrefixOf_append_cons {mark : Text} (hc : c ∉ mark) (a b : Text) :
    mark.isPrefixOf (a ++ c :: b) = mark.isPrefixOf a := by
  induction mark generalizing a with
  | nil => simp
  | cons m mark ih =>
    obtain ⟨hm, hmark⟩ := not_or.1 fun hor => hc (mem_cons.2 hor)
    cases a with
    | nil => simp [isPrefixOf, Ne.symm hm]
    | cons x a => rw [cons_append, isPrefixOf, isPrefixOf, ih hmark]

/-- A character that ends labels and is not in the mark ends a part of the line. -/
theorem pieces_append (hends : ends c = true) (hc : c ∉ '_' :: ':' :: start) (a b : Text) :
    pieces start ends (a ++ c :: b) = pieces start ends a ++ .inl c :: pieces start ends b := by
  -- by the pieces of the first part; neither a mark nor a label runs over the end
  induction a using pieces.induct start ends with
  | case1 =>
    have hmark := isPrefixOf_append_cons hc [] b
    rw [nil_append] at hmark ⊢
    rw [pieces, pieces, hmark, if_neg (by simp [isPrefixOf]), nil_append]
  | case2 x rest hmark ih =>
    obtain ⟨y, rest, rfl⟩ : ∃ y more, rest = y :: more := by
      cases rest with
      | nil => simp [isPrefixOf] at hmark
      | cons y more => exact ⟨y, more, rfl⟩
    have htake : (rest ++ c :: b).takeWhile (fun c => !ends c) = rest.takeWhile fun c => !ends c := by
      rw [takeWhile_append]
      split_ifs with hall
      · have hself : rest.takeWhile (fun c => !ends c) = rest := ( takeWhile_prefix _).eq_of_length hall
        simp [hends, hself]
      · rfl
    have hdrop : (rest ++ c :: b).dropWhile (fun c => !ends c) = (rest.dropWhile fun c => !ends c) ++ c :: b := by
      rw [dropWhile_append]
      split_ifs with hall
      · simp [hends, isEmpty_iff.1 hall]
      · rfl
    rw [pieces.eq_2 start ends x (y :: rest), if_pos hmark, cons_append, pieces,
      if_pos (by rw [← cons_append, isPrefixOf_append_cons hc, hmark]), cons_append]
    simp only [tail_cons] at ih ⊢
    rw [htake, hdrop, ih, cons_append]
  | case3 x rest hmark ih =>
    rw [pieces.eq_2 start ends x rest, if_neg hmark, cons_append, pieces,
      if_neg (by rw [← cons_append, isPrefixOf_append_cons hc]; exact hmark), ih, cons_append]

theorem relabelText_append (hends : ends c = true) (hc : c ∉ '_' :: ':' :: start) (a b : Text) :
    relabelText start ends f (a ++ c :: b) = relabelText start ends f a ++ c :: relabelText start ends f b := by
  simp [relabelText, pieces_append hends hc, writePiece]

/-- A renaming that puts no end into a label. -/
def KeepsEnds (ends : Char → Bool) (f : Text → Text) : Prop :=
  ∀ label, (∀ c ∈ label, ends c = false) → ∀ c ∈ f label, ends c = false

theorem countP_relabelText (hf : KeepsEnds ends f) (line : Text) :
    (relabelText start ends f line).countP ends = line.countP ends := by
  have hnone {label : Text} (h : ∀ c ∈ label, ends c = false) : label.countP ends = 0 :=
    countP_eq_zero.2 fun c hmem => by simp [h c hmem]
  unfold relabelText
  induction line using pieces.induct start ends with
  | case1 => rw [pieces, flatMap_nil]
  | case2 x rest hmark ih =>
    obtain ⟨rest, rfl, rfl⟩ : ∃ more, x = '_' ∧ rest = ':' :: more := by
      cases rest with
      | nil => simp [isPrefixOf] at hmark
      | cons y more =>
        simp only [isPrefixOf, Bool.and_eq_true, beq_iff_eq] at hmark
        exact ⟨more, hmark.1.symm, by rw [← hmark.2.1]⟩
    -- a label has no end in it, and its replacement has none
    have hlabel : ∀ c ∈ rest.takeWhile fun c => !ends c, ends c = false :=
      fun c hmem => by simpa using mem_takeWhile_imp hmem
    have hsplit := congrArg (countP ends) (takeWhile_append_dropWhile (p := fun c => !ends c) (l := rest))
    rw [countP_append, hnone hlabel, Nat.zero_add] at hsplit
    rw [tail_cons, hsplit] at ih
    rw [pieces, if_pos hmark, flatMap_cons, countP_append, tail_cons, ih]
    simp only [writePiece, writeBlank, Sum.elim_inr, countP_cons, hnone (hf _ hlabel)]
    omega
  | case3 x rest hmark ih =>
    rw [pieces, if_neg hmark, flatMap_cons, countP_append, ih]
    simp [writePiece, countP_cons, Nat.add_comm]

/-- Texts with as many ends in them are told apart from what follows an end. -/
theorem append_end_inj {a b r s : Text} (hc : ends c = true) (hcount : a.countP ends = b.countP ends)
    (h : a ++ c :: r = b ++ c :: s) : a = b ∧ r = s := by
  induction a generalizing b with
  | nil =>
    cases b with
    | nil => exact ⟨rfl, (cons.inj h).2⟩
    | cons x b =>
      cases h
      simp [hc] at hcount
  | cons x a ih =>
    cases b with
    | nil =>
      cases h
      simp [hc] at hcount
    | cons y b =>
      obtain ⟨rfl, htail⟩ := cons.inj h
      rw [countP_cons, countP_cons, Nat.add_right_cancel_iff] at hcount
      obtain ⟨rfl, hrest⟩ := ih hcount htail
      exact ⟨rfl, hrest⟩

/-! ## Statements -/

/-- The terms of a statement in the order of the line: the label of a blank node, and the text of an IRI or
of a literal. -/
def terms (quad : Quad) : List (Text ⊕ Text) :=
  (match quad.subject with
    | .blank b => .inl b.id
    | .named n => .inr (writeIri n.iri)) ::
  .inr (writeIri quad.predicate.iri) ::
  (match quad.object with
    | .blank b => .inl b.id
    | .named n => .inr (writeIri n.iri)
    | .literal lit => .inr (writeLiteral lit)) ::
  (match quad.graph with
    | .blank b => [.inl b.id]
    | .named n => [.inr (writeIri n.iri)]
    | .default => [])

/-- The IRIs and the literals, as they are written. -/
def names (quad : Quad) : List Text := (terms quad).filterMap Sum.getRight?

def writeTerm : Text ⊕ Text → Text := Sum.elim writeBlank id

def writeTerms (terms : List (Text ⊕ Text)) : Text := terms.flatMap (fun term => writeTerm term ++ [' ']) ++ ['.']

theorem serializeQuad_eq (quad : Quad) : serializeQuad quad = writeTerms (terms quad) := by
  obtain ⟨subject, predicate, object, graph⟩ := quad
  cases subject <;> cases object <;> cases graph <;>
    simp [serializeQuad, writeTerms, terms, writeTerm, writeSubject, writeObject, writeGraph]

theorem terms_rename (f : Text → Text) (quad : Quad) : terms (quad.rename f) = (terms quad).map (Sum.map f id) := by
  obtain ⟨subject, predicate, object, graph⟩ := quad
  cases subject <;> cases object <;> cases graph <;> rfl

theorem mem_labels_of_terms {id : Text} {quad : Quad} (h : .inl id ∈ terms quad) : id ∈ quadBlankNodeIds quad := by
  obtain ⟨subject, predicate, object, graph⟩ := quad
  cases subject <;> cases object <;> cases graph <;> simp_all [terms, quadBlankNodeIds]

theorem without_of_all {text : Text} (h : (text.all fun c => !ends c) = true) : ∀ c ∈ text, ends c = false := by
  simpa using h

/-- A label as the loop finds it: it begins with `start` and has no end in it. -/
def IsLabel (start : Text) (ends : Char → Bool) (label : Text) : Prop :=
  start <+: label ∧ ∀ c ∈ label, ends c = false

theorem relabelText_writeBlank {label : Text} (h : IsLabel start ends label) :
    relabelText start ends f (writeBlank label) = writeBlank (f label) := by
  have hmark : ('_' :: ':' :: start).isPrefixOf ('_' :: ':' :: label) = true := by
    simp [isPrefixOf, h.1]
  have hall : ∀ c ∈ label, (!ends c) = true := fun c hmem => by simp [h.2 c hmem]
  rw [relabelText, writeBlank, pieces, if_pos hmark, tail_cons, takeWhile_eq_self_iff.2 hall,
    dropWhile_eq_nil_iff.2 hall, pieces]
  simp [writePiece]

theorem relabelText_writeTerms_iff (hspace : ends ' ' = true) (hstart : ' ' ∉ start) (hf : KeepsEnds ends f)
    {terms : List (Text ⊕ Text)} (hlabels : ∀ label, .inl label ∈ terms → IsLabel start ends label) :
    relabelText start ends f (writeTerms terms) = writeTerms (terms.map (Sum.map f id)) ↔
      ∀ name ∈ terms.filterMap Sum.getRight?, relabelText start ends f name = name := by
  have hmark : ' ' ∉ '_' :: ':' :: start := by simp [hstart]
  -- by the terms; a name keeps its number of ends, so it is told from what follows
  induction terms with
  | nil => simp [writeTerms, relabelText, pieces, isPrefixOf, writePiece]
  | cons term terms ih =>
    have hrest : relabelText start ends f (writeTerms terms) = writeTerms (terms.map (Sum.map f id)) ↔
        ∀ name ∈ terms.filterMap Sum.getRight?, relabelText start ends f name = name :=
      ih fun label hmem => hlabels label (mem_cons_of_mem _ hmem)
    have hline (terms : List (Text ⊕ Text)) (term : Text ⊕ Text) :
        writeTerms (term :: terms) = writeTerm term ++ ' ' :: writeTerms terms := by simp [writeTerms]
    rw [map_cons, hline, hline, relabelText_append hspace hmark]
    cases term with
    | inl label =>
      rw [show relabelText start ends f (writeTerm (.inl label)) = writeTerm (Sum.map f id (.inl label)) from
        relabelText_writeBlank (hlabels label mem_cons_self)]
      rw [append_cancel_left_eq, cons.injEq, hrest]
      simp
    | inr name =>
      rw [filterMap_cons_some (by rfl), forall_mem_cons, ← hrest]
      refine ⟨fun h => append_end_inj hspace (countP_relabelText hf _) h, fun h => ?_⟩
      rw [h.2]
      exact congrArg (· ++ _) h.1

/-- A label stays as it is, or the map has its replacement. -/
theorem labelOf_cases (labelMap : List (Text × Text)) (label : Text) :
    labelOf labelMap label = label ∨ (label, labelOf labelMap label) ∈ labelMap := by
  unfold labelOf
  cases hlookup : labelMap.lookup label with
  | none => exact .inl rfl
  | some value =>
    obtain ⟨before, after, rfl, -⟩ := lookup_eq_some_iff.1 hlookup
    exact .inr (mem_append_right before mem_cons_self)

theorem keepsEnds_labelOf {labelMap : List (Text × Text)}
    (h : ∀ entry ∈ labelMap, ∀ c ∈ entry.2, ends c = false) : KeepsEnds ends (labelOf labelMap) := by
  intro label hlabel
  rcases labelOf_cases labelMap label with hsame | hmem
  · rwa [hsame]
  · exact h _ hmem

theorem relabelLine_serializeQuad_iff {labelMap : List (Text × Text)} {quad : Quad}
    (hlabels : ∀ id ∈ quadBlankNodeIds quad, IsLabel c14n endsLabel id)
    (hmap : ∀ entry ∈ labelMap, ∀ c ∈ entry.2, endsLabel c = false) :
    relabelLine labelMap (serializeQuad quad) = serializeQuad (quad.rename (labelOf labelMap)) ↔
      ∀ name ∈ names quad, relabelLine labelMap name = name := by
  rw [serializeQuad_eq, serializeQuad_eq, terms_rename]
  exact relabelText_writeTerms_iff (by decide) (by decide) (keepsEnds_labelOf hmap)
    fun label hmem => hlabels label (mem_labels_of_terms hmem)

/-- **Relabelling one statement** renames exactly its blank nodes if and only if it changes none of the IRIs
and literals, read as text. -/
theorem relabel_renames_iff (labelMap : List (Text × Text)) (quad : Quad) :
    ((∀ id ∈ quadBlankNodeIds quad, IsLabel c14n endsLabel id) →
      (∀ entry ∈ labelMap, ∀ c ∈ entry.2, endsLabel c = false) →
      (relabelLine labelMap (serializeQuad quad) = serializeQuad (quad.rename (labelOf labelMap)) ↔
        ∀ name ∈ names quad, relabelLine labelMap name = name)) ∧
    ((∀ id ∈ quadBlankNodeIds quad, ∀ c ∈ id, isWhitespace c = false) →
      (∀ entry ∈ labelMap, ∀ c ∈ entry.2, isWhitespace c = false) →
      (relabelBlankLine (serializeQuad quad ++ ['\n']) labelMap =
          serializeQuad (quad.rename (labelOf labelMap)) ++ ['\n'] ↔
        ∀ name ∈ names quad, relabelBlankLine name labelMap = name)) := by
  constructor
  · exact fun hlabels hmap => relabelLine_serializeQuad_iff hlabels hmap
  · intro hlabels hmap
    have hline : relabelBlankLine (serializeQuad quad ++ ['\n']) labelMap =
        relabelBlankLine (serializeQuad quad) labelMap ++ '\n' :: relabelBlankLine [] labelMap :=
      relabelText_append (by decide) (by decide) _ _
    have hnil : relabelBlankLine [] labelMap = [] := by simp [relabelBlankLine, relabelText, pieces]
    rw [hline, hnil, append_cancel_right_eq, serializeQuad_eq, serializeQuad_eq, terms_rename]
    exact relabelText_writeTerms_iff (by decide) not_mem_nil (keepsEnds_labelOf hmap)
      fun label hmem => ⟨ nil_prefix, hlabels label (mem_labels_of_terms hmem)⟩

def imitated : Quad := ⟨.blank ⟨"c14n0".toList⟩, ⟨['p']⟩, .literal (.new "_:c14n0".toList), .default⟩

theorem relabel_renames_iff_imitated :
    relabelLine [("c14n0".toList, ['b', '0'])] (serializeQuad imitated) ≠
        serializeQuad (imitated.rename (labelOf [("c14n0".toList, ['b', '0'])])) ∧
      relabelBlankLine (serializeQuad imitated ++ ['\n']) [("c14n0".toList, ['b', '0'])] =
        serializeQuad (imitated.rename (labelOf [("c14n0".toList, ['b', '0'])])) ++ ['\n'] := by
  have hlabel : ∀ id ∈ quadBlankNodeIds imitated, id = c14n ++ ['0'] := fun id hid => mem_singleton.1 hid
  have hmap : ∀ entry ∈ [("c14n0".toList, ['b', '0'])], entry.2 = ['b', '0'] :=
    fun entry hentry => congrArg Prod.snd (mem_singleton.1 hentry)
  have hmine := (relabel_renames_iff [("c14n0".toList, ['b', '0'])] imitated).1
    (fun id hid => hlabel id hid ▸ ⟨prefix_append _ _, without_of_all (by decide)⟩)
    fun entry hentry => hmap entry hentry ▸ without_of_all (by decide)
  have hblank := (relabel_renames_iff [("c14n0".toList, ['b', '0'])] imitated).2
    (fun id hid => hlabel id hid ▸ without_of_all (by decide))
    fun entry hentry => hmap entry hentry ▸ without_of_all (by decide)
  refine ⟨fun heq => ?_, hblank.2 (by decide +kernel)⟩
  exact absurd (hmine.1 heq _ (mem_cons_of_mem _ mem_cons_self)) (by decide +kernel)

/-! ## Datasets -/

/-- No IRI and no literal breaks the line or has the beginning of a canonical label in it. -/
def Unmistakable (quad : Quad) : Prop := ∀ name ∈ names quad, '\n' ∉ name ∧ ¬ '_' :: ':' :: c14n <:+: name

theorem relabelText_of_not_infix {text : Text} (h : ¬ '_' :: ':' :: start <:+: text) :
    relabelText start ends f text = text := by
  unfold relabelText
  induction text using pieces.induct start ends with
  | case1 => rw [pieces, flatMap_nil]
  | case2 x rest hmark _ => exact absurd ( isPrefixOf_iff_prefix.1 hmark).isInfix h
  | case3 x rest hmark ih =>
    rw [pieces, if_neg hmark, flatMap_cons, ih fun hin => h (hin.trans (suffix_cons x rest).isInfix)]
    rfl

theorem names_rename (f : Text → Text) (quad : Quad) : names (quad.rename f) = names quad := by
  obtain ⟨subject, predicate, object, graph⟩ := quad
  cases subject <;> cases object <;> cases graph <;> rfl

theorem feed_not_mem_of_names {quad : Quad} (hnames : ∀ name ∈ names quad, '\n' ∉ name)
    (hlabels : ∀ id ∈ quadBlankNodeIds quad, '\n' ∉ id) : '\n' ∉ serializeQuad quad := by
  rw [serializeQuad_eq, writeTerms]
  intro hfeed
  rcases mem_append.1 hfeed with hfeed | hfeed
  · obtain ⟨term, hterm, hfeed⟩ := mem_flatMap.1 hfeed
    cases term with
    | inl label => exact hlabels label (mem_labels_of_terms hterm) (by simpa [writeTerm, writeBlank] using hfeed)
    | inr name =>
      exact hnames name (mem_filterMap.2 ⟨_, hterm, rfl⟩) (by simpa [writeTerm] using hfeed)
  · simp at hfeed

theorem lines_serializeDataset {quads : List Quad} (h : ∀ quad ∈ quads, '\n' ∉ serializeQuad quad) :
    lines (serializeDataset quads) = quads.map serializeQuad := by
  induction quads with
  | nil => rfl
  | cons quad quads ih =>
    have hlast : (serializeQuad quad).getLast? ≠ some '\r' := by
      rw [serializeQuad, getLast?_concat]
      decide
    show lines (serializeQuad quad ++ ['\n'] ++ serializeDataset quads) = _
    rw [append_assoc, singleton_append, lines_append (h quad mem_cons_self) hlast,
      ih fun quad hquad => h quad (mem_cons_of_mem _ hquad), map_cons]

section

variable {quads : List Quad} {labels labelMap : List (Text × Text)}

theorem isLabel_identifier {start : Text} (hstart : ∀ c ∈ start, endsLabel c = false) (n : ℕ) :
    IsLabel start endsLabel (IdentifierIssuer.identifier start n) := by
  refine ⟨prefix_append _ _, fun c hc => ?_⟩
  rcases mem_append.1 hc with hc | hc
  · exact hstart c hc
  · simp [endsLabel, Char.isAlphanum, Nat.isDigit_of_mem_toDigits (by decide) (by decide) hc]

theorem isLabel_labelOf (h : CompleteLabelling quads labels) {quad : Quad} (hquad : quad ∈ quads) {id : Text}
    (hid : id ∈ quadBlankNodeIds (quad.rename (labelOf labels))) : IsLabel c14n endsLabel id := by
  obtain ⟨n, -, rfl⟩ := mem_map.1 (h.values.mem_iff.1 (h.relabelled hquad hid))
  exact isLabel_identifier (without_of_all (by decide)) n

/-- The relabelled text is made of the lines of the quads under both renamings. -/
theorem relabelAndSort_eq {kept : List Quad} (h : CompleteLabelling quads labels)
    (hkept : ∀ quad ∈ kept, quad ∈ quads ∧ Unmistakable quad)
    (hmap : ∀ entry ∈ labelMap, ∀ c ∈ entry.2, endsLabel c = false) :
    ∃ others : List Quad, others.Perm kept ∧
      relabelAndSort (serializeDataset (kept.map fun quad => quad.rename (labelOf labels))) labelMap =
        serializeDataset (others.map fun quad => quad.rename fun id => labelOf labelMap (labelOf labels id)) := by
  have hfeed : ∀ quad ∈ kept.map fun quad => quad.rename (labelOf labels), '\n' ∉ serializeQuad quad := by
    refine forall_mem_map.2 fun quad hquad => feed_not_mem_of_names (fun name hname => ?_) fun id hid hfeed => ?_
    · rw [names_rename] at hname
      exact ((hkept quad hquad).2 name hname).1
    · exact absurd ((isLabel_labelOf h (hkept quad hquad).1 hid).2 _ hfeed) (by decide)
  -- sorting only moves the lines
  refine exists_serializeDataset ((sortTexts_spec _).1.trans (Perm.of_eq ?_))
  rw [lines_serializeDataset hfeed, map_map, map_map]
  refine map_congr_left fun quad hquad => ?_
  have hrenames := (relabelLine_serializeQuad_iff
    (fun id hid => isLabel_labelOf h (hkept quad hquad).1 hid) hmap).2 fun name hname => ?_
  · simp only [Function.comp_apply, hrenames, rename_rename]
  · rw [names_rename] at hname
    exact relabelText_of_not_infix ((hkept quad hquad).2 name hname).2

end

section

variable {hmac : Text → Text} {canonical : Text}

theorem hmacLabelMap_values (hmac : Text → Text) (canonical : Text) : ∃ n,
    (hmacLabelMap hmac canonical).map Prod.snd = (range n).map (IdentifierIssuer.identifier ['b']) := by
  have hkeyed (keyed : List (Text × Text)) :
      (keyed.zipIdx.map fun entry => (entry.1.2, IdentifierIssuer.identifier ['b'] entry.2)).map Prod.snd =
        (range keyed.length).map (IdentifierIssuer.identifier ['b']) := by
    rw [range_eq_range', ← zipIdx_map_snd 0 keyed, map_map, map_map]
    rfl
  exact ⟨_, hkeyed _⟩

theorem isLabel_hmacLabelMap {entry : Text × Text} (h : entry ∈ hmacLabelMap hmac canonical) :
    IsLabel ['b'] endsLabel entry.2 := by
  obtain ⟨n, hvalues⟩ := hmacLabelMap_values hmac canonical
  obtain ⟨i, -, hi⟩ := mem_map.1 (hvalues ▸ mem_map_of_mem h)
  exact hi ▸ isLabel_identifier (without_of_all (by decide)) i

/-- No two canonical labels are replaced alike, whether the map has them or not. -/
theorem labelOf_hmacLabelMap_inj {a b : Text} (ha : c14n <+: a) (hb : c14n <+: b)
    (h : labelOf (hmacLabelMap hmac canonical) a = labelOf (hmacLabelMap hmac canonical) b) : a = b := by
  obtain ⟨n, hvalues⟩ := hmacLabelMap_values hmac canonical
  have hnodup : ((hmacLabelMap hmac canonical).map Prod.snd).Nodup :=
    hvalues ▸ nodup_range.map (IdentifierIssuer.identifier_injective _)
  -- a replacement begins with another letter
  have hother {label : Text} (hlabel : c14n <+: label) {entry : Text × Text}
      (hmem : entry ∈ hmacLabelMap hmac canonical) : entry.2 ≠ label := by
    obtain ⟨digits, hvalue⟩ := (isLabel_hmacLabelMap hmem).1
    obtain ⟨rest, rfl⟩ := hlabel
    rw [← hvalue]
    exact fun heq => absurd (cons.inj heq).1 (by decide)
  rcases labelOf_cases (hmacLabelMap hmac canonical) a with hsame | hmem
  · rcases labelOf_cases (hmacLabelMap hmac canonical) b with hsame' | hmem'
    · rw [← hsame, h, hsame']
    · exact absurd (h.symm.trans hsame) (hother ha hmem')
  · rcases labelOf_cases (hmacLabelMap hmac canonical) b with hsame' | hmem'
    · exact absurd (h.trans hsame') (hother hb hmem)
    · exact congrArg Prod.fst (inj_on_of_nodup_map hnodup hmem hmem' h)

theorem hmacCanonicalize_written {sha256 : Text → Text} {order : HashOrder} {d : Dataset} {text : Text}
    (hd : ∀ quad ∈ d.quads, Delimited quad ∧ Unmistakable quad)
    (h : hmacCanonicalize sha256 order hmac d = .ok text) : Written d text := by
  obtain ⟨canonical, hcanonical, hpure⟩ := Fallible.bind_eq_ok_iff.1 h
  cases hpure
  obtain ⟨labels, kept, hlabels, hmem, rfl⟩ :=
    canonicalize_eq (fun quad hquad => (hd quad hquad).1) (Fallible.mapError_eq_ok_iff.1 hcanonical)
  have hvalues {canonical : Text} : ∀ entry ∈ hmacLabelMap hmac canonical, ∀ c ∈ entry.2, endsLabel c = false :=
    fun entry hentry => (isLabel_hmacLabelMap hentry).2
  obtain ⟨others, hperm, htext⟩ :=
    relabelAndSort_eq hlabels (fun quad hquad => ⟨hmem.1 hquad, (hd quad (hmem.1 hquad)).2⟩) hvalues
  have hlabel {id : Text} (hid : id ∈ blankNodes d.quads) : IsLabel c14n endsLabel (labelOf labels id) := by
    obtain ⟨quad, hquad, hin⟩ := mem_blankNodes.1 hid
    refine isLabel_labelOf hlabels hquad ?_
    rw [quadBlankNodeIds_rename]
    exact mem_map_of_mem hin
  -- the two renamings in a row tell the blank nodes apart
  refine ⟨_, others, fun a ha b hb hab => ?_, hperm.mem_iff.trans hmem, fun quad hquad => ?_, htext⟩
  · exact hlabels.injOn a ha b hb (labelOf_hmacLabelMap_inj (hlabel ha).1 (hlabel hb).1 hab)
  · have hquad := hmem.1 (hperm.mem_iff.1 hquad)
    refine (hd quad hquad).1.rename fun id hid hspace => ?_
    rw [quadBlankNodeIds_rename] at hid
    obtain ⟨original, horiginal, rfl⟩ := mem_map.1 hid
    have hlabel := (hlabel (mem_blankNodes.2 ⟨quad, hquad, horiginal⟩)).2
    exact absurd (keepsEnds_labelOf hvalues _ hlabel _ hspace) (by decide)

/-- **Soundness**: delimited datasets without imitated labels that have one HMAC-canonical text, under any
keys, are the same up to their blank nodes. -/
theorem hmacCanonicalize_isomorphic {sha256 hmac hmac' : Text → Text} {order order' : HashOrder} {d e : Dataset}
    {text : Text} (hd : ∀ quad ∈ d.quads, Delimited quad ∧ Unmistakable quad)
    (he : ∀ quad ∈ e.quads, Delimited quad ∧ Unmistakable quad)
    (hdtext : hmacCanonicalize sha256 order hmac d = .ok text)
    (hetext : hmacCanonicalize sha256 order' hmac' e = .ok text) : Isomorphic d e :=
  isomorphic_of_written (hmacCanonicalize_written hd hdtext) (hmacCanonicalize_written he hetext)

/-- Under two keys that order the labels alike. -/
theorem hmacCanonicalize_isomorphic_circle : Isomorphic (circle ['a'] ['b']) (circle ['y'] ['x']) := by
  have hquad {a b p : Text} (ha : ' ' ∉ a) (hb : ' ' ∉ b) (hp : Enclosed p)
      (hname : '\n' ∉ writeIri p ∧ ¬ '_' :: ':' :: c14n <:+: writeIri p) :
      Delimited ⟨.blank ⟨a⟩, ⟨p⟩, .blank ⟨b⟩, .default⟩ ∧ Unmistakable ⟨.blank ⟨a⟩, ⟨p⟩, .blank ⟨b⟩, .default⟩ := by
    refine ⟨⟨forall_mem_singleton.2 hp, ?_, nofun⟩, forall_mem_singleton.2 hname⟩
    exact forall_mem_cons.2 ⟨ha, forall_mem_singleton.2 hb⟩
  have hquads {a b : Text} (ha : ' ' ∉ a) (hb : ' ' ∉ b) :
      ∀ quad ∈ (circle a b).quads, Delimited quad ∧ Unmistakable quad :=
    forall_mem_circle (hquad ha hb (by decide : ¬ ['>', ' '] <:+: ['p']) (by decide))
      (hquad hb ha (by decide : ¬ ['>', ' '] <:+: ['q']) (by decide))
  have hab : hmacCanonicalize id insertionOrder id (circle ['a'] ['b']) =
      .ok "_:b0 <p> _:b1 .\n_:b1 <q> _:b0 .\n".toList := by decide +kernel
  have hyx : hmacCanonicalize id insertionOrder ('k' :: ·) (circle ['y'] ['x']) =
      .ok "_:b0 <p> _:b1 .\n_:b1 <q> _:b0 .\n".toList := by decide +kernel
  exact hmacCanonicalize_isomorphic (hquads (by decide) (by decide)) (hquads (by decide) (by decide)) hab hyx

end

end AffinidiTdk.DataIntegrity
