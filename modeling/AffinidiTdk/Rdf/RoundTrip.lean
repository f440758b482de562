/-
Writing quads and reading them back: each reader undoes its writer in front of any text, and a
document of plain quads comes back as it was.
-/
import AffinidiTdk.Rdf.NQuads

namespace AffinidiTdk.Rdf.NQuads

open Fallible List

/-! ## Literal texts -/

theorem escapeNquads_cons (ch : Char) (s : Text) : escapeNquads (ch :: s) = escapeChar ch ++ escapeNquads s :=
  flatMap_cons ..

theorem escapeChar_cases (ch : Char) : (escapeChar ch = [ch] ∧ ch ≠ '\\' ∧ ch ≠ '"' ∧ ch ≠ '\n') ∨
    (∃ letter, escapeChar ch = ['\\', letter] ∧ letter ∉ ['u', 'U', '\n'] ∧ ∀ rest, unescapeOne (letter :: rest) =
    .ok (ch, rest)) ∨ (escapeChar ch = '\\' :: 'u' :: hex4 ch.toNat ∧ ch.toNat < 128) := by
  unfold escapeChar
  split_ifs with hb ht hn hf hr hq hs hcontrol
  · exact .inr (.inl ⟨'b', rfl, by decide, fun rest => by rw [hb]; rfl⟩)
  · exact .inr (.inl ⟨'t', rfl, by decide, fun rest => by rw [ht]; rfl⟩)
  · exact .inr (.inl ⟨'n', rfl, by decide, fun rest => by rw [hn]; rfl⟩)
  · exact .inr (.inl ⟨'f', rfl, by decide, fun rest => by rw [hf]; rfl⟩)
  · exact .inr (.inl ⟨'r', rfl, by decide, fun rest => by rw [hr]; rfl⟩)
  · exact .inr (.inl ⟨'"', rfl, by decide, fun rest => by rw [hq]; rfl⟩)
  · exact .inr (.inl ⟨'\\', rfl, by decide, fun rest => by rw [hs]; rfl⟩)
  · refine .inr (.inr ⟨rfl, ?_⟩)
    rcases hcontrol with hlow | hdel
    · have hlt : ch.toNat < 32 := hlow
      omega
    · rw [hdel]
      decide
  · exact .inl ⟨rfl, hs, hq, hn⟩

theorem fromStrRadix16_hex4 : ∀ cp < 128, fromStrRadix16 (hex4 cp) = some cp := by decide

theorem utf8Len_hex4 : ∀ cp < 128, utf8Len (hex4 cp) = 4 := by decide

theorem charFromU32_toNat (ch : Char) : charFromU32 ch.toNat = some ch := by
  have hvalid : ch.toNat.isValidChar := ch.valid
  rw [charFromU32, if_pos hvalid, Char.ofNat_toNat]

theorem unescapeU_hex4 {ch : Char} (h : ch.toNat < 128) (rest : Text) :
    unescapeU (hex4 ch.toNat ++ rest) = .ok (ch, rest) := by
  have htake : (hex4 ch.toNat ++ rest).take 4 = hex4 ch.toNat := rfl
  have hdrop : (hex4 ch.toNat ++ rest).drop 4 = rest := rfl
  have hlow : ¬(0xD800 ≤ ch.toNat ∧ ch.toNat ≤ 0xDBFF) := by omega
  simp only [unescapeU, htake, hdrop, utf8Len_hex4 _ h, fromStrRadix16_hex4 _ h, charFromU32_toNat, Option.elim_some,
    ne_eq, not_true_eq_false, if_false, pure_bind, if_neg hlow]
  rfl

theorem unescapeOne_u (rest : Text) : unescapeOne ('u' :: rest) = unescapeU rest := by simp [unescapeOne]

theorem unescapeLoop_escapeNquads (s : Text) :
    ∀ turns, (escapeNquads s).length ≤ turns → unescapeLoop turns (escapeNquads s) = .ok s := by
  induction s with
  | nil =>
    intro turns _
    cases turns <;> rfl
  | cons ch s ih =>
    intro turns hturns
    rw [escapeNquads_cons] at hturns ⊢
    rcases escapeChar_cases ch with ⟨hplain, hs, -⟩ | ⟨letter, hpair, -, hone⟩ | ⟨hcode, hlt⟩
    · rw [hplain] at hturns ⊢
      cases turns with
      | zero => simp at hturns
      | succ turns =>
        have hrest : (escapeNquads s).length ≤ turns := by simpa using hturns
        simp only [singleton_append, unescapeLoop, if_neg hs, ih turns hrest]
        rfl
    · rw [hpair] at hturns ⊢
      cases turns with
      | zero => simp at hturns
      | succ turns =>
        have hrest : (escapeNquads s).length ≤ turns := by
          simp only [cons_append, nil_append, length_cons] at hturns
          omega
        simp only [cons_append, nil_append, unescapeLoop, if_true, hone, ok_bind, ih turns hrest]
        rfl
    · rw [hcode] at hturns ⊢
      cases turns with
      | zero => simp at hturns
      | succ turns =>
        have hrest : (escapeNquads s).length ≤ turns := by
          simp only [cons_append, length_cons, length_append] at hturns
          omega
        simp only [cons_append, unescapeLoop, if_true, unescapeOne_u, unescapeU_hex4 hlt, ok_bind, ih turns hrest]
        rfl

theorem unescapeNquads_escapeNquads (s : Text) : unescapeNquads (escapeNquads s) = .ok s :=
  unescapeLoop_escapeNquads s _ le_rfl

/-! ## The scan of a literal -/

section
variable {lineNum : ℕ}

theorem rawLoop_quote (rest : Text) : rawLoop lineNum 0 ('"' :: rest) = .ok ([], rest) := by
  cases rest <;> rfl

theorem rawLoop_plain {ch : Char} (hs : ch ≠ '\\') (hq : ch ≠ '"') {rest raw left : Text}
    (h : rawLoop lineNum 0 rest = .ok (raw, left)) : rawLoop lineNum 0 (ch :: rest) = .ok (ch :: raw, left) := by
  cases rest with
  | nil => cases h
  | cons next rest =>
    rw [rawLoop, if_neg hs, if_neg hq, h]
    rfl

theorem rawLoop_verbatim {rest raw left : Text} (taken : Text) (h : rawLoop lineNum 0 rest = .ok (raw, left)) :
    rawLoop lineNum taken.length (taken ++ rest) = .ok (taken ++ raw, left) := by
  induction taken with
  | nil => exact h
  | cons ch taken ih =>
    rw [length_cons, cons_append, rawLoop, ih]
    rfl

theorem rawLoop_escapeNquads (s rest : Text) :
    rawLoop lineNum 0 (escapeNquads s ++ '"' :: rest) = .ok (escapeNquads s, rest) := by
  induction s with
  | nil => exact rawLoop_quote rest
  | cons ch s ih =>
    rw [escapeNquads_cons, append_assoc]
    rcases escapeChar_cases ch with ⟨hplain, hs, hq, -⟩ | ⟨letter, hpair, hletter, -⟩ | ⟨hcode, -⟩
    · rw [hplain]
      exact rawLoop_plain hs hq ih
    · have hu : letter ≠ 'u' := by
        rintro rfl
        exact hletter (by simp)
      have hU : letter ≠ 'U' := by
        rintro rfl
        exact hletter (by simp)
      rw [hpair, cons_append, cons_append, nil_append, rawLoop, if_pos rfl, if_neg hu, if_neg hU, ih]
      rfl
    · have hscan := rawLoop_verbatim (hex4 ch.toNat) ih
      rw [hcode, cons_append, cons_append, rawLoop, if_pos rfl, if_pos rfl]
      change rawLoop lineNum 4 _ = _ at hscan
      rw [hscan]
      rfl

end

/-! ## Terms -/

/-- A text that no character of a kind stands in. -/
def Without (stops : List Char) (text : Text) : Prop := ∀ c ∈ text, c ∉ stops

instance (stops : List Char) (text : Text) : Decidable (Without stops text) := List.decidableBAll _ _

theorem Without.ne {stops : List Char} {text : Text} (h : Without stops text) {c stop : Char} (hc : c ∈ text)
    (hstop : stop ∈ stops) : c ≠ stop := fun heq => h c hc (heq ▸ hstop)

theorem Without.mono {stops others : List Char} {text : Text} (h : Without others text) (hsub : stops ⊆ others) :
    Without stops text := fun c hc hstop => h c hc (hsub hstop)

/-- A quad whose names need no escapes: the literals may hold any text. -/
structure Plain (quad : Quad) : Prop where
  iris : ∀ iri ∈ quadIris quad, Without ['<', '>', '\\', '\n'] iri
  labels : ∀ id ∈ quadBlankNodeIds quad, id ≠ [] ∧ Without [' ', '\t', '\n', '.', '<'] id
  tags : ∀ lit ∈ quadLiterals quad, ∀ lang ∈ lit.language,
    Without [' ', '\t', '\n', '.'] lang ∧ lit.datatype = ⟨rdf.langString⟩

section
variable {lineNum : ℕ}

theorem iriLoop_plain {iri : Text} (h : Without ['>', '\\'] iri) (rest : Text) :
    ∀ turns, iri.length < turns → iriLoop lineNum turns (iri ++ '>' :: rest) = .ok (iri, rest) := by
  induction iri with
  | nil =>
    intro turns hturns
    cases turns with
    | zero => exact absurd hturns (Nat.lt_irrefl 0)
    | succ turns => rfl
  | cons ch iri ih =>
    intro turns hturns
    cases turns with
    | zero => exact absurd hturns (Nat.not_lt_zero _)
    | succ turns =>
      have hend : ch ≠ '>' := h.ne mem_cons_self (by simp)
      have hescape : ch ≠ '\\' := h.ne mem_cons_self (by simp)
      have htail : Without ['>', '\\'] iri := fun c hc => h c (mem_cons_of_mem ch hc)
      rw [cons_append, iriLoop, if_neg hend, if_neg hescape, ih htail turns (Nat.lt_of_succ_lt_succ hturns)]
      rfl

theorem parseIri_writeIri {iri : Text} (h : Without ['>', '\\'] iri) (rest : Text) :
    parseIri lineNum (writeIri iri ++ rest) = .ok (⟨iri⟩, rest) := by
  have hturns : iri.length < (iri ++ '>' :: rest).length + 1 := by
    rw [length_append]
    omega
  have hloop : iriLoop lineNum _ (iri ++ '>' :: rest) = .ok (iri, rest) := iriLoop_plain h rest _ hturns
  rw [writeIri, append_assoc, cons_append, singleton_append, parseIri, expectChar, if_pos rfl]
  change (iriLoop lineNum _ _ >>= _) = _
  rw [hloop]
  rfl

theorem parseBlankNode_writeBlank {id : Text} (hne : id ≠ []) (h : Without [' ', '\t', '.', '<'] id) (rest : Text) :
    parseBlankNode lineNum (writeBlank id ++ ' ' :: rest) = .ok (⟨id⟩, ' ' :: rest) := by
  have hlabel : ∀ ch ∈ id, (!(ch = ' ' || ch = '\t' || ch = '.' || ch = '<')) = true := by
    intro ch hch
    have hstops := h ch hch
    simp only [mem_cons, not_mem_nil, or_false, not_or] at hstops
    simp [hstops]
  simp only [writeBlank, cons_append, parseBlankNode, expectChar, if_true, pure_bind,
    takeWhile_append_of_pos hlabel, dropWhile_append_of_pos hlabel]
  simp [hne]
  rfl

theorem parseLiteral_writeLiteral {lit : Literal} (hiri : Without ['>', '\\'] lit.datatype.iri)
    (htag : ∀ lang ∈ lit.language, Without [' ', '\t', '.'] lang ∧ lit.datatype = ⟨rdf.langString⟩) (rest : Text) :
    parseLiteral lineNum (writeLiteral lit ++ ' ' :: rest) = .ok (lit, ' ' :: rest) := by
  obtain ⟨value, ⟨iri⟩, language⟩ := lit
  rw [writeLiteral, append_assoc, cons_append, cons_append, parseLiteral, expectChar, if_pos rfl]
  change (rawLoop lineNum 0 _ >>= _) = _
  rw [rawLoop_escapeNquads, Fallible.ok_bind]
  dsimp only
  rw [unescapeNquads_escapeNquads, Fallible.mapError_ok, Fallible.ok_bind]
  cases language with
  | some lang =>
    obtain ⟨hlang, hdatatype⟩ := htag lang rfl
    have hin : ∀ ch ∈ lang, (!(ch = ' ' || ch = '\t' || ch = '.')) = true := by
      intro ch hch
      have hstops := hlang ch hch
      simp only [mem_cons, not_mem_nil, or_false, not_or] at hstops
      simp [hstops]
    obtain rfl : iri = rdf.langString := congrArg NamedNode.iri hdatatype
    simp only [cons_append, head?_cons, if_true, tail_cons, takeWhile_append_of_pos hin,
      dropWhile_append_of_pos hin]
    simp [Literal.lang]
    rfl
  | none =>
    by_cases hstring : iri = xsd.string
    · rw [if_neg (not_not_intro hstring), hstring]
      rfl
    · rw [if_pos hstring, cons_append, cons_append]
      change (parseIri lineNum (writeIri iri ++ ' ' :: rest) >>= _) = _
      rw [parseIri_writeIri hiri]
      rfl

/-! ## Lines -/

variable {quad : Quad}

section

variable (h : Plain quad)
include h

theorem Plain.iri {iri : Text} (hiri : iri ∈ quadIris quad) : Without ['>', '\\'] iri :=
  (h.iris iri hiri).mono (by simp)

theorem Plain.label {id : Text} (hid : id ∈ quadBlankNodeIds quad) : id ≠ [] ∧ Without [' ', '\t', '.', '<'] id :=
  ⟨(h.labels id hid).1, (h.labels id hid).2.mono (by simp)⟩

theorem Plain.tag {lit : Literal} (hlit : lit ∈ quadLiterals quad) : ∀ lang ∈ lit.language,
    Without [' ', '\t', '.'] lang ∧ lit.datatype = ⟨rdf.langString⟩ :=
  fun lang hlang => ⟨(h.tags lit hlit lang hlang).1.mono (by simp), (h.tags lit hlit lang hlang).2⟩

theorem parseSubject_writeSubject (rest : Text) : parseSubject lineNum (writeSubject quad.subject ++ ' ' :: rest) =
    .ok (quad.subject, ' ' :: rest) := by
  cases hsubject : quad.subject with
  | named n =>
    have hiri : Without ['>', '\\'] n.iri := h.iri (by simp [quadIris, hsubject])
    change (parseIri lineNum (writeIri n.iri ++ ' ' :: rest) >>= _) = _
    rw [parseIri_writeIri hiri]
    rfl
  | blank b =>
    obtain ⟨hne, hlabel⟩ := h.label (show b.id ∈ quadBlankNodeIds quad by simp [quadBlankNodeIds, hsubject])
    change (parseBlankNode lineNum (writeBlank b.id ++ ' ' :: rest) >>= _) = _
    rw [parseBlankNode_writeBlank hne hlabel]
    rfl

theorem parseObject_writeObject (rest : Text) : parseObject lineNum (writeObject quad.object ++ ' ' :: rest) =
    .ok (quad.object, ' ' :: rest) := by
  cases hobject : quad.object with
  | named n =>
    have hiri : Without ['>', '\\'] n.iri := h.iri (by simp [quadIris, hobject])
    change (parseIri lineNum (writeIri n.iri ++ ' ' :: rest) >>= _) = _
    rw [parseIri_writeIri hiri]
    rfl
  | blank b =>
    obtain ⟨hne, hlabel⟩ := h.label (show b.id ∈ quadBlankNodeIds quad by simp [quadBlankNodeIds, hobject])
    change (parseBlankNode lineNum (writeBlank b.id ++ ' ' :: rest) >>= _) = _
    rw [parseBlankNode_writeBlank hne hlabel]
    rfl
  | literal lit =>
    have hiri : Without ['>', '\\'] lit.datatype.iri := h.iri (by simp [quadIris, hobject])
    have htag := h.tag (show lit ∈ quadLiterals quad by simp [quadLiterals, hobject])
    change (parseLiteral lineNum (writeLiteral lit ++ ' ' :: rest) >>= _) = _
    rw [parseLiteral_writeLiteral hiri htag]
    rfl

theorem parseOptionalGraph_writeGraph : parseOptionalGraph lineNum (writeGraph quad.graph ++ ['.']) =
    .ok (quad.graph, ['.']) := by
  cases hgraph : quad.graph with
  | named n =>
    have hiri : Without ['>', '\\'] n.iri := h.iri (by simp [quadIris, hgraph])
    rw [writeGraph, append_assoc]
    change ((parseIri lineNum (writeIri n.iri ++ [' ', '.']) >>= _) >>= _) = _
    rw [parseIri_writeIri hiri]
    rfl
  | blank b =>
    obtain ⟨hne, hlabel⟩ := h.label (show b.id ∈ quadBlankNodeIds quad by simp [quadBlankNodeIds, hgraph])
    rw [writeGraph, append_assoc]
    change ((parseBlankNode lineNum (writeBlank b.id ++ ' ' :: ['.']) >>= _) >>= _) = _
    rw [parseBlankNode_writeBlank hne hlabel]
    rfl
  | default => rfl

end

theorem skipWhitespace_blank {rest : Text} (h : rest.head? ≠ some ' ') (h' : rest.head? ≠ some '\t') :
    skipWhitespace (' ' :: rest) = rest := by
  cases rest with
  | nil => rfl
  | cons ch rest =>
    have hch : ch ≠ ' ' ∧ ch ≠ '\t' := by simpa using And.intro h h'
    simp [skipWhitespace, hch]

theorem head?_writeObject (object : Object) (rest : Text) :
    (writeObject object ++ rest).head? ∈ [some '<', some '_', some '"'] := by
  cases object <;> simp [writeObject, writeIri, writeBlank, writeLiteral]

theorem head?_writeGraph (graph : GraphLabel) :
    (writeGraph graph ++ ['.']).head? ∈ [some '<', some '_', some '.'] := by
  cases graph <;> simp [writeGraph, writeIri, writeBlank]

theorem parseLine_serializeQuad (h : Plain quad) : parseLine lineNum (serializeQuad quad) = .ok quad := by
  have hpredicate : Without ['>', '\\'] quad.predicate.iri := h.iri (by simp [quadIris])
  have hobject := head?_writeObject quad.object (' ' :: (writeGraph quad.graph ++ ['.']))
  have hgraph := head?_writeGraph quad.graph
  have hskip₁ (rest : Text) : skipWhitespace (' ' :: (writeIri quad.predicate.iri ++ rest)) =
      writeIri quad.predicate.iri ++ rest := skipWhitespace_blank (by simp [writeIri]) (by simp [writeIri])
  have hskip₂ : skipWhitespace (' ' :: (writeObject quad.object ++ ' ' :: (writeGraph quad.graph ++ ['.']))) =
      writeObject quad.object ++ ' ' :: (writeGraph quad.graph ++ ['.']) :=
    skipWhitespace_blank (fun heq => by simp [heq] at hobject) (fun heq => by simp [heq] at hobject)
  have hskip₃ : skipWhitespace (' ' :: (writeGraph quad.graph ++ ['.'])) = writeGraph quad.graph ++ ['.'] :=
    skipWhitespace_blank (fun heq => by simp [heq] at hgraph) (fun heq => by simp [heq] at hgraph)
  have hline : serializeQuad quad = writeSubject quad.subject ++ ' ' :: (writeIri quad.predicate.iri ++
      ' ' :: (writeObject quad.object ++ ' ' :: (writeGraph quad.graph ++ ['.']))) := by
    simp only [serializeQuad, append_assoc, cons_append]
  rw [hline, parseLine, parseSubject_writeSubject h, ok_bind]
  dsimp only
  rw [hskip₁, parseIri_writeIri hpredicate, ok_bind]
  dsimp only
  rw [hskip₂, parseObject_writeObject h, ok_bind]
  dsimp only
  rw [hskip₃, parseOptionalGraph_writeGraph h]
  rfl

end

/-! ## Line feeds -/

theorem hexUpper_ne_feed : ∀ n < 16, hexUpper n ≠ '\n' := by decide

theorem feed_not_mem_hex4 (cp : ℕ) : '\n' ∉ hex4 cp := by
  intro hmem
  simp only [hex4, mem_cons, not_mem_nil, or_false] at hmem
  rcases hmem with h | h | h | h <;> exact hexUpper_ne_feed _ (Nat.mod_lt _ (by decide)) h.symm

theorem feed_not_mem_escapeNquads (s : Text) : '\n' ∉ escapeNquads s := by
  intro hmem
  obtain ⟨ch, -, hch⟩ := mem_flatMap.1 hmem
  rcases escapeChar_cases ch with ⟨hplain, -, -, hn⟩ | ⟨letter, hpair, hletter, -⟩ | ⟨hcode, -⟩
  · rw [hplain, mem_singleton] at hch
    exact hn hch.symm
  · rw [hpair, mem_cons, mem_singleton] at hch
    rcases hch with hs | rfl
    · exact absurd hs (by decide)
    · exact hletter (by simp)
  · rw [hcode, mem_cons, mem_cons] at hch
    rcases hch with hs | hu | hhex
    · exact absurd hs (by decide)
    · exact absurd hu (by decide)
    · exact feed_not_mem_hex4 _ hhex

theorem feed_not_mem_writeIri {iri : Text} (h : '\n' ∉ iri) : '\n' ∉ writeIri iri := by
  simp [writeIri, h]

theorem feed_not_mem_writeBlank {id : Text} (h : '\n' ∉ id) : '\n' ∉ writeBlank id := by
  simp [writeBlank, h]

theorem feed_not_mem_serializeQuad {quad : Quad} (h : Plain quad) : '\n' ∉ serializeQuad quad := by
  have hiri {iri : Text} (hmem : iri ∈ quadIris quad) : '\n' ∉ writeIri iri :=
    feed_not_mem_writeIri fun hn => h.iris iri hmem _ hn (by simp)
  have hlabel {id : Text} (hmem : id ∈ quadBlankNodeIds quad) : '\n' ∉ writeBlank id :=
    feed_not_mem_writeBlank fun hn => (h.labels id hmem).2 _ hn (by simp)
  have hsubject : '\n' ∉ writeSubject quad.subject := by
    cases heq : quad.subject with
    | named n => exact hiri (by simp [quadIris, heq])
    | blank b => exact hlabel (by simp [quadBlankNodeIds, heq])
  have hobject : '\n' ∉ writeObject quad.object := by
    cases heq : quad.object with
    | named n => exact hiri (by simp [quadIris, heq])
    | blank b => exact hlabel (by simp [quadBlankNodeIds, heq])
    | literal lit =>
      have hdatatype : '\n' ∉ writeIri lit.datatype.iri := hiri (by simp [quadIris, heq])
      have hvalue := feed_not_mem_escapeNquads lit.value
      cases htag : lit.language with
      | none =>
        simp only [writeObject, writeLiteral, htag]
        split_ifs <;> simp [hvalue, hdatatype]
      | some lang =>
        have hlang : '\n' ∉ lang := fun hn =>
          (h.tags lit (by simp [quadLiterals, heq]) lang htag).1 _ hn (by simp)
        simp [writeObject, writeLiteral, htag, hvalue, hlang]
  have hgraph : '\n' ∉ writeGraph quad.graph := by
    cases heq : quad.graph with
    | named n => simp [writeGraph, hiri (show n.iri ∈ quadIris quad by simp [quadIris, heq])]
    | blank b => simp [writeGraph, hlabel (show b.id ∈ quadBlankNodeIds quad by simp [quadBlankNodeIds, heq])]
    | default => simp [writeGraph]
  have hpredicate : '\n' ∉ writeIri quad.predicate.iri := hiri (by simp [quadIris])
  simp [serializeQuad, hsubject, hpredicate, hobject, hgraph]

/-! ## Documents -/

theorem lines_append {line : Text} (hfeed : '\n' ∉ line) (hend : line.getLast? ≠ some '\r') (rest : Text) :
    lines (line ++ '\n' :: rest) = line :: lines rest := by
  induction line with
  | nil => rfl
  | cons ch line ih =>
    obtain ⟨hch, htail⟩ := not_or.1 (fun hor => hfeed (mem_cons.2 hor))
    have hbreak : ∀ more, ch = '\r' → line ++ '\n' :: rest ≠ '\n' :: more := by
      rintro more rfl heq
      cases line with
      | nil => exact hend rfl
      | cons next line => exact htail (mem_cons.2 (.inl (cons.inj heq).1.symm))
    have hlast : line.getLast? ≠ some '\r' := by
      cases line with
      | nil => simp
      | cons next line => rwa [getLast?_cons_cons] at hend
    rw [cons_append, lines, ih htail hlast]
    · exact fun more hr heq => hbreak more hr heq
    · exact fun hn => hch hn.symm

theorem head_serializeQuad (quad : Quad) : ∃ ch rest, serializeQuad quad = ch :: rest ∧ (ch = '<' ∨ ch = '_') := by
  cases hsubject : quad.subject with
  | named n => exact ⟨'<', _, by rw [serializeQuad, hsubject]; rfl, .inl rfl⟩
  | blank b => exact ⟨'_', _, by rw [serializeQuad, hsubject]; rfl, .inr rfl⟩

theorem trim_serializeQuad (quad : Quad) : trim (serializeQuad quad) = serializeQuad quad := by
  obtain ⟨ch, rest, hline, hch⟩ := head_serializeQuad quad
  have hhead : isWhitespace ch = false := by
    rcases hch with rfl | rfl <;> decide
  obtain ⟨body, hbody⟩ : ∃ body, serializeQuad quad = body ++ ['.'] := ⟨_, rfl⟩
  have hdrop : (serializeQuad quad).dropWhile isWhitespace = serializeQuad quad := by
    rw [hline, dropWhile_cons_of_neg (by rw [hhead]; exact Bool.false_ne_true)]
  rw [trim, hdrop, hbody, reverse_append, reverse_singleton, singleton_append,
    dropWhile_cons_of_neg (by decide), reverse_cons, reverse_reverse]

theorem parseLines_serializeDataset (quads : List Quad) (h : ∀ quad ∈ quads, Plain quad) :
    ∀ start, parseLines ((lines (serializeDataset quads)).zipIdx start) = .ok quads := by
  induction quads with
  | nil => exact fun start => rfl
  | cons quad quads ih =>
    intro start
    obtain ⟨ch, rest, hline, hch⟩ := head_serializeQuad quad
    have hquad : Plain quad := h quad mem_cons_self
    have hlast : (serializeQuad quad).getLast? ≠ some '\r' := by
      rw [serializeQuad, getLast?_append]
      simp
    have hskipped : ¬(serializeQuad quad = [] ∨ (serializeQuad quad).head? = some '#') := by
      rw [hline]
      rcases hch with rfl | rfl <;> simp
    have hlines : lines (serializeDataset (quad :: quads)) =
      serializeQuad quad :: lines (serializeDataset quads) := by
      rw [serializeDataset, flatMap_cons, append_assoc, singleton_append]
      exact lines_append (feed_not_mem_serializeQuad hquad) hlast _
    rw [hlines, zipIdx_cons, parseLines, trim_serializeQuad, if_neg hskipped, parseLine_serializeQuad hquad,
      ok_bind, ih (fun other hother => h other (mem_cons_of_mem quad hother))]
    rfl

/-- **Round trip**: a dataset of plain quads is read back as it was written, quad by quad, whatever
texts its literals hold. -/
theorem parse_serializeDataset (dataset : Dataset) (h : ∀ quad ∈ dataset.quads, Plain quad) :
    parse (serializeDataset dataset.quads) = .ok dataset := by
  rw [parse, parseLines_serializeDataset dataset.quads h]
  rfl

/-- A literal with a quote, a backslash, a line feed and a control character in a named graph. -/
theorem parse_serializeDataset_note :
    parse (serializeDataset [⟨.blank ⟨['b']⟩, ⟨['p']⟩, .literal (.new ['"', '\\', '\n', '\x01', '.']),
      .named ⟨['g']⟩⟩]) =
    .ok ⟨[⟨.blank ⟨['b']⟩, ⟨['p']⟩, .literal (.new ['"', '\\', '\n', '\x01', '.']), .named ⟨['g']⟩⟩]⟩ :=
  parse_serializeDataset ⟨_⟩ fun quad hquad => by
    obtain rfl := mem_singleton.1 hquad
    exact ⟨by decide, by decide, by decide⟩

end AffinidiTdk.Rdf.NQuads
