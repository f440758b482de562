/-
Which texts `DID::from_str` accepts, and when the text of a DID reads back as that DID.
-/
import AffinidiTdk.Did.Grammar
import AffinidiTdk.Lib.Text

namespace AffinidiTdk.Did

open Fallible List Option Grammar Language DID
open Abnf Computability

/-! ## Splitting -/

/-- The end of a component: the text is over, or goes on with a character of the pattern. -/
def StartsWith (pattern : Char → Bool) (s : Text) : Prop := ∀ c ∈ s.head?, pattern c = true

variable {pattern : Char → Bool} {rest : Text}

theorem cut_append {first : Text} (hfirst : ∀ c ∈ first, pattern c = false) (hrest : StartsWith pattern rest) :
    cut (first ++ rest) pattern = (first, rest) := by
  have hstop : (find (first ++ rest) pattern).getD (first ++ rest).length = first.length := by
    rw [find, List.findIdx?_append, List.findIdx?_eq_none_iff.2 hfirst]
    cases rest with
    | nil => simp
    | cons c rest =>
      have hc : pattern c = true := hrest c rfl
      simp [List.findIdx?_cons, hc]
  unfold cut
  simp only [hstop, take_left, drop_left]

theorem exists_cut (pattern : Char → Bool) (s : Text) :
    ∃ first rest, s = first ++ rest ∧ (∀ c ∈ first, pattern c = false) ∧ StartsWith pattern rest := by
  induction s with
  | nil => exact ⟨[], [], rfl, forall_mem_nil _, fun _ hc => nomatch hc⟩
  | cons c s ih =>
    by_cases hc : pattern c = true
    · refine ⟨[], c :: s, rfl, forall_mem_nil _, fun d hd => ?_⟩
      rw [← some.inj hd, hc]
    · obtain ⟨first, rest, rfl, hfirst, hrest⟩ := ih
      exact ⟨c :: first, rest, rfl, forall_mem_cons.2 ⟨Bool.eq_false_iff.2 hc, hfirst⟩, hrest⟩

/-- The characters that end a method-specific identifier. -/
def isDelimiter (c : Char) : Bool := c == '/' || c == '?' || c == '#'

theorem idEnd_append {first : Text} (hfirst : ∀ c ∈ first, isDelimiter c = false)
    (hrest : StartsWith isDelimiter rest) : idEnd (first ++ rest) = first.length := by
  have hnone : ∀ d, isDelimiter d = true → ∀ c ∈ first, (c == d) = false := by
    intro d hd c hc
    refine Bool.eq_false_iff.2 fun heq => ?_
    have hdelimiter := hfirst c hc
    rw [beq_iff_eq.1 heq, hd] at hdelimiter
    cases hdelimiter
  have hfind : ∀ d, isDelimiter d = true →
      find (first ++ rest) (· == d) = (rest.findIdx? (· == d)).map (· + first.length) := by
    intro d hd
    rw [find, List.findIdx?_append, List.findIdx?_eq_none_iff.2 (hnone d hd), none_or]
  unfold idEnd
  cases rest with
  | nil =>
    rw [hfind _ rfl, hfind _ rfl, hfind _ rfl, append_nil]
    rfl
  | cons c rest =>
    have hat : find (first ++ c :: rest) (· == c) = some first.length := by
      rw [hfind c (hrest c rfl), List.findIdx?_cons, beq_self_eq_true, if_pos rfl, map_some, Nat.zero_add]
    have hle : ∀ d stop, isDelimiter d = true → find (first ++ c :: rest) (· == d) = some stop → first.length ≤
      stop := by
      intro d stop hd hstop
      rw [hfind d hd] at hstop
      obtain ⟨i, -, rfl⟩ := map_eq_some_iff.1 hstop
      exact Nat.le_add_left _ _
    refine getD_eq_iff.2 (.inl (List.min?_eq_some_iff.2 ⟨?_, ?_⟩))
    · have hc : isDelimiter c = true := hrest c rfl
      simp only [isDelimiter, Bool.or_eq_true, beq_iff_eq] at hc
      refine mem_filterMap.2 ⟨some first.length, ?_, rfl⟩
      rcases hc with (rfl | rfl) | rfl
      · rw [hat]; exact mem_cons_self
      · rw [hat]; exact mem_cons_of_mem _ mem_cons_self
      · rw [hat]; exact mem_cons_of_mem _ (mem_cons_of_mem _ mem_cons_self)
    · intro stop hstop
      obtain ⟨found, hfound, hid⟩ := mem_filterMap.1 hstop
      obtain rfl : found = some stop := hid
      simp only [mem_cons, not_mem_nil, or_false] at hfound
      rcases hfound with h | h | h
      · exact hle '/' stop rfl h.symm
      · exact hle '?' stop rfl h.symm
      · exact hle '#' stop rfl h.symm

/-! ## Components -/

/-- The text behind a method name. -/
def didTail (id : Text) (path query fragment : Option Text) : Text :=
  id ++ (component '/' path ++ (component '?' query ++ component '#' fragment))

/-- Components in which no separator comes before its place. -/
structure Separated (id : Text) (path query : Option Text) : Prop where
  id_plain : ∀ c ∈ id, isDelimiter c = false
  path_plain : ∀ text ∈ path, ∀ c ∈ text, (c == '?' || c == '#') = false
  query_plain : ∀ text ∈ query, ∀ c ∈ text, (c == '#') = false

theorem component_none (sep : Char) : component sep none = [] := rfl

theorem component_some (sep : Char) (text : Text) : component sep (some text) = sep :: text := rfl

theorem startsWith_component {sep : Char} (text : Option Text) (hsep : pattern sep = true)
    (hrest : StartsWith pattern rest) : StartsWith pattern (component sep text ++ rest) := by
  cases text with
  | none => exact hrest
  | some text => exact fun c hc => some.inj hc ▸ hsep

theorem startsWith_fragment (text : Option Text) (hsep : pattern '#' = true) :
    StartsWith pattern (component '#' text) := by
  cases text with
  | none => exact fun _ hc => nomatch hc
  | some text => exact fun c hc => some.inj hc ▸ hsep

theorem stripPrefix_cons (sep : Char) (s : Text) : stripPrefix [sep] (sep :: s) = some s :=
    stripPrefix_eq_some_iff.2 rfl

variable {s : Text}

theorem stripPrefix_singleton_eq_none {sep : Char} (h : ∀ c ∈ s.head?, c ≠ sep) : stripPrefix [sep] s = none := by
  rw [eq_none_iff_forall_ne_some]
  intro rest hrest
  rw [stripPrefix_eq_some_iff.1 hrest] at h
  exact h sep rfl rfl

theorem fragmentOf_component (fragment : Option Text) : fragmentOf (component '#' fragment) =
    fragment.bind noneIfEmpty := by
  unfold fragmentOf
  cases fragment with
  | none => rfl
  | some text => rw [component, stripPrefix_cons]; rfl

theorem queryFragmentOf_cons (s : Text) :
    queryFragmentOf ('?' :: s) = (noneIfEmpty (cut s (· == '#')).1, fragmentOf (cut s (· == '#')).2) := by
  rw [queryFragmentOf, stripPrefix_cons]

theorem queryFragmentOf_of_ne (h : ∀ c ∈ s.head?, c ≠ '?') : queryFragmentOf s = (none, fragmentOf s) := by
  rw [queryFragmentOf, stripPrefix_singleton_eq_none h]

theorem queryFragmentOf_component {query : Option Text} (fragment : Option Text)
    (hquery : ∀ text ∈ query, ∀ c ∈ text, (c == '#') = false) :
    queryFragmentOf (component '?' query ++ component '#' fragment) =
      (query.bind noneIfEmpty, fragment.bind noneIfEmpty) := by
  cases query with
  | none =>
    have hsharp : StartsWith (· == '#') (component '#' fragment) := startsWith_fragment fragment rfl
    rw [component, nil_append, queryFragmentOf_of_ne, fragmentOf_component]
    · rfl
    · intro c hc
      rw [beq_iff_eq.1 (hsharp c hc)]
      decide
  | some text =>
    rw [component, cons_append, queryFragmentOf_cons,
      cut_append (hquery text rfl) (startsWith_fragment fragment rfl), fragmentOf_component]
    rfl

variable {id : Text}

theorem splitComponents_didTail {path query : Option Text} (h : Separated id path query) (fragment : Option Text) :
    splitComponents (didTail id path query fragment) =
    ⟨id, path.bind noneIfEmpty, query.bind noneIfEmpty, fragment.bind noneIfEmpty⟩ := by
  have htail : StartsWith isDelimiter (component '/' path ++ (component '?' query ++ component '#' fragment)) :=
    startsWith_component path rfl (startsWith_component query rfl (startsWith_fragment fragment rfl))
  have hnext : StartsWith (fun c => c == '?' || c == '#') (component '?' query ++ component '#' fragment) :=
    startsWith_component query rfl (startsWith_fragment fragment rfl)
  unfold splitComponents didTail
  rw [idEnd_append h.id_plain htail, take_left, drop_left]
  cases path with
  | none =>
    have hnone : stripPrefix ['/'] (component '?' query ++ component '#' fragment) = none := by
      refine stripPrefix_singleton_eq_none fun c hc => ?_
      rintro rfl
      exact absurd (hnext '/' hc) (by decide)
    simp only [component_none, nil_append, hnone, queryFragmentOf_component fragment h.query_plain]
    rfl
  | some text =>
    simp only [component_some, cons_append, stripPrefix_cons, cut_append (h.path_plain text rfl) hnext,
      queryFragmentOf_component fragment h.query_plain]
    rfl

theorem exists_didTail (s : Text) : ∃ id path query fragment, Separated id path query ∧ s =
    didTail id path query fragment := by
  have hfragment : ∀ rest : Text, StartsWith (· == '#') rest → ∃ fragment, rest = component '#' fragment := by
    intro rest hrest
    cases rest with
    | nil => exact ⟨none, rfl⟩
    | cons c rest => exact ⟨some rest, by rw [beq_iff_eq.1 (hrest c rfl)]; rfl⟩
  have hquery : ∀ rest : Text, StartsWith (fun c => c == '?' || c == '#') rest → ∃ query fragment,
      rest = component '?' query ++ component '#' fragment ∧ ∀ text ∈ query, ∀ c ∈ text, (c == '#') = false := by
    intro rest hrest
    cases rest with
    | nil => exact ⟨none, none, rfl, fun _ h => nomatch h⟩
    | cons c rest =>
      by_cases hc : c = '?'
      · obtain ⟨text, after, rfl, htext, hafter⟩ := exists_cut (· == '#') rest
        obtain ⟨fragment, rfl⟩ := hfragment after hafter
        refine ⟨some text, fragment, by rw [hc]; rfl, fun other h => ?_⟩
        rw [← some.inj h]
        exact htext
      · have hsharp : c = '#' := by
          have hstart := hrest c rfl
          rw [Bool.or_eq_true, beq_iff_eq, beq_iff_eq] at hstart
          exact hstart.resolve_left hc
        exact ⟨none, some rest, by rw [hsharp]; rfl, fun _ h => nomatch h⟩
  obtain ⟨id, tail, rfl, hid, htail⟩ := exists_cut isDelimiter s
  by_cases hslash : ∃ after, tail = '/' :: after
  · obtain ⟨after, rfl⟩ := hslash
    obtain ⟨text, rest, rfl, htext, hrest⟩ := exists_cut (fun c => c == '?' || c == '#') after
    obtain ⟨query, fragment, rfl, hplain⟩ := hquery rest hrest
    refine ⟨id, some text, query, fragment, ⟨hid, fun other h => ?_, hplain⟩, rfl⟩
    rw [← some.inj h]
    exact htext
  · have hnext : StartsWith (fun c => c == '?' || c == '#') tail := by
      cases tail with
      | nil => exact fun _ h => nomatch h
      | cons c after =>
        intro d hd
        rw [← some.inj hd]
        have hc := htail c rfl
        simp only [isDelimiter, Bool.or_eq_true, beq_iff_eq] at hc ⊢
        rcases hc with (rfl | hc) | hc
        · exact absurd ⟨after, rfl⟩ hslash
        · exact .inl hc
        · exact .inr hc
    obtain ⟨query, fragment, rfl, hplain⟩ := hquery tail hnext
    exact ⟨id, none, query, fragment, ⟨hid, (fun _ h => nomatch h), hplain⟩, rfl⟩

/-! ## Accepted texts -/

/-- The parts of a DID URL pass the checks of the parser. -/
structure WellFormed (id : Text) (path query fragment : Option Text) : Prop where
  id_ok : validateIdentifierFormat id = .ok ()
  path_ok : ∀ text ∈ path, validatePath text = .ok ()
  query_ok : ∀ text ∈ query, validateQuery text = .ok ()
  fragment_ok : ∀ text ∈ fragment, validateFragment text = .ok ()

theorem plain_of_encoded {allowed bad : Char → Bool} (hs : s ∈ encoded allowed)
    (hbad : ∀ c, bad c = true → (allowed c || c == '%' || isHexDigit c) = false) : ∀ c ∈ s, bad c = false := by
  intro c hc
  refine Bool.eq_false_iff.2 fun hcbad => ?_
  have hnot := hbad c hcbad
  rw [Bool.or_eq_false_iff, Bool.or_eq_false_iff, beq_eq_false_iff_ne] at hnot
  rcases of_mem_encoded hs hc with h | h | h
  · rw [hnot.1.1] at h
    cases h
  · exact hnot.1.2 h
  · rw [hnot.2] at h
    cases h

theorem WellFormed.separated {path query fragment : Option Text} (h : WellFormed id path query fragment) :
    Separated id path query := by
  refine ⟨?_, fun text htext => ?_, fun text htext => ?_⟩
  · have hid := h.id_ok
    unfold validateIdentifierFormat at hid
    rw [guard_eq_ok_iff, guard_eq_ok_iff, mapError_eq_ok_iff, validateSequence_eq_ok_iff (by decide)] at hid
    refine plain_of_encoded hid.2.2 fun c hc => ?_
    simp only [isDelimiter, Bool.or_eq_true, beq_iff_eq] at hc
    rcases hc with (rfl | rfl) | rfl <;> decide
  · have hparts := validatePath_eq_ok_iff.1 (h.path_ok text htext)
    rw [pathAbempty, pchar_kstar_eq, cons_mem_kstar_iff fun part hpart hmem =>
      absurd (of_mem_encoded hpart hmem) (by decide)] at hparts
    intro c hc
    have hjoin : ['/'].intercalate (text.splitOn '/') = text := intercalate_splitOn '/'
    rw [← hjoin] at hc
    rcases Text.mem_intercalate hc with rfl | ⟨part, hpart, hc⟩
    · decide
    · have hplain : ∀ d ∈ part, (d == '?' || d == '#') = false := plain_of_encoded (hparts part hpart) fun d hd => by
        rw [Bool.or_eq_true, beq_iff_eq, beq_iff_eq] at hd
        rcases hd with rfl | rfl <;> decide
      exact hplain c hc
  · have hquery := validateQuery_eq_ok_iff.1 (h.query_ok text htext)
    rw [query_eq] at hquery
    refine plain_of_encoded hquery fun c hc => ?_
    rw [beq_iff_eq.1 hc]
    decide

theorem validateOption_noneIfEmpty {validate : Text → Except DIDError Unit} (hnil : validate [] = .ok ())
    (text : Option Text) :
    validateOption validate (text.bind noneIfEmpty) = .ok () ↔ ∀ t ∈ text, validate t = .ok () := by
  cases text with
  | none => exact iff_of_true rfl fun _ h => nomatch h
  | some text =>
    cases text with
    | nil => exact iff_of_true rfl fun t ht => some.inj ht ▸ hnil
    | cons c text =>
      show validate (c :: text) = .ok () ↔ _
      exact ⟨fun h t ht => some.inj ht ▸ h, fun h => h _ rfl⟩

/-- The parts of a printed DID URL are read back. -/
theorem parseDidUrlComponents_didTail {path query : Option Text} (h : Separated id path query)
    (fragment : Option Text) (components : DIDUrlComponents) :
    parseDidUrlComponents (didTail id path query fragment) = .ok components ↔
    (∀ text ∈ path, validatePath text = .ok ()) ∧ (∀ text ∈ query, validateQuery text = .ok ()) ∧
    (∀ text ∈ fragment, validateFragment text = .ok ()) ∧ components =
    ⟨id, path.bind noneIfEmpty, query.bind noneIfEmpty, fragment.bind noneIfEmpty⟩ := by
  unfold parseDidUrlComponents
  rw [splitComponents_didTail h fragment]
  simp only [unit_bind_eq_ok_iff, pure_eq_ok_iff]
  rw [validateOption_noneIfEmpty rfl, validateOption_noneIfEmpty rfl, validateOption_noneIfEmpty rfl, eq_comm]

/-! ## Methods -/

section Parse

variable {Url : Type} (crates : Decoders Url)

/-- The methods with a parser of their own. -/
def parsedMethods : List Text :=
  ["key", "peer", "web", "jwk", "ethr", "pkh", "webvh", "cheqd", "scid", "ebsi"].map String.toList

theorem keys_parsers : (parsers crates).map Prod.fst = parsedMethods := rfl

variable {crates}

variable {identifier : Text} {method : DIDMethod}

theorem parsePeer_eq_ok (h : parsePeer crates identifier = .ok method) : ∃ numalgo, method =
    .peer identifier numalgo := by
  cases identifier with
  | nil => cases h
  | cons firstChar rest =>
    cases hnumalgo : PeerNumAlgo.fromChar firstChar with
    | none =>
      simp only [parsePeer, hnumalgo] at h
      cases h
    | some numalgo =>
      simp only [parsePeer, hnumalgo] at h
      refine ⟨numalgo, ?_⟩
      cases numalgo with
      | inceptionKey => exact (pure_eq_ok_iff.1 (unit_bind_eq_ok_iff.1 h).2).symm
      | genesisDoc => cases h
      | multipleKeys => exact (pure_eq_ok_iff.1 (unit_bind_eq_ok_iff.1 h).2).symm

variable {name : Text}

theorem parser_keeps {parser : Text → Except DIDError DIDMethod} (hmem : (name, parser) ∈ parsers crates)
    (h : parser identifier = .ok method) : method.name = name ∧ method.identifier = identifier := by
  simp only [parsers, mem_cons, Prod.mk.injEq, not_mem_nil, or_false] at hmem
  rcases hmem with ⟨rfl, rfl⟩ | ⟨rfl, rfl⟩ | ⟨rfl, rfl⟩ | ⟨rfl, rfl⟩ | ⟨rfl, rfl⟩ | ⟨rfl, rfl⟩ | ⟨rfl, rfl⟩ |
    ⟨rfl, rfl⟩ |
    ⟨rfl, rfl⟩ | ⟨rfl, rfl⟩
  · unfold parseKey at h
    obtain ⟨⟨codecValue, keyBytes⟩, -, h⟩ := bind_eq_ok_iff.1 h
    obtain ⟨-, h⟩ := guard_eq_ok_iff.1 h
    obtain ⟨-, h⟩ := unit_bind_eq_ok_iff.1 h
    obtain rfl := pure_eq_ok_iff.1 h
    exact ⟨rfl, rfl⟩
  · obtain ⟨numalgo, rfl⟩ := parsePeer_eq_ok h
    exact ⟨rfl, rfl⟩
  · obtain rfl := pure_eq_ok_iff.1 h
    exact ⟨rfl, rfl⟩
  · obtain rfl := pure_eq_ok_iff.1 h
    exact ⟨rfl, rfl⟩
  · obtain rfl := pure_eq_ok_iff.1 h
    exact ⟨rfl, rfl⟩
  · unfold parsePkh at h
    split at h
    · obtain rfl := pure_eq_ok_iff.1 h
      exact ⟨rfl, rfl⟩
    · cases h
  · unfold parseWebvh at h
    split at h
    · obtain rfl := pure_eq_ok_iff.1 h
      exact ⟨rfl, rfl⟩
    · cases h
  · unfold parseCheqd at h
    split at h
    · obtain rfl := pure_eq_ok_iff.1 h
      exact ⟨rfl, rfl⟩
    · cases h
  · unfold parseScid at h
    split at h
    · obtain rfl := pure_eq_ok_iff.1 h
      exact ⟨rfl, rfl⟩
    · cases h
  · unfold parseEbsi at h
    obtain ⟨-, h⟩ := guard_eq_ok_iff.1 h
    obtain ⟨-, h⟩ := guard_eq_ok_iff.1 h
    obtain rfl := pure_eq_ok_iff.1 h
    exact ⟨rfl, rfl⟩

theorem parseMethod_eq_ok (h : parseMethod crates name identifier = .ok method) :
    validateIdentifierFormat identifier = .ok () ∧ method.name = name ∧ method.identifier = identifier := by
  obtain ⟨hid, h⟩ := unit_bind_eq_ok_iff.1 h
  refine ⟨hid, ?_⟩
  cases hparser : (parsers crates).lookup name with
  | none =>
    rw [hparser] at h
    obtain rfl := pure_eq_ok_iff.1 h
    exact ⟨rfl, rfl⟩
  | some parser =>
    rw [hparser] at h
    obtain ⟨before, after, hparsers, -⟩ := lookup_eq_some_iff.1 hparser
    exact parser_keeps (hparsers ▸ mem_append_right before mem_cons_self) h

theorem parseMethod_other (hname : name ∉ parsedMethods) (method : DIDMethod) :
    parseMethod crates name identifier = .ok method ↔ validateIdentifierFormat identifier = .ok () ∧ method =
    .other name identifier := by
  have hlookup : (parsers crates).lookup name = none := by
    rw [lookup_eq_none_iff]
    intro entry hentry
    refine bne_iff_ne.2 ?_
    rintro rfl
    exact hname (keys_parsers crates ▸ List.mem_map_of_mem hentry)
  unfold parseMethod
  rw [unit_bind_eq_ok_iff, hlookup]
  exact and_congr_right fun _ => pure_eq_ok_iff.trans eq_comm

/-! ## DIDs -/

/-- A method name as the parser asks for it. -/
def isMethodName (name : Text) : Bool := !name.isEmpty && name.all fun c => c.isLower || c.isDigit

theorem isMethodName_iff : isMethodName name = true ↔ name ∈ methodName := by
  have hnil : [] ∉ one Char.isLower + digit := by
    rintro (⟨_, -, h⟩ | ⟨_, -, h⟩) <;> cases h
  rw [methodName, mem_many1_iff hnil, digit, ← one_or, mem_one_kstar, isMethodName, Bool.and_eq_true,
    Bool.not_eq_true', isEmpty_eq_false_iff, and_comm]

theorem colon_not_mem (h : isMethodName name = true) : ':' ∉ name := by
  intro hmem
  rw [isMethodName, Bool.and_eq_true] at h
  exact absurd (List.all_eq_true.1 h.2 ':' hmem) (by decide)

theorem splitOnce_append_of (h : isMethodName name = true) (rest : Text) : splitOnce ':' (name ++ ':' :: rest) =
    some (name, rest) := splitOnce_append (colon_not_mem h)

variable {s : Text} {did : DID Url}

/-- What the parser accepts, part by part. -/
theorem fromStr_eq_ok_iff : fromStr crates s = .ok did ↔ ∃ name rest components method, s = "did:".toList ++
    (name ++ ':' :: rest) ∧ isMethodName name = true ∧ parseDidUrlComponents rest = .ok components ∧
    parseMethod crates name components.methodSpecificId = .ok method ∧ build crates method components.path
    components.query components.fragment = .ok did := by
  have hguard : ∀ name : Text,
      ¬(name.isEmpty || !name.all fun c => c.isLower || c.isDigit) = true ↔ isMethodName name = true := by
    intro name
    rw [isMethodName]
    cases name.isEmpty <;> cases name.all fun c => c.isLower || c.isDigit <;> decide
  unfold fromStr
  constructor
  · intro h
    obtain ⟨rest, hrest, h⟩ := bind_eq_ok_iff.1 h
    obtain ⟨⟨name, tail⟩, hname, h⟩ := bind_eq_ok_iff.1 h
    obtain ⟨hvalid, h⟩ := guard_eq_ok_iff.1 h
    obtain ⟨components, hcomponents, h⟩ := bind_eq_ok_iff.1 h
    obtain ⟨method, hmethod, hbuild⟩ := bind_eq_ok_iff.1 h
    obtain rfl := stripPrefix_eq_some_iff.1 (elim_throw_eq_ok_iff.1 hrest)
    obtain ⟨rfl, -⟩ := splitOnce_eq_some_iff.1 (elim_throw_eq_ok_iff.1 hname)
    exact ⟨name, tail, components, method, rfl, (hguard name).1 hvalid, hcomponents, hmethod, hbuild⟩
  · rintro ⟨name, rest, components, method, rfl, hvalid, hcomponents, hmethod, h⟩
    have hstrip := stripPrefix_eq_some_iff.2 (Eq.refl ("did:".toList ++ (name ++ ':' :: rest)))
    rw [hstrip, elim_some, pure_bind, splitOnce_append (colon_not_mem hvalid), elim_some, pure_bind]
    refine guard_eq_ok_iff.2 ⟨(hguard name).2 hvalid, ?_⟩
    exact bind_eq_ok_iff.2 ⟨components, hcomponents, bind_eq_ok_iff.2 ⟨method, hmethod, h⟩⟩

theorem build_eq_ok_iff {path query fragment : Option Text} : build crates method path query fragment =
    .ok did ↔ ∃ url, crates.parseUrl (didString method path query fragment) = .ok url ∧ did =
    ⟨method, path, query, fragment, url⟩ := by
  unfold build
  rw [bind_eq_ok_iff]
  refine exists_congr fun url => ?_
  rw [mapError_eq_ok_iff, pure_eq_ok_iff]
  exact and_congr_right fun _ => eq_comm

theorem didString_eq (method : DIDMethod) (path query fragment : Option Text) :
    didString method path query fragment =
      "did:".toList ++ (method.name ++ ':' :: didTail method.identifier path query fragment) := by
  unfold didString didTail
  generalize "did:".toList = start
  simp only [append_assoc, cons_append, nil_append]

/-! ## The grammar is what is accepted -/

theorem mem_pathAbempty_iff : s ∈ pathAbempty ↔ ∃ path, s = component '/' path ∧ ∀ text ∈ path,
    validatePath text = .ok () := by
  constructor
  · intro h
    have hstart : s = [] ∨ ∃ text, s = '/' :: text := by
      rw [pathAbempty, ← one_add_self_mul_kstar_eq_kstar] at h
      rcases h with hnil | ⟨_, ⟨_, rfl, segment, -, rfl⟩, rest, -, rfl⟩
      · exact .inl hnil
      · exact .inr ⟨segment ++ rest, rfl⟩
    rcases hstart with rfl | ⟨text, rfl⟩
    · exact ⟨none, rfl, by rintro _ ⟨⟩⟩
    · exact ⟨some text, rfl, fun t ht => some.inj ht ▸ validatePath_eq_ok_iff.2 h⟩
  · rintro ⟨path, rfl, hpath⟩
    cases path with
    | none => exact nil_mem_kstar _
    | some text => exact validatePath_eq_ok_iff.1 (hpath text rfl)

theorem mem_opt_iff {sep : Char} {rule : Language Char} : s ∈ opt (lit [sep] * rule) ↔ ∃ text, s =
    component sep text ∧ ∀ t ∈ text, t ∈ rule := by
  rw [opt, Language.mem_add, Language.mem_one, mem_lit_mul]
  constructor
  · rintro (rfl | ⟨text, htext, rfl⟩)
    · exact ⟨none, rfl, fun _ h => nomatch h⟩
    · exact ⟨some text, rfl, fun t ht => some.inj ht ▸ htext⟩
  · rintro ⟨text, rfl, htext⟩
    cases text with
    | none => exact .inl rfl
    | some text => exact .inr ⟨text, htext text rfl, rfl⟩

/-- The texts of the grammar are those with well-formed parts. -/
theorem mem_didUrl_iff : s ∈ Grammar.didUrl ↔ ∃ name id path query fragment, isMethodName name = true ∧
    WellFormed id path query fragment ∧ s = "did:".toList ++ (name ++ ':' :: didTail id path query fragment) := by
  constructor
  · rintro ⟨_, ⟨_, ⟨_, ⟨_, ⟨_, ⟨_, rfl, name, hname, rfl⟩, _, rfl, rfl⟩, id, hid, rfl⟩, _, hpath, rfl⟩, _,
      hquery, rfl⟩, _, hfragment, rfl⟩
    obtain ⟨path, rfl, hpaths⟩ := mem_pathAbempty_iff.1 hpath
    obtain ⟨query, rfl, hqueries⟩ := mem_opt_iff.1 hquery
    obtain ⟨fragment, rfl, hfragments⟩ := mem_opt_iff.1 hfragment
    refine ⟨name, id, path, query, fragment, isMethodName_iff.2 hname,
      ⟨validateIdentifierFormat_eq_ok_iff.2 hid, hpaths, fun t ht => validateQuery_eq_ok_iff.2 (hqueries t ht),
        fun t ht => validateFragment_eq_ok_iff.2 (hfragments t ht)⟩, ?_⟩
    show "did:".toList ++ name ++ [':'] ++ id ++ component '/' path ++ component '?' query ++
      component '#' fragment = _
    unfold didTail
    generalize "did:".toList = start
    simp only [append_assoc, cons_append, nil_append]
  · rintro ⟨name, id, path, query, fragment, hname, hwf, rfl⟩
    have hdid : "did:".toList ++ name ++ [':'] ++ id ∈ Grammar.did :=
      append_mem_mul (append_mem_mul (append_mem_mul rfl (isMethodName_iff.1 hname)) rfl)
        (validateIdentifierFormat_eq_ok_iff.1 hwf.id_ok)
    have hpath : component '/' path ∈ Grammar.pathAbempty := mem_pathAbempty_iff.2 ⟨path, rfl, hwf.path_ok⟩
    have hquery : component '?' query ∈ opt (lit ['?'] * Grammar.query) :=
      mem_opt_iff.2 ⟨query, rfl, fun t ht => validateQuery_eq_ok_iff.1 (hwf.query_ok t ht)⟩
    have hfragment : component '#' fragment ∈ opt (lit ['#'] * Grammar.fragment) :=
      mem_opt_iff.2 ⟨fragment, rfl, fun t ht => validateFragment_eq_ok_iff.1 (hwf.fragment_ok t ht)⟩
    have hsame : "did:".toList ++ (name ++ ':' :: didTail id path query fragment) =
        "did:".toList ++ name ++ [':'] ++ id ++ component '/' path ++ component '?' query ++
          component '#' fragment := by
      unfold didTail
      generalize "did:".toList = start
      simp only [append_assoc, cons_append, nil_append]
    rw [hsame]
    exact append_mem_mul (append_mem_mul (append_mem_mul hdid hpath) hquery) hfragment

theorem WellFormed.nonEmpty {id : Text} {path query fragment : Option Text} (h : WellFormed id path query fragment) :
    WellFormed id (path.bind noneIfEmpty) (query.bind noneIfEmpty) (fragment.bind noneIfEmpty) := by
  have hmem : ∀ {text : Option Text} {t : Text}, t ∈ text.bind noneIfEmpty → t ∈ text := by
    intro text t ht
    obtain ⟨u, hu, hut⟩ := bind_eq_some_iff.1 ht
    unfold noneIfEmpty at hut
    split_ifs at hut
    rw [mem_def, hu, some.inj hut]
  exact ⟨h.id_ok, fun t ht => h.path_ok t (hmem ht), fun t ht => h.query_ok t (hmem ht),
    fun t ht => h.fragment_ok t (hmem ht)⟩

/-- The text names a method that has a parser of its own. -/
def NamesParsedMethod (s : Text) : Prop :=
  ∃ name ∈ parsedMethods, ∃ rest, s = "did:".toList ++ (name ++ ':' :: rest)

theorem fromStr_ok_iff_didUrl (hurl : ∀ s ∈ didUrl, ∃ url, crates.parseUrl s = .ok url)
    (hs : ¬NamesParsedMethod s) : (∃ did, fromStr crates s = .ok did) ↔ s ∈ didUrl := by
  rw [mem_didUrl_iff]
  constructor
  · rintro ⟨did, hdid⟩
    obtain ⟨name, rest, components, method, rfl, hname, hcomponents, hmethod, -⟩ := fromStr_eq_ok_iff.1 hdid
    obtain ⟨id, path, query, fragment, hseparated, rfl⟩ := exists_didTail rest
    obtain ⟨hpath, hquery, hfragment, rfl⟩ :=
      (parseDidUrlComponents_didTail hseparated fragment components).1 hcomponents
    exact ⟨name, id, path, query, fragment, hname, ⟨(parseMethod_eq_ok hmethod).1, hpath, hquery, hfragment⟩, rfl⟩
  · rintro ⟨name, id, path, query, fragment, hname, hwf, rfl⟩
    have hother : name ∉ parsedMethods := fun hmem => hs ⟨name, hmem, _, rfl⟩
    have hparsed : didString (.other name id) (path.bind noneIfEmpty) (query.bind noneIfEmpty)
        (fragment.bind noneIfEmpty) ∈ didUrl :=
      mem_didUrl_iff.2 ⟨name, id, _, _, _, hname, hwf.nonEmpty, didString_eq _ _ _ _⟩
    obtain ⟨url, hurl⟩ := hurl _ hparsed
    refine ⟨_, fromStr_eq_ok_iff.2 ⟨name, _, _, .other name id, rfl, hname,
      (parseDidUrlComponents_didTail hwf.separated fragment _).2 ⟨hwf.path_ok, hwf.query_ok, hwf.fragment_ok, rfl⟩,
      (parseMethod_other hother _).2 ⟨hwf.id_ok, rfl⟩, build_eq_ok_iff.2 ⟨url, hurl, rfl⟩⟩⟩

/-! ## Reading back -/

/-- What holds of a DID that was built. -/
structure DID.Valid (crates : Decoders Url) (did : DID Url) : Prop where
  name_ok : isMethodName did.method.name = true
  method_ok : parseMethod crates did.method.name did.method.identifier = .ok did.method
  wellFormed : WellFormed did.method.identifier did.path did.query did.fragment
  url_ok : crates.parseUrl did.toText = .ok did.url

theorem valid_of_fromStr (h : fromStr crates s = .ok did) : did.Valid crates := by
  obtain ⟨name, rest, components, method, -, hname, hcomponents, hmethod, hbuild⟩ := fromStr_eq_ok_iff.1 h
  obtain ⟨id, path, query, fragment, hseparated, rfl⟩ := exists_didTail rest
  obtain ⟨hpath, hquery, hfragment, rfl⟩ :=
    (parseDidUrlComponents_didTail hseparated fragment components).1 hcomponents
  obtain ⟨hid, rfl, rfl⟩ := parseMethod_eq_ok hmethod
  obtain ⟨url, hurl, rfl⟩ := build_eq_ok_iff.1 hbuild
  exact ⟨hname, hmethod, WellFormed.nonEmpty ⟨hid, hpath, hquery, hfragment⟩, hurl⟩

theorem DID.Valid.fromStr_toText (h : did.Valid crates) (other : DID Url) : fromStr crates did.toText =
    .ok other ↔ build crates did.method (did.path.bind noneIfEmpty) (did.query.bind noneIfEmpty)
    (did.fragment.bind noneIfEmpty) = .ok other := by
  have hparse := parseDidUrlComponents_didTail h.wellFormed.separated did.fragment
  have htext : did.toText = "did:".toList ++
    (did.method.name ++ ':' :: didTail did.method.identifier did.path did.query
      did.fragment) := didString_eq _ _ _ _
  rw [fromStr_eq_ok_iff]
  constructor
  · rintro ⟨name, rest, components, method, hs, hname, hcomponents, hmethod, hbuild⟩
    -- the name is read up to the first colon, so both readings of the text agree on it
    have hsplit := splitOnce_append_of hname rest
    rw [htext] at hs
    rw [← append_cancel_left hs, splitOnce_append_of h.name_ok] at hsplit
    cases hsplit
    obtain ⟨-, -, -, rfl⟩ := (hparse components).1 hcomponents
    cases h.method_ok.symm.trans hmethod
    exact hbuild
  · intro hbuild
    exact ⟨_, _, _, did.method, htext, h.name_ok,
      (hparse _).2 ⟨h.wellFormed.path_ok, h.wellFormed.query_ok, h.wellFormed.fragment_ok, rfl⟩, h.method_ok, hbuild⟩

theorem bind_noneIfEmpty_eq_self_iff {text : Option Text} : text.bind noneIfEmpty = text ↔ text ≠ some [] := by
  cases text with
  | none => exact iff_of_true rfl nofun
  | some text =>
    cases text with
    | nil => exact iff_of_false nofun fun h => h rfl
    | cons c text => exact iff_of_true rfl nofun

theorem DID.Valid.reads_back_iff (h : did.Valid crates) : fromStr crates did.toText = .ok did ↔ did.path ≠
    some [] ∧ did.query ≠ some [] ∧ did.fragment ≠ some [] := by
  rw [h.fromStr_toText, build_eq_ok_iff, ← bind_noneIfEmpty_eq_self_iff, ← bind_noneIfEmpty_eq_self_iff,
    ← bind_noneIfEmpty_eq_self_iff]
  constructor
  · rintro ⟨url, -, hdid⟩
    exact ⟨(congrArg path hdid).symm, (congrArg query hdid).symm, (congrArg fragment hdid).symm⟩
  · rintro ⟨hpath, hquery, hfragment⟩
    rw [hpath, hquery, hfragment]
    exact ⟨did.url, h.url_ok, rfl⟩

/-! ## Replacing components -/

/-- A call of `with_path`, `with_query` or `with_fragment`. -/
inductive Change
  | path (text : Text)
  | query (text : Text)
  | fragment (text : Text)

namespace Change

def path? : Change → Option Text
  | path text => some text
  | _ => none

def query? : Change → Option Text
  | query text => some text
  | _ => none

def fragment? : Change → Option Text
  | fragment text => some text
  | _ => none

end Change

variable (crates) in
def DID.change (did : DID Url) : Change → Except DIDError (DID Url)
  | .path text => did.withPath crates text
  | .query text => did.withQuery crates text
  | .fragment text => did.withFragment crates text

variable (crates) in
def DID.changes (did : DID Url) (changes : List Change) : Except DIDError (DID Url) :=
    changes.foldlM (DID.change crates) did

/-- The text given last for a component. -/
def lastGiven (pick : Change → Option Text) (changes : List Change) : Option Text :=
    (changes.filterMap pick).getLast?

/-- For no component is the text given last empty. -/
def LeavesNoneEmpty (changes : List Change) : Prop :=
  lastGiven Change.path? changes ≠ some [] ∧ lastGiven Change.query? changes ≠ some [] ∧
    lastGiven Change.fragment? changes ≠ some []

theorem change_eq_ok {did' : DID Url} {change : Change} (h : did.change crates change = .ok did')
    (hvalid : did.Valid crates) : did'.Valid crates ∧ did'.path = change.path?.or did.path ∧ did'.query =
    change.query?.or did.query ∧ did'.fragment = change.fragment?.or did.fragment := by
  obtain ⟨hname, hmethod, ⟨hid, hpath, hquery, hfragment⟩, -⟩ := hvalid
  cases change with
  | path text =>
    obtain ⟨htext, hbuild⟩ := unit_bind_eq_ok_iff.1 h
    obtain ⟨url, hurl, rfl⟩ := build_eq_ok_iff.1 hbuild
    exact ⟨⟨hname, hmethod, ⟨hid, fun t ht => some.inj ht ▸ htext, hquery, hfragment⟩, hurl⟩, rfl, rfl, rfl⟩
  | query text =>
    obtain ⟨htext, hbuild⟩ := unit_bind_eq_ok_iff.1 h
    obtain ⟨url, hurl, rfl⟩ := build_eq_ok_iff.1 hbuild
    exact ⟨⟨hname, hmethod, ⟨hid, hpath, fun t ht => some.inj ht ▸ htext, hfragment⟩, hurl⟩, rfl, rfl, rfl⟩
  | fragment text =>
    obtain ⟨htext, hbuild⟩ := unit_bind_eq_ok_iff.1 h
    obtain ⟨url, hurl, rfl⟩ := build_eq_ok_iff.1 hbuild
    exact ⟨⟨hname, hmethod, ⟨hid, hpath, hquery, fun t ht => some.inj ht ▸ htext⟩, hurl⟩, rfl, rfl, rfl⟩

theorem lastGiven_concat (pick : Change → Option Text) (changes : List Change) (change : Change) :
    lastGiven pick (changes ++ [change]) = (pick change).or (lastGiven pick changes) := by
  unfold lastGiven
  cases hpick : pick change with
  | none => simp [hpick]
  | some text => simp [hpick]

theorem changes_eq_ok (hvalid : did.Valid crates) (changes : List Change) : ∀ did', did.changes crates changes =
    .ok did' → did'.Valid crates ∧ did'.path = (lastGiven Change.path? changes).or did.path ∧ did'.query =
    (lastGiven Change.query? changes).or did.query ∧ did'.fragment = (lastGiven Change.fragment? changes).or
    did.fragment := by
  induction changes using List.reverseRecOn with
  | nil =>
    intro did' h
    obtain rfl := pure_eq_ok_iff.1 h
    exact ⟨hvalid, rfl, rfl, rfl⟩
  | append_singleton changes change ih =>
    intro did' h
    rw [DID.changes, foldlM_append, bind_eq_ok_iff] at h
    obtain ⟨mid, hmid, h⟩ := h
    rw [foldlM_cons, bind_eq_ok_iff] at h
    obtain ⟨last, hlast, h⟩ := h
    obtain rfl := pure_eq_ok_iff.1 h
    obtain ⟨hmidValid, hpath, hquery, hfragment⟩ := ih mid hmid
    obtain ⟨hlastValid, hpath', hquery', hfragment'⟩ := change_eq_ok hlast hmidValid
    refine ⟨hlastValid, ?_, ?_, ?_⟩
    · rw [hpath', hpath, lastGiven_concat, Option.or_assoc]
    · rw [hquery', hquery, lastGiven_concat, Option.or_assoc]
    · rw [hfragment', hfragment, lastGiven_concat, Option.or_assoc]

theorem nonEmpty_of_fromStr (h : fromStr crates s = .ok did) : did.path ≠ some [] ∧ did.query ≠ some [] ∧
    did.fragment ≠ some [] := by
  have hnone : ∀ text : Option Text, text.bind noneIfEmpty ≠ some [] := by
    intro text htext
    obtain ⟨t, -, ht⟩ := bind_eq_some_iff.1 htext
    unfold noneIfEmpty at ht
    split_ifs at ht with hempty
    rw [some.inj ht] at hempty
    exact hempty rfl
  obtain ⟨name, rest, components, method, -, -, hcomponents, -, hbuild⟩ := fromStr_eq_ok_iff.1 h
  obtain ⟨id, path, query, fragment, hseparated, rfl⟩ := exists_didTail rest
  obtain ⟨-, -, -, rfl⟩ := (parseDidUrlComponents_didTail hseparated fragment components).1 hcomponents
  obtain ⟨url, -, rfl⟩ := build_eq_ok_iff.1 hbuild
  exact ⟨hnone path, hnone query, hnone fragment⟩

/-- `DID::from_str` accepts the grammar and nothing else, the methods with a parser of their own apart, and a DID
reads back from its text exactly where no component was last replaced by an empty one. -/
theorem fromStr_accepts_and_reads_back (hurl : ∀ s ∈ didUrl, ∃ url, crates.parseUrl s = .ok url) :
    (∀ s, ¬NamesParsedMethod s → ((∃ did, fromStr crates s = .ok did) ↔ s ∈ didUrl)) ∧
    ∀ s did changes did', fromStr crates s = .ok did → did.changes crates changes = .ok did' →
      (fromStr crates did'.toText = .ok did' ↔ LeavesNoneEmpty changes) := by
  refine ⟨fun s hs => fromStr_ok_iff_didUrl hurl hs, fun s did changes did' hdid hchanges => ?_⟩
  obtain ⟨hvalid, hpath, hquery, hfragment⟩ := changes_eq_ok (valid_of_fromStr hdid) changes did' hchanges
  obtain ⟨hpath₀, hquery₀, hfragment₀⟩ := nonEmpty_of_fromStr hdid
  have hor : ∀ {given own : Option Text}, own ≠ some [] → (given.or own ≠ some [] ↔ given ≠ some []) := by
    intro given own hown
    cases given with
    | none => exact iff_of_true hown nofun
    | some text => exact Iff.rfl
  rw [hvalid.reads_back_iff, hpath, hquery, hfragment, hor hpath₀, hor hquery₀, hor hfragment₀]
  rfl

end Parse

/-- A URL parser that takes everything, with no keys to decode. -/
def plainDecoders : Decoders Text := ⟨.ok, fun _ => .error "", fun _ => .error ""⟩

def exampleDid (path : Option Text) (url : Text) : DID Text := ⟨.other "example".toList ['1'], path, none, none, url⟩

theorem exampleDid_read : fromStr plainDecoders "did:example:1".toList =
    .ok (exampleDid none "did:example:1".toList) := by
  decide +kernel

/-- A path given to `did:example:1` reads back. -/
theorem example_path_reads_back :
    (exampleDid (some ['a']) "did:example:1/a".toList).toText = "did:example:1/a".toList ∧
      fromStr plainDecoders "did:example:1/a".toList =
        .ok (exampleDid (some ['a']) "did:example:1/a".toList) := by
  have hchange : (exampleDid none "did:example:1".toList).changes plainDecoders [.path ['a']] =
      .ok (exampleDid (some ['a']) "did:example:1/a".toList) := by decide +kernel
  have htext : (exampleDid (some ['a']) "did:example:1/a".toList).toText = "did:example:1/a".toList := by
    decide +kernel
  have hlast : LeavesNoneEmpty [.path ['a']] := by
    unfold LeavesNoneEmpty
    decide +kernel
  have hread := (fromStr_accepts_and_reads_back fun s _ => ⟨s, rfl⟩).2 _ _ _ _ exampleDid_read hchange
  exact ⟨htext, htext ▸ hread.2 hlast⟩

/-- An empty path is kept apart from no path, but its text has the slash alone and is read as no path. -/
theorem empty_path_not_read_back :
    ∃ did did', fromStr plainDecoders "did:example:1".toList = .ok did ∧ did.withPath plainDecoders [] =
      .ok did' ∧
      fromStr plainDecoders did'.toText ≠ .ok did' := by
  have hpath : (exampleDid none "did:example:1".toList).withPath plainDecoders [] =
      .ok (exampleDid (some []) "did:example:1/".toList) := by decide +kernel
  refine ⟨_, _, exampleDid_read, hpath, ?_⟩
  decide +kernel

end AffinidiTdk.Did
