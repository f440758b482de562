/-
JWK thumbprints (`compute_jwk_thumbprint`) and the Self-Issued ID Tokens whose subject they are. The hashed text is put
together from the members as they are, without escaping: it is the JSON text of the required members, and tells one key
from another, exactly where these hold no character that JSON escapes.
-/
import AffinidiTdk.Lib.Base64
import AffinidiTdk.Lib.JsonRead
import AffinidiTdk.Lib.Text

namespace AffinidiTdk.Oid4vc

open List Option
open Json

/-! ## The thumbprint -/

/-- The text that is hashed. -/
def canonicalJwk (jwk : Json) : Option String := do
  let kty ← jwk.strField "kty"
  if kty = "EC" then
    let crv ← jwk.strField "crv"
    let x ← jwk.strField "x"
    let y ← jwk.strField "y"
    some ("\x7b\"crv\":\"" ++ crv ++ "\",\"kty\":\"EC\",\"x\":\"" ++ x ++ "\",\"y\":\"" ++ y ++ "\"\x7d")
  else if kty = "OKP" then
    let crv ← jwk.strField "crv"
    let x ← jwk.strField "x"
    some ("\x7b\"crv\":\"" ++ crv ++ "\",\"kty\":\"OKP\",\"x\":\"" ++ x ++ "\"\x7d")
  else if kty = "RSA" then
    let e ← jwk.strField "e"
    let n ← jwk.strField "n"
    some ("\x7b\"e\":\"" ++ e ++ "\",\"kty\":\"RSA\",\"n\":\"" ++ n ++ "\"\x7d")
  else none

def computeJwkThumbprint (sha256 : List UInt8 → List UInt8) (jwk : Json) : Option String := do
  let canonical ← canonicalJwk jwk
  some (String.ofList (Base64.encode (sha256 (Text.utf8 canonical))))

/-! ## Self-Issued ID Tokens -/

/-- Why a self-issued token is refused. -/
inductive SiopError
  | invalidIdToken (msg : String)
  | nonceMismatch
  | expired
  | issSubMismatch
  | audienceMismatch (expected actual : String)
  | thumbprintMismatch

/-- The claims of a self-issued token. -/
structure SelfIssuedIdToken where
  iss : String
  sub : String
  aud : String
  exp : ℤ
  nonce : String
  subJwk : Option Json

namespace SelfIssuedIdToken

def isDidSubject (token : SelfIssuedIdToken) : Bool := Text.startsWith "did:" token.sub

def validate (sha256 : List UInt8 → List UInt8) (now : ℤ) (token : SelfIssuedIdToken)
    (expectedClientId expectedNonce : String) : Except SiopError Unit :=
  if token.iss ≠ token.sub then .error .issSubMismatch
  else if token.aud ≠ expectedClientId then .error (.audienceMismatch expectedClientId token.aud)
  else if token.nonce ≠ expectedNonce then .error .nonceMismatch
  else if now > token.exp then .error .expired
  else if token.isDidSubject then
    if token.subJwk.isSome then .error (.invalidIdToken "sub_jwk must not be present for DID subjects") else .ok ()
  else match token.subJwk with
    | some jwk =>
      match computeJwkThumbprint sha256 jwk with
      | none => .error (.invalidIdToken "cannot compute JWK Thumbprint")
      | some thumbprint => if token.sub ≠ thumbprint then .error .thumbprintMismatch else .ok ()
    | none => .error (.invalidIdToken "sub_jwk required for non-DID subjects")

variable {sha256 : List UInt8 → List UInt8} {now : ℤ} {token : SelfIssuedIdToken} {clientId nonce : String}

theorem sub_eq_thumbprint {jwk : Json} (h : token.validate sha256 now clientId nonce = .ok ())
    (hjwk : token.subJwk = some jwk) : computeJwkThumbprint sha256 jwk = some token.sub := by
  unfold validate at h
  rw [hjwk] at h
  split_ifs at h with hiss haud hnonce hexp hdid hsome
  · exact absurd rfl hsome
  · dsimp only at h
    split at h
    · cases h
    · rename_i thumbprint hthumbprint
      split_ifs at h with hsub
      exact hthumbprint.trans (congrArg some (not_not.1 hsub).symm)

end SelfIssuedIdToken

/-! ## The required members -/

/-- The names of the required members for a type of keys, in their order. -/
def requiredNames (kty : String) : Option (List String) :=
  if kty = "EC" then some ["crv", "kty", "x", "y"] else if kty = "OKP" then some ["crv", "kty", "x"]
  else if kty = "RSA" then some ["e", "kty", "n"] else none

/-- The required members of a key, its type among them. -/
def requiredMembers (jwk : Json) : Option (List (String × String)) := do
  let names ← requiredNames (← jwk.strField "kty")
  names.mapM fun name => do some (name, ← jwk.strField name)

/-- The JSON object of the members. -/
def object (members : List (String × String)) : Json := obj (members.map fun m => (m.1, str m.2))

/-- The members one after the other, without escaping. -/
def interpolated : List (String × String) → List Char
  | [] => []
  | [(name, value)] => '"' :: name.toList ++ '"' :: ':' :: '"' :: value.toList ++ ['"']
  | (name, value) :: next :: members =>
    '"' :: name.toList ++ '"' :: ':' :: '"' :: value.toList ++ '"' :: ',' :: interpolated (next :: members)

variable {jwk j₁ j₂ : Json} {members m₁ m₂ : List (String × String)} {sha256 : List UInt8 → List UInt8}

theorem requiredMembers_cases (h : requiredMembers jwk = some members) :
    (∃ crv x y, jwk.strField "kty" = some "EC" ∧ jwk.strField "crv" = some crv ∧ jwk.strField "x" = some x ∧
    jwk.strField "y" = some y ∧ members = [("crv", crv), ("kty", "EC"), ("x", x), ("y", y)]) ∨
    (∃ crv x, jwk.strField "kty" = some "OKP" ∧ jwk.strField "crv" = some crv ∧ jwk.strField "x" = some x ∧
    members = [("crv", crv), ("kty", "OKP"), ("x", x)]) ∨ ∃ e n, jwk.strField "kty" = some "RSA" ∧
    jwk.strField "e" = some e ∧ jwk.strField "n" = some n ∧ members = [("e", e), ("kty", "RSA"), ("n", n)] := by
  obtain ⟨kty, hkty, h⟩ := bind_eq_some_iff.1 h
  obtain ⟨names, hnames, h⟩ := bind_eq_some_iff.1 h
  unfold requiredNames at hnames
  split_ifs at hnames with hec hokp hrsa
  all_goals
    cases hnames
    simp only [mapM_cons, mapM_nil, Option.pure_def, bind_eq_bind, bind_eq_some_iff, Option.some.injEq, hkty] at h
  · obtain ⟨_, ⟨crv, hcrv, rfl⟩, _, ⟨_, ⟨_, rfl, rfl⟩, _, ⟨_, ⟨x, hx, rfl⟩, _, ⟨_, ⟨y, hy, rfl⟩, _, rfl, rfl⟩, rfl⟩,
      rfl⟩, rfl⟩ := h
    subst hec
    exact .inl ⟨crv, x, y, hkty, hcrv, hx, hy, rfl⟩
  · obtain ⟨_, ⟨crv, hcrv, rfl⟩, _, ⟨_, ⟨_, rfl, rfl⟩, _, ⟨_, ⟨x, hx, rfl⟩, _, rfl, rfl⟩, rfl⟩, rfl⟩ := h
    subst hokp
    exact .inr (.inl ⟨crv, x, hkty, hcrv, hx, rfl⟩)
  · obtain ⟨_, ⟨e, he, rfl⟩, _, ⟨_, ⟨_, rfl, rfl⟩, _, ⟨_, ⟨n, hn, rfl⟩, _, rfl, rfl⟩, rfl⟩, rfl⟩ := h
    subst hrsa
    exact .inr (.inr ⟨e, n, hkty, he, hn, rfl⟩)

theorem canonicalJwk_eq (h : requiredMembers jwk = some members) :
    canonicalJwk jwk = some (String.ofList ('\x7b' :: interpolated members ++ ['\x7d'])) := by
  rcases requiredMembers_cases h with ⟨crv, x, y, hkty, hcrv, hx, hy, rfl⟩ | ⟨crv, x, hkty, hcrv, hx, rfl⟩ |
    ⟨e, n, hkty, he, hn, rfl⟩
  · simp only [canonicalJwk, hkty, hcrv, hx, hy, bind_eq_bind, bind_some, if_true]
    exact congrArg some (String.toList_inj.1 (by simp [interpolated]))
  · simp only [canonicalJwk, hkty, hcrv, hx, bind_eq_bind, bind_some, if_true,
      show ("OKP" = "EC") = False by decide, if_false]
    exact congrArg some (String.toList_inj.1 (by simp [interpolated]))
  · simp only [canonicalJwk, hkty, he, hn, bind_eq_bind, bind_some, if_true,
      show ("RSA" = "EC") = False by decide, show ("RSA" = "OKP") = False by decide, if_false]
    exact congrArg some (String.toList_inj.1 (by simp [interpolated]))

theorem exists_requiredMembers {text : String} (h : canonicalJwk jwk = some text) :
    ∃ members, requiredMembers jwk = some members := by
  obtain ⟨kty, hkty, h⟩ := bind_eq_some_iff.1 h
  split_ifs at h with hec hokp hrsa
  all_goals simp only [bind_eq_bind, bind_eq_some_iff] at h
  · obtain ⟨crv, hcrv, x, hx, y, hy, -⟩ := h
    simp [requiredMembers, requiredNames, hkty, hec, hcrv, hx, hy]
  · obtain ⟨crv, hcrv, x, hx, -⟩ := h
    simp [requiredMembers, requiredNames, hkty, hokp, hcrv, hx]
  · obtain ⟨e, he, n, hn, -⟩ := h
    simp [requiredMembers, requiredNames, hkty, hrsa, he, hn]

theorem names_spec (h : requiredMembers jwk = some members) :
    (members.map Prod.fst).Nodup ∧ ∀ m ∈ members, verbatim m.1 := by
  have hnames : ∀ name ∈ ["crv", "kty", "x", "y", "e", "n"], verbatim name := by decide
  rcases requiredMembers_cases h with ⟨crv, x, y, -, -, -, -, rfl⟩ | ⟨crv, x, -, -, -, rfl⟩ | ⟨e, n, -, -, -, rfl⟩
  all_goals
    refine ⟨by simp, fun m hm => hnames m.1 (?_ : m.1 ∈ _)⟩
    have hmem := List.mem_map_of_mem (f := Prod.fst) hm
    simp only [map_cons, map_nil, mem_cons, not_mem_nil, or_false] at hmem ⊢
    tauto

/-- Without escaping the members are their JSON text exactly where there is nothing to escape. -/
theorem interpolated_eq_iff (hnames : ∀ m ∈ members, verbatim m.1) :
    interpolated members = charsFields (members.map fun m => (m.1, str m.2)) ↔ ∀ m ∈ members, verbatim m.2 := by
  constructor
  · intro h
    have hlengths : (interpolated members).length ≤ (charsFields (members.map fun m => (m.1, str m.2))).length ∧
        ((charsFields (members.map fun m => (m.1, str m.2))).length = (interpolated members).length →
          ∀ m ∈ members, verbatim m.2) := by
      clear h
      induction members with
      | nil => exact ⟨Nat.le_refl _, fun _ m hm => absurd hm not_mem_nil⟩
      | cons member members ih =>
        obtain ⟨name, value⟩ := member
        obtain ⟨hname, hnames⟩ := forall_mem_cons.1 hnames
        obtain ⟨hle, hall⟩ := ih hnames
        obtain ⟨hvalue, hverbatim⟩ := escape_length value.toList
        cases members with
        | nil =>
          simp only [interpolated, map_cons, map_nil, charsFields, chars, quoted, escape_verbatim hname,
            length_append, length_cons, length_nil, forall_mem_singleton]
          exact ⟨by omega, fun h => hverbatim (by omega)⟩
        | cons next members =>
          rw [map_cons] at hle hall
          simp only [interpolated, map_cons, charsFields, chars, quoted, escape_verbatim hname,
            length_append, length_cons, length_nil]
          refine ⟨by omega, fun h => forall_mem_cons.2 ⟨hverbatim (by omega), hall (by omega)⟩⟩
    exact hlengths.2 (congrArg List.length h).symm
  · intro h
    induction members with
    | nil => rfl
    | cons member members ih =>
      obtain ⟨name, value⟩ := member
      obtain ⟨hname, hnames⟩ := forall_mem_cons.1 hnames
      obtain ⟨hvalue, hvalues⟩ := forall_mem_cons.1 h
      cases members with
      | nil => simp [interpolated, charsFields, chars, quoted, escape_verbatim hname, escape_verbatim hvalue]
      | cons next members =>
        have hrest := ih hnames hvalues
        rw [map_cons] at hrest
        simp [interpolated, charsFields, chars, quoted, escape_verbatim hname, escape_verbatim hvalue, hrest]

theorem object_toText_inj (h₁ : (m₁.map Prod.fst).Nodup) (h₂ : (m₂.map Prod.fst).Nodup)
    (h : (object m₁).toText = (object m₂).toText) : m₁ = m₂ := by
  have hplain : ∀ members : List (String × String), (members.map Prod.fst).Nodup → Plain 127 (object members) := by
    intro members hnodup
    refine plain_obj (by rwa [List.map_map]) fun field hfield => ?_
    obtain ⟨m, -, rfl⟩ := List.mem_map.1 hfield
    exact plain_str _ _
  have hread := Compact.reader_lawful.parse_plain (hplain m₁ h₁)
  rw [h, Compact.reader_lawful.parse_plain (hplain m₂ h₂)] at hread
  have hinj : Function.Injective fun m : String × String => (m.1, str m.2) := by
    rintro ⟨a, b⟩ ⟨c, d⟩ heq
    simpa using heq
  exact (map_injective_iff.2 hinj (Json.obj.inj (Except.ok.inj hread))).symm

/-- The text that is hashed is the JSON text of the members exactly where they have nothing to escape. -/
theorem canonicalJwk_eq_toText_iff (h : requiredMembers jwk = some members) :
    canonicalJwk jwk = some (object members).toText ↔ ∀ m ∈ members, verbatim m.2 := by
  rw [canonicalJwk_eq h, ← interpolated_eq_iff (names_spec h).2, some_inj, toText, String.ofList_inj,
    object, chars]
  exact (cons_inj_right _).trans (append_left_inj _)

/-- Two keys have the same thumbprint, and two accepted tokens the same subject, only when they are the same, and
what is hashed is their JSON text: exactly when their required members hold nothing that JSON escapes. -/
theorem thumbprints_identify_iff (hsha : Function.Injective sha256) (h₁ : (computeJwkThumbprint sha256 j₁).isSome)
    (h₂ : (computeJwkThumbprint sha256 j₂).isSome) :
    ((computeJwkThumbprint sha256 j₁ = computeJwkThumbprint sha256 j₂ → requiredMembers j₁ = requiredMembers j₂) ∧
      (∀ (t₁ t₂ : SelfIssuedIdToken) now₁ now₂ client₁ client₂ nonce₁ nonce₂,
        t₁.validate sha256 now₁ client₁ nonce₁ = .ok () → t₂.validate sha256 now₂ client₂ nonce₂ = .ok () →
        t₁.subJwk = some j₁ → t₂.subJwk = some j₂ → t₁.sub = t₂.sub → requiredMembers j₁ = requiredMembers j₂) ∧
      canonicalJwk j₁ = (requiredMembers j₁).map (fun m => (object m).toText) ∧
      canonicalJwk j₂ = (requiredMembers j₂).map fun m => (object m).toText) ↔
    ∀ m ∈ (requiredMembers j₁).getD [] ++ (requiredMembers j₂).getD [], verbatim m.2 := by
  have hmembers : ∀ jwk, (computeJwkThumbprint sha256 jwk).isSome → ∃ m, requiredMembers jwk = some m := by
    intro jwk h
    obtain ⟨thumbprint, h⟩ := isSome_iff_exists.1 h
    obtain ⟨text, htext, -⟩ := bind_eq_some_iff.1 h
    exact exists_requiredMembers htext
  obtain ⟨m₁, hm₁⟩ := hmembers j₁ h₁
  obtain ⟨m₂, hm₂⟩ := hmembers j₂ h₂
  rw [hm₁, hm₂, map_some, map_some, getD_some, getD_some,
    canonicalJwk_eq_toText_iff hm₁, canonicalJwk_eq_toText_iff hm₂, forall_mem_append, some_inj]
  refine ⟨fun h => h.2.2, fun h => ?_⟩
  have hsame : computeJwkThumbprint sha256 j₁ = computeJwkThumbprint sha256 j₂ → m₁ = m₂ := by
    intro hthumbprint
    simp only [computeJwkThumbprint, (canonicalJwk_eq_toText_iff hm₁).2 h.1, (canonicalJwk_eq_toText_iff hm₂).2 h.2,
      bind_eq_bind, bind_some, Option.some.injEq, String.ofList_inj] at hthumbprint
    exact object_toText_inj (names_spec hm₁).1 (names_spec hm₂).1
      (Text.utf8_injective (hsha (Base64.encode_injective hthumbprint)))
  refine ⟨hsame, ?_, h⟩
  intro t₁ t₂ now₁ now₂ client₁ client₂ nonce₁ nonce₂ hv₁ hv₂ hj₁ hj₂ hsub
  exact hsame ((SelfIssuedIdToken.sub_eq_thumbprint hv₁ hj₁).trans
    (hsub ▸ (SelfIssuedIdToken.sub_eq_thumbprint hv₂ hj₂).symm))

/-! ## Two keys with one thumbprint -/

def pointKey (x y : String) : Json :=
  obj [("crv", str "P-256"), ("kty", str "EC"), ("x", str x), ("y", str y)]

theorem thumbprints_identify_points :
    computeJwkThumbprint id (pointKey "a" "b") ≠ computeJwkThumbprint id (pointKey "c" "d") := by
  have hidentify := (@thumbprints_identify_iff (pointKey "a" "b") (pointKey "c" "d") id Function.injective_id rfl
    rfl).2 (by decide)
  exact fun h => absurd (hidentify.1 h) (by decide)

/-- A quote in a coordinate moves the border between two members. -/
theorem one_thumbprint_two_keys : ¬∀ sha256 : List UInt8 → List UInt8, Function.Injective sha256 →
    ∀ j₁ j₂, (computeJwkThumbprint sha256 j₁).isSome →
      computeJwkThumbprint sha256 j₁ = computeJwkThumbprint sha256 j₂ → requiredMembers j₁ = requiredMembers j₂ := by
  intro h
  have htext : canonicalJwk (pointKey "a\",\"y\":\"b" "c") = canonicalJwk (pointKey "a" "b\",\"y\":\"c") := by decide
  have hsame := h id Function.injective_id (pointKey "a\",\"y\":\"b" "c") (pointKey "a" "b\",\"y\":\"c") rfl
    (by rw [computeJwkThumbprint, htext, computeJwkThumbprint])
  exact absurd hsame (by decide)

end AffinidiTdk.Oid4vc
