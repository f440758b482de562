/-
Agreement on the session transcript. The reader encodes the engagement it parsed, so its transcript is that of
the device exactly where parsing loses nothing of the engagement that was sent.
-/
import AffinidiTdk.Mdoc.Engagement

namespace AffinidiTdk.Mdoc

open Fallible List DeviceEngagement

open Cbor (Value SameUpToNulls Trimmed at_ sameUpToNulls_iff)
open DeviceEngagement (parseMethod parseMethods present)

variable {crates : Crates} {v : Value} {engagement : DeviceEngagement}

/-! ## What parsing keeps -/

def InU32 (n : ℤ) : Prop := 0 ≤ n ∧ n < 2 ^ 32

theorem asU32_eq_iff {n : ℤ} : ((asU32 n : ℕ) : ℤ) = n ↔ InU32 n := by
  unfold asU32 InU32
  omega

/-- A retrieval method that the parser understands whole: two integers of 32 bits, and at most one more item. -/
def LosslessMethod (method : Value) : Prop :=
  ∃ transportType version options, method = .array (.integer transportType :: .integer version :: options) ∧
    InU32 transportType ∧ InU32 version ∧ options.length ≤ 1

/-- An engagement that the parser understands whole. -/
def Lossless (v : Value) : Prop :=
  ∃ version suite key rest, v = .array (.text version :: .array [.integer suite, .tag 24 (.bytes key)] :: rest) ∧
    InU32 suite ∧
    (at_ rest 0 = .null ∨ ∃ methods, at_ rest 0 = .array methods ∧ ∀ method ∈ methods, LosslessMethod method) ∧
    ∀ i ≥ 3, at_ rest i = .null

theorem head?_toList_eq_iff {options : List Value} : options.head?.toList = options ↔ options.length ≤ 1 := by
  rcases options with _ | ⟨o, _ | ⟨o', options⟩⟩ <;> simp

theorem toCborValue_eq_iff {method : Value} {parsed : DeviceRetrievalMethod} (h : parseMethod method = some parsed) :
    parsed.toCborValue = method ↔ LosslessMethod method := by
  unfold parseMethod at h
  split at h
  · rename_i transportType version options
    cases h
    rw [DeviceRetrievalMethod.toCborValue]
    simp only [cons_append, nil_append, Value.array.injEq, List.cons.injEq, Value.integer.injEq,
      asU32_eq_iff, head?_toList_eq_iff]
    constructor
    · rintro ⟨htransport, hversion, hoptions⟩
      exact ⟨transportType, version, options, rfl, htransport, hversion, hoptions⟩
    · rintro ⟨_, _, _, heq, htransport, hversion, hoptions⟩
      cases heq
      exact ⟨htransport, hversion, hoptions⟩
  · cases h

theorem not_losslessMethod {method : Value} (h : parseMethod method = none) : ¬LosslessMethod method := by
  rintro ⟨_, _, _, rfl, -⟩
  cases h

/-- The methods are encoded as they were where nothing of any is lost: one that is passed over is missing. -/
theorem map_filterMap_eq_iff {methods : List Value} :
    (methods.filterMap parseMethod).map DeviceRetrievalMethod.toCborValue = methods ↔
      ∀ method ∈ methods, LosslessMethod method := by
  induction methods with
  | nil => simp
  | cons method methods ih =>
    rw [forall_mem_cons]
    cases hparsed : parseMethod method with
    | some parsed => rw [filterMap_cons_some hparsed, map_cons, List.cons.injEq, toCborValue_eq_iff hparsed, ih]
    | none =>
      refine iff_of_false (fun heq => ?_) fun h => not_losslessMethod hparsed h.1
      have hlength := congrArg List.length heq
      rw [filterMap_cons_none hparsed, length_map, length_cons] at hlength
      have := length_filterMap_le parseMethod methods
      omega

/-- The methods as they are encoded again, null where there are none. -/
def methodsValue (methods : Option (List DeviceRetrievalMethod)) : Value :=
  methods.elim .null fun methods => .array (methods.map DeviceRetrievalMethod.toCborValue)

theorem methodsValue_eq_iff (rest : List Value) :
    methodsValue (parseMethods rest[0]?) = at_ rest 0 ↔
      at_ rest 0 = .null ∨ ∃ methods, at_ rest 0 = .array methods ∧ ∀ method ∈ methods, LosslessMethod method := by
  unfold at_
  cases rest[0]? with
  | none => simp [parseMethods, methodsValue]
  | some v =>
    cases v with
    | array methods => simp [parseMethods, methodsValue, map_filterMap_eq_iff]
    | _ => simp [parseMethods, methodsValue]

theorem present_getD (r : Option Value) : (present r).getD .null = r.getD .null := by
  unfold present
  split <;> rfl

theorem present_ne_null (r : Option Value) : present r ≠ some .null := by
  unfold present
  split
  · nofun
  · nofun
  · rename_i v hnull
    rintro heq
    cases heq
    exact hnull rfl

/-! ## Places of the encoded engagement -/

/-- The items of the encoded engagement. -/
def itemsOf (engagement : DeviceEngagement) : List Value :=
  match engagement.toCborValue with
  | .array items => items
  | _ => []

theorem toCborValue_eq (engagement : DeviceEngagement) : engagement.toCborValue = .array (itemsOf engagement) := rfl

theorem at_itemsOf (engagement : DeviceEngagement) (i : ℕ) :
    at_ (itemsOf engagement) i = at_ [.text engagement.version, .array [.integer engagement.security.cipherSuite,
        .tag 24 (.bytes engagement.security.eDeviceKeyBytes.innerBytes)],
      methodsValue engagement.deviceRetrievalMethods, engagement.serverRetrievalMethods.getD .null,
      engagement.protocolInfo.getD .null] i := by
  obtain ⟨version, security, methods, server, protocol⟩ := engagement
  unfold itemsOf toCborValue
  rcases i with _ | _ | _ | _ | _ | i <;> rcases methods with _ | methods <;> rcases server with _ | server <;>
    rcases protocol with _ | protocol <;> rfl

theorem trimmed_itemsOf (hserver : engagement.serverRetrievalMethods ≠ some .null)
    (hprotocol : engagement.protocolInfo ≠ some .null) : Trimmed (itemsOf engagement) := by
  obtain ⟨version, security, methods, server, protocol⟩ := engagement
  unfold Trimmed itemsOf toCborValue
  rcases protocol with _ | protocol
  · rcases server with _ | server
    · rcases methods with _ | methods <;> simp
    · rcases methods with _ | methods <;> simpa using hserver
  · rcases methods with _ | methods <;> rcases server with _ | server <;> simpa using hprotocol

/-! ## Agreement -/

theorem fromCborValue_eq_ok (h : fromCborValue crates v = .ok engagement) :
    ∃ version suite key more rest inner b, v =
    .array (.text version :: .array (.integer suite :: key :: more) :: rest) ∧
    (key = .tag 24 (.bytes b) ∨ key = .bytes b) ∧ engagement =
    ⟨version, ⟨asU32 suite, ⟨inner, b⟩⟩, parseMethods rest[0]?, present rest[1]?, present rest[2]?⟩ := by
  unfold fromCborValue at h
  split at h
  · rename_i versionValue securityValue rest
    obtain ⟨version, hversion, h⟩ := bind_eq_ok_iff.1 h
    obtain ⟨security, hsecurity, h⟩ := bind_eq_ok_iff.1 h
    cases h
    unfold parseVersion at hversion
    split at hversion
    · cases hversion
      unfold parseSecurity at hsecurity
      split at hsecurity
      · obtain ⟨suite, hsuite, hsecurity⟩ := bind_eq_ok_iff.1 hsecurity
        obtain ⟨keyBytes, hkey, hsecurity⟩ := bind_eq_ok_iff.1 hsecurity
        cases hsecurity
        unfold parseCipherSuite at hsuite
        split at hsuite
        · cases hsuite
          unfold parseKey at hkey
          split at hkey
          · obtain ⟨inner, -, hkey⟩ := bind_eq_ok_iff.1 hkey
            cases hkey
            exact ⟨_, _, _, _, rest, inner, _, rfl, .inl rfl, rfl⟩
          · obtain ⟨inner, -, hkey⟩ := bind_eq_ok_iff.1 hkey
            cases hkey
            exact ⟨_, _, _, _, rest, inner, _, rfl, .inr rfl, rfl⟩
          · cases hkey
          · cases hkey
        · cases hsuite
      · cases hsecurity
    · cases hversion
  · cases h
  · cases h

/-- The bytes of an engagement as the device sent it. -/
def sentBytes (crates : Crates) (v : Value) : Except MdocError Bytes :=
  (crates.encode v).mapError fun e => .cbor s!"DeviceEngagement encoding: {e}"

/-- The reader encodes what the device sent, up to nulls at the end; and where the device sent none there, the
transcripts of the two (and with them their bytes and the session keys) are the same. -/
structure TranscriptsAgree (crates : Crates) (v : Value) (engagement : DeviceEngagement) : Prop where
  reencoded : ∃ items, v = .array items ∧ SameUpToNulls (itemsOf engagement) items
  transcripts : (∀ items, v = .array items → Trimmed items) → ∀ eReaderKey,
    SessionTranscript.newQr crates engagement eReaderKey =
        SessionTranscript.ofBytes crates (sentBytes crates v) eReaderKey .qr ∧
      ∀ select request, SessionTranscript.newNfc crates engagement eReaderKey select request =
        SessionTranscript.ofBytes crates (sentBytes crates v) eReaderKey (.nfc select request)

/-- **Transcripts**: for an accepted engagement they agree exactly where the parser understood it whole. -/
theorem transcriptsAgree_iff (h : fromCborValue crates v = .ok engagement) :
    TranscriptsAgree crates v engagement ↔ Lossless v := by
  obtain ⟨version, suite, key, more, rest, inner, b, rfl, hkey, rfl⟩ := fromCborValue_eq_ok h
  constructor
  · rintro ⟨⟨items, hitems, hsame⟩, -⟩
    cases hitems
    rw [sameUpToNulls_iff] at hsame
    have hsecurity := (at_itemsOf _ 1).symm.trans (hsame 1)
    have hmethods := (at_itemsOf _ 2).symm.trans (hsame 2)
    simp only [Cbor.at_cons_succ, Cbor.at_cons_zero, Value.array.injEq, List.cons.injEq, Value.integer.injEq,
      asU32_eq_iff] at hsecurity
    obtain ⟨hsuite, rfl, rfl⟩ := hsecurity
    refine ⟨version, suite, b, rest, rfl, hsuite, (methodsValue_eq_iff rest).1 hmethods, fun i hi => ?_⟩
    obtain ⟨j, rfl⟩ := Nat.exists_eq_add_of_le' hi
    exact ((at_itemsOf _ (j + 5)).symm.trans (hsame (j + 5))).symm
  · rintro ⟨version', suite', key', rest', heq, hsuite, hmethods, hrest⟩
    cases heq
    have hb : b = key' := by
      rcases hkey with hkey | hkey <;> cases hkey
      rfl
    subst hb
    have hsame : SameUpToNulls (itemsOf ⟨version, ⟨asU32 suite, ⟨inner, b⟩⟩, parseMethods rest[0]?, present rest[1]?,
        present rest[2]?⟩) (.text version :: .array [.integer suite, .tag 24 (.bytes b)] :: rest) := by
      refine sameUpToNulls_iff.2 fun i => (at_itemsOf _ i).trans ?_
      rcases i with _ | _ | _ | _ | _ | i
      · rfl
      · simp only [Cbor.at_cons_succ, Cbor.at_cons_zero, asU32_eq_iff.2 hsuite]
      · exact (methodsValue_eq_iff rest).2 hmethods
      · exact present_getD rest[1]?
      · exact present_getD rest[2]?
      · exact (hrest (i + 3) (Nat.le_add_left 3 i)).symm
    refine ⟨⟨_, rfl, hsame⟩, fun htrimmed eReaderKey => ?_⟩
    have hitems := hsame.eq (trimmed_itemsOf (present_ne_null _) (present_ne_null _)) (htrimmed _ rfl)
    unfold SessionTranscript.newQr SessionTranscript.newNfc toCborBytes sentBytes
    rw [toCborValue_eq, hitems]
    exact ⟨rfl, fun _ _ => rfl⟩

/-! ## A cipher suite out of range -/

/-- An encoder and a decoder that know one key, the empty map, and its engagement with the suite 1. -/
def emptyKeyCrates : Crates where
  encode
    | .array _ => .ok [130, 99, 49, 46, 48, 130, 1, 216, 24, 65, 160]
    | .map [] => .ok [160]
    | _ => .error "unexpected value"
  decode bytes := if bytes = [160] then .ok (.map []) else .error "unexpected bytes"
  decodeMso _ := .error "unexpected bytes"
  tbsData _ _ := []
  sha256 := id
  sha384 := id
  sha512 := id

/-- An engagement with a cipher suite and the empty key. -/
def engagementOf (suite : ℤ) : Value := .array [.text "1.0", .array [.integer suite, .tag 24 (.bytes [160])]]

theorem engagementOf_accepted (suite : ℤ) : fromCborValue emptyKeyCrates (engagementOf suite) =
    .ok ⟨"1.0", ⟨asU32 suite, ⟨.map [], [160]⟩⟩, none, none, none⟩ := rfl

theorem transcriptsAgree_one : TranscriptsAgree emptyKeyCrates (engagementOf 1)
    ⟨"1.0", ⟨asU32 1, ⟨.map [], [160]⟩⟩, none, none, none⟩ := by
  refine (transcriptsAgree_iff (engagementOf_accepted 1)).2
    ⟨"1.0", 1, [160], [], rfl, ⟨by decide, by decide⟩, .inl rfl, ?_⟩
  exact fun i _ => Cbor.at_nil i

/-- The suite `2 ^ 32 + 1` is taken for the suite 1, and the transcripts differ. -/
theorem wrapped_suite_accepted :
    fromCborValue emptyKeyCrates (engagementOf (2 ^ 32 + 1)) =
        .ok ⟨"1.0", ⟨1, ⟨.map [], [160]⟩⟩, none, none, none⟩ ∧
      ¬TranscriptsAgree emptyKeyCrates (engagementOf (2 ^ 32 + 1))
        ⟨"1.0", ⟨1, ⟨.map [], [160]⟩⟩, none, none, none⟩ := by
  refine ⟨engagementOf_accepted (2 ^ 32 + 1), fun hagree => ?_⟩
  obtain ⟨items, hitems, hsame⟩ := hagree.reencoded
  cases hitems
  have hsuite := sameUpToNulls_iff.1 hsame 1
  cases hsuite

end AffinidiTdk.Mdoc
