/-
Self-service ACL changes: what a SetACL request does to the store, and how far any sequence of
them by a session that is no admin can move the session's own ACL word. The gate compares the
seven value/self_change pairs; the handler stores the whole requested word.
-/
import AffinidiTdk.Mediator.Acls
import Mathlib.Tactic.IntervalCases

namespace AffinidiTdk.Mediator.Acls

open Acl Store Fallible

section Spec

variable {state : SharedData} {session : Session} {msgId : String} {senderKid : Option String}
  {s s' : MemoryState}

variable {didHash : String} {acls : BitVec 64}

theorem exec_setACL_eq_ok_iff {response : ProcessMessageResponse} :
    exec (setACL state session msgId senderKid didHash acls) s = (.ok response, s') ↔ checkPermissions session
    [didHash] state.config.security.blockRemoteAdminMsgs senderKid = true ∧
    (session.isAdmin = false → aclChangeOk (.fromU64 (currentWord state didHash s)) (.fromU64 acls) = none) ∧
    withAudit state session didHash .setAcl ("acls=0x" ++ hex16 acls) (setDidAcl didHash (.fromU64 acls) s).2 =
    s' ∧ respond state session msgId (.acls (.fromU64 acls)) = response := by
  unfold setACL
  simp only [exec_bind_eq_ok_iff, exec_when_eq_ok_iff, exec_requirePermissions_eq_ok_iff,
    exec_checkSelfChange_eq_ok_iff, exec_storeCall_eq_ok_iff, exec_recordAudit_eq_ok_iff, exec_pure_eq_ok_iff]
  constructor
  · rintro ⟨_, _, ⟨hperm, rfl⟩, s₁, hok, hskip, a, _, hset, _, _, rfl, rfl, rfl⟩
    obtain rfl : s = s₁ := by
      cases hadmin : session.isAdmin with
      | false => exact (hok (by simp [hadmin])).2
      | true => exact hskip (by simp [hadmin])
    cases hset
    exact ⟨hperm, fun hadmin => (hok (by simp [hadmin])).1, rfl, rfl⟩
  · rintro ⟨hperm, hok, rfl, rfl⟩
    exact ⟨(), s, ⟨hperm, rfl⟩, s, fun hadmin => ⟨hok (by simpa using hadmin), rfl⟩, fun _ => rfl,
      _, _, rfl, (), _, rfl, rfl, rfl⟩

theorem requirePermissions_readOnly {dids : List String} {comment : String} :
    ReadOnly (requirePermissions state session msgId senderKid dids comment) := by
  unfold requirePermissions
  split
  · exact readOnly_throw _
  · exact readOnly_pure _

theorem checkSelfChange_readOnly : ReadOnly (checkSelfChange state session msgId didHash acls) := by
  unfold checkSelfChange
  apply ReadOnly.bind (storeCall_readOnly fun _ => rfl)
  intro stored
  dsimp only
  split
  · exact readOnly_pure _
  · exact readOnly_throw _

theorem setACL_atomic : Atomic (setACL state session msgId senderKid didHash acls) := by
  have hwrite : Total (do
      let response ← storeCall session msgId (setDidAcl didHash (.fromU64 acls))
      recordAudit state session didHash .setAcl ("acls=0x" ++ hex16 acls)
      return respond state session msgId (.acls response)) :=
    Total.bind (storeCall_total fun _ => ⟨_, _, rfl⟩) fun _ =>
      Total.bind recordAudit_total fun _ => total_pure _
  unfold setACL
  apply ReadOnly.bind_atomic requirePermissions_readOnly
  intro _
  split
  · exact ReadOnly.bind_atomic checkSelfChange_readOnly fun _ => hwrite.atomic
  · exact hwrite.atomic

end Spec

/-! ## Sequences of requests -/

section Run

/-- A SetACL request of a session for its own account, with the clock it arrives at. -/
structure SelfRequest where
  msgId : String
  createdTime : Option ℕ
  metadata : UnpackMetadata
  now : ℕ
  acls : BitVec 64

variable (state : SharedData) (session : Session)

/-- The store after a request, answered or refused. -/
def submit (st : MemoryState) (request : SelfRequest) : MemoryState :=
  (exec (process ⟨request.msgId, request.createdTime, some (.setACL session.didHash request.acls)⟩
    { state with now := request.now } session request.metadata) st).2

def submitAll (st : MemoryState) (requests : List SelfRequest) : MemoryState :=
  requests.foldl (submit state session) st

/-- Each request repeats the bits that the gate does not read, as they are when it arrives. -/
def Conforming : MemoryState → List SelfRequest → Prop
  | _, [] => True
  | st, request :: rest =>
    AgreeUnchecked (currentWord state session.didHash st) request.acls ∧
      Conforming (submit state session st request) rest

variable {state session}

theorem process_setACL (hsession : session.isAdmin = false) (msgId : String) (createdTime : Option ℕ)
    (acls : BitVec 64) (metadata : UnpackMetadata) :
    process ⟨msgId, createdTime, some (.setACL session.didHash acls)⟩ state session metadata =
      setACL state session msgId metadata.senderKid session.didHash acls := by
  unfold process
  rw [if_neg (by simp [hsession])]
  rfl

variable {st : MemoryState}

/-- One request moves the word inside what the self_change bits allow. -/
theorem submit_selfChangeOnly (hsession : session.isAdmin = false) {request : SelfRequest}
    (hagree : AgreeUnchecked (currentWord state session.didHash st) request.acls) :
    SelfChangeOnly (currentWord state session.didHash st)
    (currentWord state session.didHash (submit state session st request)) := by
  unfold submit
  rw [process_setACL hsession]
  rcases hex : exec (setACL { state with now := request.now } session request.msgId
    request.metadata.senderKid session.didHash request.acls) st with ⟨e | response, st'⟩
  · obtain rfl := setACL_atomic st e st' hex
    exact SelfChangeOnly.refl _
  · obtain ⟨-, hok, rfl, -⟩ := exec_setACL_eq_ok_iff.1 hex
    have hword : ∀ audit, currentWord state session.didHash
        { (setDidAcl session.didHash (.fromU64 request.acls) st).2 with auditLog := audit } =
        request.acls := by
      intro audit
      simp [currentWord, setDidAcl, MemoryState.upsertAccount, MediatorACLSet.toU64, MediatorACLSet.fromU64]
    change SelfChangeOnly _ (currentWord state session.didHash
      { (setDidAcl session.didHash (.fromU64 request.acls) st).2 with auditLog := _ })
    rw [hword]
    exact (selfChangeOnly_iff_agreeUnchecked (hok hsession)).2 hagree

theorem submitAll_selfChangeOnly (hsession : session.isAdmin = false) {requests : List SelfRequest}
    (hconf : Conforming state session st requests) : SelfChangeOnly (currentWord state session.didHash st)
    (currentWord state session.didHash (submitAll state session st requests)) := by
  -- the self_change bits never move, so the steps compose
  induction requests generalizing st with
  | nil => exact SelfChangeOnly.refl _
  | cons request rest ih =>
    obtain ⟨hagree, hrest⟩ := hconf
    exact (submit_selfChangeOnly hsession hagree).trans (ih hrest)

/-- The gate keeps a self-service change inside the self_change bits exactly where the requested
word repeats the bits it does not read; and so does every sequence of such requests. -/
theorem aclChangeOk_confines_iff (state : SharedData) (session : Session) :
    (∀ cur new : BitVec 64, aclChangeOk (.fromU64 cur) (.fromU64 new) = none →
      (SelfChangeOnly cur new ↔ AgreeUnchecked cur new)) ∧
    (session.isAdmin = false → ∀ (st : MemoryState) (requests : List SelfRequest),
      Conforming state session st requests → SelfChangeOnly (currentWord state session.didHash st)
          (currentWord state session.didHash (submitAll state session st requests))) := by
  refine ⟨?_, ?_⟩
  · intro cur new hok
    exact selfChangeOnly_iff_agreeUnchecked hok
  · intro hsession st requests hconf
    exact submitAll_selfChangeOnly hsession hconf

end Run

/-! ## A blocked account -/

section Blocked

def mallory : Session := ⟨"s", "did:example:mallory", "h:did:example:mallory", .fromU64 4, .standard⟩

/-- Mallory's account, blocked and without any self_change bit. -/
def blockedStore : MemoryState :=
  { (default : MemoryState) with
    accounts := Function.update (fun _ => none) "h:did:example:mallory"
      (some { (default : AccountRecord) with acls := .fromU64 4 }) }

/-- Unblocks the account and takes the local and the three self_manage bits, and bit 63. -/
def grab : SelfRequest := ⟨"m", none, ⟨none, none⟩, 1000, 0x8000000000070008#64⟩

/-- The gate passes, no moved bit is a self-service bit, and the stored word is the requested one. -/
theorem aclChangeOk_misses_blocked :
    aclChangeOk (.fromU64 4#64) (.fromU64 0x8000000000070008#64) = none ∧
    ¬SelfChangeOnly 4#64 0x8000000000070008#64 ∧
    currentWord plainState mallory.didHash blockedStore = 4#64 ∧
    currentWord plainState mallory.didHash (submitAll plainState mallory blockedStore [grab]) =
      0x8000000000070008#64 := by
  refine ⟨by decide, ?_, by decide, by decide +kernel⟩
  intro h
  have := h 2 (by decide) (by decide)
  revert this
  decide

/-- With the self_change bit of `send_messages` set, the value bit moves and nothing else. -/
theorem confined_sendMessages :
    SelfChangeOnly 0x20#64 0x30#64 ∧
    SelfChangeOnly
      (currentWord plainState mallory.didHash blockedStore)
      (currentWord plainState mallory.didHash
        (submitAll plainState mallory blockedStore [{ grab with acls := 4#64 }])) := by
  constructor
  · apply ((aclChangeOk_confines_iff plainState mallory).1 0x20#64 0x30#64 (by decide)).2
    intro i hi
    obtain rfl | rfl | ⟨h16, h64⟩ := hi
    · decide
    · decide
    · interval_cases i <;> decide
  · apply (aclChangeOk_confines_iff plainState mallory).2 (by decide)
    refine ⟨?_, trivial⟩
    intro i _
    rfl

end Blocked

end AffinidiTdk.Mediator.Acls
