/-
What a standard session can do to the account of somebody else through the account protocol. Two
requests reach such an account by design: the removal of the session's own account drains the queue
counters of those whose messages it held, and a change of type is granted on the stored role of the
requester, not on the session's.
-/
import AffinidiTdk.Mediator.Accounts

namespace AffinidiTdk.Mediator.Accounts

open Acl Store Fallible

variable {state : SharedData} {session : Session} {metadata : UnpackMetadata} {s s' : MemoryState}
  {k : String} {r : AccountRecord}

theorem isAdmin_eq_false_of_standard (hstd : session.accountType = .standard) : session.isAdmin = false := by
  simp [Session.isAdmin, hstd]

theorem eq_didHash_of_checkPermissions (hadmin : session.isAdmin = false) {didHash : String} {check : Bool}
    {signBy : Option String} (h : checkPermissions session [didHash] check signBy = true) :
    didHash = session.didHash := by
  simpa [checkPermissions, hadmin] using h

/-- What became of the record `r` of another account under `request`. -/
inductive OtherAccount (session : Session) (s : MemoryState) (k : String) (r : AccountRecord) :
    MediatorAccountRequest → AccountRecord → Prop
  | unchanged (request : MediatorAccountRequest) : OtherAccount session s k r request r
  | retyped (type : AccountType) (hadmin : StoredAdmin s session.didHash) (hnew : type ≠ .rootAdmin)
      (hold : r.role ≠ .rootAdmin) : OtherAccount session s k r (.accountChangeType k type) { r with role := type }
  | drained (r' : AccountRecord) (hnames : InboxNames s session.didHash k) (hdrained : Drained r r') :
      OtherAccount session s k r (.accountRemove session.didHash) r'

/-- Request by request: where the store operation of an accepted request leaves another account. -/
theorem effect_otherAccount (hstd : session.accountType = .standard) {senderKid : Option String}
    (hne : k ≠ session.didHash) (hk : s.accounts k = some r) {request : MediatorAccountRequest}
    (hadd : ∀ acls, request ≠ .accountAdd k acls) (hacc : Accepts state session senderKid s request) :
    ∃ r', (effect state session s request).accounts k = some r' ∧ OtherAccount session s k r request r' := by
  have hadmin := isAdmin_eq_false_of_standard hstd
  cases request with
  | accountGet didHash | accountList cursor limit => exact ⟨r, hk, .unchanged _⟩
  | accountAdd didHash acls =>
    have hdid : k ≠ didHash := fun h => hadd acls (h ▸ rfl)
    refine ⟨r, ?_, .unchanged _⟩
    rw [effect, accountAdd_accounts, if_neg hdid, hk]
  | accountRemove didHash =>
    obtain ⟨hperm, -, -, hrem⟩ := hacc
    obtain rfl := eq_didHash_of_checkPermissions hadmin hperm
    obtain ⟨r', hr', hdr, hsame⟩ := accountRemove_drained (accountRemove_of_removable hrem) hne hk
    refine ⟨r', hr', ?_⟩
    by_cases hnames : InboxNames s session.didHash k
    · exact .drained r' hnames hdr
    · rw [hsame hnames]
      exact .unchanged _
  | accountChangeType didHash type =>
    obtain ⟨hstored, hnew, hold⟩ := hacc
    rw [effect, changeRole_accounts]
    by_cases hdid : k = didHash
    · subst hdid
      refine ⟨{ r with role := type }, by simp [hk], .retyped type hstored ?_ ?_⟩
      · exact fun h => by simp [hstd] at hnew; exact hnew h
      · exact fun h => by simp [hstd, hk] at hold; exact hold h
    · exact ⟨r, by rw [if_neg hdid, hk], .unchanged _⟩
  | accountChangeQueueLimits didHash send receive =>
    have hdid : k ≠ didHash := eq_didHash_of_checkPermissions hadmin hacc ▸ hne
    refine ⟨r, ?_, .unchanged _⟩
    simp only [effect, Store.accountChangeQueueLimits]
    rw [upsertAccount_accounts, if_neg hdid, hk]

/-- An accepted request of a standard session leaves the record of another account as it is, unless
it drains the counters of an account that has messages in the removed inbox, or comes from a stored
admin and changes the role. -/
theorem process_isolates (hstd : session.accountType = .standard) {msg : Message MediatorAccountRequest}
    {request : MediatorAccountRequest} (hbody : msg.body = some request) {response : ProcessMessageResponse}
    (h : exec (process msg state session metadata) s = (.ok response, s')) (hne : k ≠ session.didHash)
    (hk : s.accounts k = some r) (hadd : ∀ acls, request ≠ .accountAdd k acls) :
    ∃ r', s'.accounts k = some r' ∧ OtherAccount session s k r request r' := by
  obtain ⟨⟨-, hacc⟩, hobs⟩ := (process_meets hbody).sound response s' h
  have haccounts : (withoutAudit s').accounts k = (withoutAudit (effect state session s request)).accounts k := by
    rw [hobs]
  obtain ⟨r', hr', hother⟩ := effect_otherAccount hstd hne hk hadd hacc
  exact ⟨r', haccounts.trans hr', hother⟩

/-! ## The two requests that reach another account -/

section Reach

def alice : Session := ⟨"s", "did:example:alice", "h:did:example:alice", .fromU64 0, .standard⟩

/-- Bob's message waits in Alice's inbox; the store also lists Alice as an admin when `admin`. -/
def aliceAndBob (admin : Bool) : MemoryState :=
  let st : MemoryState := { (default : MemoryState) with
    accounts := Function.update (Function.update (fun _ => none) alice.didHash
      (some { (default : AccountRecord) with role := if admin then .admin else .standard })) "h:did:example:bob"
      (some default)
    admins := if admin then {alice.didHash} else ∅ }
  (storeMessage (fun body => "h:" ++ body) 1000 "hello" alice.didHash (some "h:did:example:bob") 0 st).2

/-- Alice removes her own account and Bob's send queue shrinks; Alice, stored as an admin, makes
Bob one from a session that is still standard. -/
theorem process_reaches_bob :
    alice.accountType = .standard ∧ "h:did:example:bob" ≠ alice.didHash ∧
    (let out := exec (process ⟨"m", none, some (.accountRemove alice.didHash)⟩ plainState alice ⟨none, none⟩)
      (aliceAndBob false)
     out.1.isOk = true ∧
      ((aliceAndBob false).accounts "h:did:example:bob").map AccountRecord.sendQueueCount = some 1 ∧
      (out.2.accounts "h:did:example:bob").map AccountRecord.sendQueueCount = some 0) ∧
    (let out := exec (process ⟨"m", none, some (.accountChangeType "h:did:example:bob" .admin)⟩ plainState alice
        ⟨none, none⟩) (aliceAndBob true)
     out.1.isOk = true ∧
      ((aliceAndBob true).accounts "h:did:example:bob").map AccountRecord.role = some .standard ∧
      (out.2.accounts "h:did:example:bob").map AccountRecord.role = some .admin) := by
  decide +kernel

def limitsRequest : Message MediatorAccountRequest :=
  ⟨"m", none, some (.accountChangeQueueLimits alice.didHash (some 5) none)⟩

/-- A change of Alice's own queue limits leaves Bob alone. -/
theorem process_isolates_bob :
    ∃ response s', exec (process limitsRequest plainState alice ⟨none, none⟩) (aliceAndBob false) =
        (.ok response, s') ∧
      ∃ r', s'.accounts "h:did:example:bob" = some r' ∧
        OtherAccount alice (aliceAndBob false) "h:did:example:bob"
          { (default : AccountRecord) with sendQueueCount := 1, sendQueueBytes := 5 }
          (.accountChangeQueueLimits alice.didHash (some 5) none) r' := by
  have hmeets : Meets withoutAudit (process limitsRequest plainState alice ⟨none, none⟩) (aliceAndBob false) _ _ :=
    process_meets rfl
  obtain ⟨response, s', h⟩ := hmeets.complete ⟨fun hadmin => absurd hadmin (by decide), rfl⟩
  exact ⟨response, s', h, process_isolates rfl rfl h (by decide) rfl fun _ h => by cases h⟩

end Reach

end AffinidiTdk.Mediator.Accounts
