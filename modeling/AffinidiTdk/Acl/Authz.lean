/-
The permission decisions of the mediator (`common/authz.rs`): capability gates, the check of a
self-initiated ACL change, and the replay window of admin messages.
-/
import AffinidiTdk.Acl.Word
import Mathlib.Data.List.Basic

namespace AffinidiTdk.Acl

open List
open MediatorACLSet

/-! ## Capabilities -/

/-- What a guard of a handler can ask of the ACL of a session. -/
inductive Capability
  | notBlocked
  | local
  | sendMessages
  | receiveMessages
  | sendForwarded
  | receiveForwarded
  | createInvites
  | anonReceive

def grants (acls : MediatorACLSet) : Capability → Bool
  | .notBlocked => !acls.getBlocked
  | .local => acls.getLocal
  | .sendMessages => acls.getSendMessages.1
  | .receiveMessages => acls.getReceiveMessages.1
  | .sendForwarded => acls.getSendForwarded.1
  | .receiveForwarded => acls.getReceiveForwarded.1
  | .createInvites => acls.getCreateInvites.1
  | .anonReceive => acls.getAnonReceive.1

/-! ## Self-initiated changes -/

/-- The two tests made for one capability: its value moves only under its `self_change` flag, and
the flag itself never moves. -/
def changeErrors {α : Type} [DecidableEq α] (name : String) (current new : α × Bool) : List String :=
  (if current.1 ≠ new.1 ∧ ¬current.2 then [s!"{name} not allowed to change"] else []) ++
    (if current.2 ≠ new.2 then [s!"{name}:self_change can't modify!"] else [])

/-- The disallowed modifications of a self-initiated ACL change, `none` when there are none. -/
def aclChangeOk (currentAcls newAcls : MediatorACLSet) : Option (List String) :=
  let errors :=
    changeErrors "access_list_mode" currentAcls.getAccessListMode newAcls.getAccessListMode ++
    changeErrors "send_messages" currentAcls.getSendMessages newAcls.getSendMessages ++
    changeErrors "receive_messages" currentAcls.getReceiveMessages newAcls.getReceiveMessages ++
    changeErrors "send_forwarded" currentAcls.getSendForwarded newAcls.getSendForwarded ++
    changeErrors "get_receive_forwarded" currentAcls.getReceiveForwarded newAcls.getReceiveForwarded ++
    changeErrors "create_invites" currentAcls.getCreateInvites newAcls.getCreateInvites ++
    changeErrors "anon_receive" currentAcls.getAnonReceive newAcls.getAnonReceive
  if errors.isEmpty then none else some errors

/-- The value bits with a `self_change` companion (the bit after each). -/
def selfServiceBits : List ℕ := [0, 4, 6, 8, 10, 12, 14]

/-- What one capability's test lets through, on the bits of the two words. -/
def PairOk (cur new : BitVec 64) (bit : ℕ) : Prop :=
  (cur.getLsbD bit ≠ new.getLsbD bit → cur.getLsbD (bit + 1) = true) ∧
    cur.getLsbD (bit + 1) = new.getLsbD (bit + 1)

theorem changeErrors_eq_nil_iff {α : Type} [DecidableEq α] (name : String) (current new : α × Bool) :
    changeErrors name current new = [] ↔ (current.1 ≠ new.1 → current.2 = true) ∧ current.2 = new.2 := by
  unfold changeErrors
  by_cases h1 : current.1 = new.1 <;> by_cases h2 : current.2 = new.2 <;> simp [h1, h2]

theorem changeErrors_bits_eq_nil_iff (name : String) (cur new : BitVec 64) (bit : ℕ) :
    changeErrors name ((fromU64 cur).genericGet bit, (fromU64 cur).genericGet (bit + 1))
      ((fromU64 new).genericGet bit, (fromU64 new).genericGet (bit + 1)) = [] ↔ PairOk cur new bit := by
  rw [changeErrors_eq_nil_iff, genericGet_eq, genericGet_eq, genericGet_eq, genericGet_eq]
  rfl

theorem changeErrors_mode_eq_nil_iff (name : String) (cur new : BitVec 64) :
    changeErrors name (fromU64 cur).getAccessListMode (fromU64 new).getAccessListMode = [] ↔
      PairOk cur new 0 := by
  rw [changeErrors_eq_nil_iff, getAccessListMode_eq, getAccessListMode_eq]
  unfold PairOk fromU64
  cases cur.getLsbD 0 <;> cases new.getLsbD 0 <;> simp

/-- The gate passes exactly where each of the seven pairs passes. -/
theorem aclChangeOk_eq_none_iff (cur new : BitVec 64) :
    aclChangeOk (fromU64 cur) (fromU64 new) = none ↔ ∀ bit ∈ selfServiceBits, PairOk cur new bit := by
  unfold aclChangeOk
  simp only [ite_eq_left_iff, reduceCtorEq, imp_false, not_not, List.isEmpty_iff, append_eq_nil_iff]
  have hsend := changeErrors_bits_eq_nil_iff "send_messages" cur new 4
  have hrecv := changeErrors_bits_eq_nil_iff "receive_messages" cur new 6
  have hsfwd := changeErrors_bits_eq_nil_iff "send_forwarded" cur new 8
  have hrfwd := changeErrors_bits_eq_nil_iff "get_receive_forwarded" cur new 10
  have hinv := changeErrors_bits_eq_nil_iff "create_invites" cur new 12
  have hanon := changeErrors_bits_eq_nil_iff "anon_receive" cur new 14
  unfold getSendMessages getReceiveMessages getSendForwarded getReceiveForwarded getCreateInvites
    getAnonReceive
  rw [changeErrors_mode_eq_nil_iff, hsend, hrecv, hsfwd, hrfwd, hinv, hanon]
  simp [selfServiceBits, and_assoc]

/-! ## What the gate covers -/

/-- `new` differs from `cur` in value bits only whose companion bit is set in `cur`. -/
def SelfChangeOnly (cur new : BitVec 64) : Prop :=
  ∀ i < 64, cur.getLsbD i ≠ new.getLsbD i → i ∈ selfServiceBits ∧ cur.getLsbD (i + 1) = true

/-- The bits no comparison of the gate reads: `blocked`, `local`, the three `self_manage` bits and
everything above them. -/
def Unchecked (i : ℕ) : Prop := i = 2 ∨ i = 3 ∨ 16 ≤ i ∧ i < 64

def AgreeUnchecked (cur new : BitVec 64) : Prop := ∀ i, Unchecked i → cur.getLsbD i = new.getLsbD i

instance (i : ℕ) : Decidable (Unchecked i) := by unfold Unchecked; infer_instance

theorem selfChangeOnly_iff_agreeUnchecked {cur new : BitVec 64}
    (hok : aclChangeOk (fromU64 cur) (fromU64 new) = none) :
    SelfChangeOnly cur new ↔ AgreeUnchecked cur new := by
  rw [aclChangeOk_eq_none_iff] at hok
  constructor
  · intro h i hi
    by_contra hne
    obtain ⟨hmem, -⟩ := h i (by unfold Unchecked at hi; omega) hne
    simp only [selfServiceBits, mem_cons, not_mem_nil, or_false] at hmem
    unfold Unchecked at hi
    omega
  · intro h i hi hne
    by_cases hu : Unchecked i
    · exact absurd (h i hu) hne
    · by_cases hmem : i ∈ selfServiceBits
      · exact ⟨hmem, (hok i hmem).1 hne⟩
      · -- what is left are the companion bits, which never move
        obtain ⟨bit, hbit, rfl⟩ : ∃ bit ∈ selfServiceBits, i = bit + 1 := by
          simp only [selfServiceBits, mem_cons, not_mem_nil, or_false, not_or] at hmem
          unfold Unchecked at hu
          refine ⟨i - 1, ?_, by omega⟩
          simp only [selfServiceBits, mem_cons, not_mem_nil, or_false]
          omega
        exact absurd (hok bit hbit).2 hne

theorem SelfChangeOnly.refl (w : BitVec 64) : SelfChangeOnly w w := by
  intro i _ hne
  exact absurd rfl hne

theorem SelfChangeOnly.companion_eq {cur new : BitVec 64} (h : SelfChangeOnly cur new) {bit : ℕ}
    (hbit : bit ∈ selfServiceBits) : cur.getLsbD (bit + 1) = new.getLsbD (bit + 1) := by
  by_contra hne
  simp only [selfServiceBits, mem_cons, not_mem_nil, or_false] at hbit
  obtain ⟨hmem, -⟩ := h (bit + 1) (by omega) hne
  simp only [selfServiceBits, mem_cons, not_mem_nil, or_false] at hmem
  omega

theorem SelfChangeOnly.trans {a b c : BitVec 64} (hab : SelfChangeOnly a b) (hbc : SelfChangeOnly b c) :
    SelfChangeOnly a c := by
  intro i hi hne
  by_cases heq : a.getLsbD i = b.getLsbD i
  · obtain ⟨hmem, hset⟩ := hbc i hi (heq ▸ hne)
    exact ⟨hmem, (hab.companion_eq hmem).trans hset⟩
  · exact hab i hi heq

theorem SelfChangeOnly.aclChangeOk_eq_none {cur new : BitVec 64} (h : SelfChangeOnly cur new) :
    aclChangeOk (fromU64 cur) (fromU64 new) = none := by
  rw [aclChangeOk_eq_none_iff]
  intro bit hbit
  have hlt : bit < 64 := by
    simp only [selfServiceBits, mem_cons, not_mem_nil, or_false] at hbit
    omega
  exact ⟨fun hne => (h bit hlt hne).2, h.companion_eq hbit⟩

theorem SelfChangeOnly.eq_zero {new : BitVec 64} (h : SelfChangeOnly 0 new) : new = 0 := by
  apply BitVec.eq_of_getLsbD_eq
  intro i hi
  by_contra hne
  obtain ⟨-, hset⟩ := h i hi (Ne.symm hne)
  simp at hset

/-! ## The replay window of admin messages -/

/-- How old an admin message is against the replay window. -/
inductive AdminTtlStatus
  | ok
  | expired (createdTime : ℕ)
  | missing

/-- `u64::saturating_add`. -/
def saturatingAddU64 (a b : ℕ) : ℕ := min (a + b) (2 ^ 64 - 1)

def adminMessageTtlStatus (createdTime : Option ℕ) (expiry now : ℕ) : AdminTtlStatus :=
  match createdTime with
  | some ct => if saturatingAddU64 ct expiry ≤ now ∨ ct > now then .expired ct else .ok
  | none => .missing

end AffinidiTdk.Acl
