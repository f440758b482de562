/-
ACL updates in their wire form: the merged word is the base word with the value bits of the flags that are present, and
what passes the check of a standard account moves no other bit than those it may change itself.
-/
import AffinidiTdk.Mediator.TrustTasks

namespace AffinidiTdk.Mediator.TrustTasks

open Acl Acl.MediatorACLSet Fallible List Store

/-! ## The requested word -/

/-- What the wire form asks of a bit of the word: the layout of the value bits. -/
def requestedBit (acl : MediatorAcl) : ℕ → Option Bool
  | 0 => acl.accessListMode.map fun mode => decide (mode = .explicitDeny)
  | 2 => acl.blocked
  | 3 => acl.isLocal
  | 4 => acl.sendMessages
  | 6 => acl.receiveMessages
  | 8 => acl.sendForwarded
  | 10 => acl.receiveForwarded
  | 12 => acl.createInvites
  | 14 => acl.anonReceive
  | 16 => acl.selfManageList
  | 17 => acl.selfManageSendQueueLimit
  | 18 => acl.selfManageReceiveQueueLimit
  | _ => none

theorem mem_flags_iff {acl : MediatorAcl} {i : ℕ} {v : Bool} :
    (i, some v) ∈ acl.flags ↔ requestedBit acl i = some v := by
  constructor
  · intro h
    simp only [MediatorAcl.flags, mem_cons, Prod.mk.injEq, not_mem_nil, or_false] at h
    rcases h with ⟨rfl, h⟩ | ⟨rfl, h⟩ | ⟨rfl, h⟩ | ⟨rfl, h⟩ | ⟨rfl, h⟩ | ⟨rfl, h⟩ | ⟨rfl, h⟩ | ⟨rfl, h⟩ | ⟨rfl, h⟩ |
      ⟨rfl, h⟩ | ⟨rfl, h⟩ | ⟨rfl, h⟩
    all_goals exact h.symm
  · intro h
    unfold requestedBit at h
    split at h
    all_goals first | cases h | (rw [← h]; simp only [MediatorAcl.flags, mem_cons, true_or, or_true])

theorem foldl_writeBit_of_mem {flags : List (ℕ × Option Bool)} (hbits : ∀ flag ∈ flags, flag.1 ≤ 63)
    (hnodup : (flags.map Prod.fst).Nodup) {i : ℕ} {v : Bool} (hmem : (i, some v) ∈ flags) (base : MediatorACLSet) :
    (flags.foldl writeBit base).acl.getLsbD i = v := by
  induction flags generalizing base with
  | nil => cases hmem
  | cons flag rest ih =>
    rw [map_cons, nodup_cons] at hnodup
    have hrest := fun f hf => hbits f (mem_cons_of_mem _ hf)
    rw [foldl_cons]
    rcases mem_cons.1 hmem with rfl | hmem
    · have hkept : (rest.foldl writeBit (writeBit base (i, some v))).acl.getLsbD i =
          (writeBit base (i, some v)).acl.getLsbD i := by
        by_contra hne
        exact hnodup.1 (mem_map.2 ⟨_, mem_of_foldl_writeBit_ne hrest hne, rfl⟩)
      rw [hkept]
      show (base.genericSet i v).acl.getLsbD i = v
      rw [getLsbD_genericSet (hbits _ mem_cons_self), if_pos rfl]
    · exact ih hrest hnodup.2 hmem _

/-- Bit by bit: the requested value where there is one, else the bit of the base. -/
theorem getLsbD_mergedOnto (acl : MediatorAcl) (base : MediatorACLSet) (i : ℕ) :
    (acl.mergedOnto base).acl.getLsbD i = (requestedBit acl i).getD (base.acl.getLsbD i) := by
  have hnodup : (acl.flags.map Prod.fst).Nodup := by
    show ([0, 2, 3, 4, 6, 8, 10, 12, 14, 16, 17, 18] : List ℕ).Nodup
    decide
  cases hbit : requestedBit acl i with
  | some v => exact foldl_writeBit_of_mem acl.flags_le hnodup (mem_flags_iff.2 hbit) base
  | none =>
    by_contra hne
    have hmem := mem_flags_iff.1 (mem_of_foldl_writeBit_ne acl.flags_le hne)
    rw [hbit] at hmem
    cases hmem

/-! ## The check of a standard account -/

theorem exec_ensureSelfManageable_eq_ok_iff {session : Session} {acl : MediatorAcl} {base : MediatorACLSet}
    {s s' : MemoryState} :
    exec (ensureSelfManageable session acl base) s = (.ok (), s') ↔ deniedFlag acl base = none ∧ s = s' := by
  unfold ensureSelfManageable
  cases deniedFlag acl base with
  | none => simp [exec_pure]
  | some flag => simp [exec_throw]

/-- **A wire ACL update** succeeds and writes just the value bits of the flags it has; the decoded form of a word gives
the word back; and an update that a standard account may make is a self-service change, which the other gate takes. -/
theorem mergeWireAcl_exact (b : BitVec 64) (acl : MediatorAcl) :
    (∃ merged, mergeWireAcl acl (.fromU64 b) = .ok merged ∧
      (∀ i < 64, merged.toU64.getLsbD i = (requestedBit acl i).getD (b.getLsbD i)) ∧
      ∀ session s s', exec (ensureSelfManageable session acl (.fromU64 b)) s = (.ok (), s') →
        SelfChangeOnly b merged.toU64 ∧ aclChangeOk (.fromU64 b) merged = none) ∧
    ∃ merged, mergeWireAcl (decodeAclCanonical (.fromU64 b)) (.fromU64 b) = .ok merged ∧ merged.toU64 = b := by
  refine ⟨⟨acl.mergedOnto (.fromU64 b), mergeWireAcl_eq acl _, fun i _ => getLsbD_mergedOnto acl _ i,
    fun session s s' h => ?_⟩, ⟨_, mergeWireAcl_decodeAclCanonical _, rfl⟩⟩
  have honly := selfChangeOnly_mergedOnto (exec_ensureSelfManageable_eq_ok_iff.1 h).1
  exact ⟨honly, honly.aclChangeOk_eq_none⟩

end AffinidiTdk.Mediator.TrustTasks
