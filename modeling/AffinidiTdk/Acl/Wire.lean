/-
The wire form of an ACL set (`MediatorAcl` of the messaging Trust Tasks, `trust_tasks.rs`): named
optional flags, the decoding of a word into them, their merge onto a word as a partial update, and
the check of what a standard account may change itself. The wire's `didcommEnabled` and
`tspEnabled` have no bit and are left out; the JSON round trips between the generated copies of
the type are the identity.
-/
import AffinidiTdk.Acl.Authz

namespace AffinidiTdk.Acl

open List MediatorACLSet

def ACLError.display : ACLError → String
  | .config msg => "ACL configuration error: " ++ msg
  | .denied msg => "ACL denied: " ++ msg

/-- The ACL as the trust tasks write it; an absent member leaves the flag as it is. -/
structure MediatorAcl where
  accessListMode : Option AccessListModeType
  blocked : Option Bool
  isLocal : Option Bool
  sendMessages : Option Bool
  receiveMessages : Option Bool
  sendForwarded : Option Bool
  receiveForwarded : Option Bool
  createInvites : Option Bool
  anonReceive : Option Bool
  selfManageList : Option Bool
  selfManageSendQueueLimit : Option Bool
  selfManageReceiveQueueLimit : Option Bool

instance : Inhabited MediatorAcl :=
  ⟨⟨none, none, none, none, none, none, none, none, none, none, none, none⟩⟩

def decodeAclCanonical (acl : MediatorACLSet) : MediatorAcl where
  accessListMode := some acl.getAccessListMode.1
  blocked := some acl.getBlocked
  isLocal := some acl.getLocal
  sendMessages := some acl.getSendMessages.1
  receiveMessages := some acl.getReceiveMessages.1
  sendForwarded := some acl.getSendForwarded.1
  receiveForwarded := some acl.getReceiveForwarded.1
  createInvites := some acl.getCreateInvites.1
  anonReceive := some acl.getAnonReceive.1
  selfManageList := some acl.getSelfManageList
  selfManageSendQueueLimit := some acl.getSelfManageSendQueueLimit
  selfManageReceiveQueueLimit := some acl.getSelfManageReceiveQueueLimit

/-! ## Merging -/

/-- A present flag with a companion bit is written as an admin would, the companion as it is. -/
def mergeFlag {α : Type} (set : MediatorACLSet → α → Bool → Bool → Except ACLError MediatorACLSet)
    (selfChange : MediatorACLSet → Bool) (value : Option α) (base : MediatorACLSet) :
    Except ACLError MediatorACLSet :=
  match value with
  | some v => set base v (selfChange base) true
  | none => .ok base

/-- A present flag without a companion bit. -/
def mergePlain (set : MediatorACLSet → Bool → MediatorACLSet) (value : Option Bool) (base : MediatorACLSet) :
    MediatorACLSet :=
  match value with
  | some v => set base v
  | none => base

def mergeWireAcl (acl : MediatorAcl) (base : MediatorACLSet) : Except ACLError MediatorACLSet := do
  let base ← mergeFlag setAccessListMode (fun base => base.getAccessListMode.2) acl.accessListMode base
  let base := mergePlain setBlocked acl.blocked base
  let base := mergePlain setLocal acl.isLocal base
  let base ← mergeFlag setSendMessages (fun base => base.getSendMessages.2) acl.sendMessages base
  let base ← mergeFlag setReceiveMessages (fun base => base.getReceiveMessages.2) acl.receiveMessages base
  let base ← mergeFlag setSendForwarded (fun base => base.getSendForwarded.2) acl.sendForwarded base
  let base ← mergeFlag setReceiveForwarded (fun base => base.getReceiveForwarded.2) acl.receiveForwarded base
  let base ← mergeFlag setCreateInvites (fun base => base.getCreateInvites.2) acl.createInvites base
  let base ← mergeFlag setAnonReceive (fun base => base.getAnonReceive.2) acl.anonReceive base
  let base := mergePlain setSelfManageList acl.selfManageList base
  let base := mergePlain setSelfManageSendQueueLimit acl.selfManageSendQueueLimit base
  let base := mergePlain setSelfManageReceiveQueueLimit acl.selfManageReceiveQueueLimit base
  return base

/-! ## The merge bit by bit -/

/-- A value for one bit, if there is one. -/
def writeBit (base : MediatorACLSet) (flag : ℕ × Option Bool) : MediatorACLSet :=
  match flag.2 with
  | some v => base.genericSet flag.1 v
  | none => base

/-- The flags of the wire form with the bits they stand for, in the order they are merged. -/
def MediatorAcl.flags (acl : MediatorAcl) : List (ℕ × Option Bool) :=
  [(0, acl.accessListMode.map fun mode => decide (mode = .explicitDeny)), (2, acl.blocked), (3, acl.isLocal),
    (4, acl.sendMessages), (6, acl.receiveMessages), (8, acl.sendForwarded), (10, acl.receiveForwarded),
    (12, acl.createInvites), (14, acl.anonReceive), (16, acl.selfManageList),
    (17, acl.selfManageSendQueueLimit), (18, acl.selfManageReceiveQueueLimit)]

theorem MediatorACLSet.eq_of_getLsbD {a b : MediatorACLSet} (h : ∀ i, a.acl.getLsbD i = b.acl.getLsbD i) :
    a = b := by
  cases a
  cases b
  congr 1
  exact BitVec.eq_of_getLsbD_eq fun i _ => h i

theorem genericSet_companion {bit : ℕ} (hbit : bit + 1 ≤ 63) (base : MediatorACLSet) (v : Bool) :
    (base.genericSet bit v).genericSet (bit + 1) (base.acl.getLsbD (bit + 1)) = base.genericSet bit v := by
  apply MediatorACLSet.eq_of_getLsbD
  intro i
  rw [getLsbD_genericSet hbit, getLsbD_genericSet (by omega)]
  by_cases hi : i = bit + 1
  · subst hi
    simp
  · rw [if_neg hi]

theorem mergeFlag_setFlag (bit : ℕ) (hbit : bit + 1 ≤ 63) (flag : String) (value : Option Bool)
    (base : MediatorACLSet) :
    mergeFlag (setFlag bit flag) (fun base => base.genericGet (bit + 1)) value base =
      .ok (writeBit base (bit, value)) := by
  cases value with
  | none => rfl
  | some v =>
    simp only [mergeFlag, setFlag_admin, genericGet_eq, writeBit]
    rw [genericSet_companion hbit]

theorem mergeFlag_setAccessListMode (value : Option AccessListModeType) (base : MediatorACLSet) :
    mergeFlag setAccessListMode (fun base => base.getAccessListMode.2) value base =
      .ok (writeBit base (0, value.map fun mode => decide (mode = .explicitDeny))) := by
  cases value with
  | none => rfl
  | some mode =>
    simp only [mergeFlag, setAccessListMode, setFlag_admin, getAccessListMode_eq, writeBit, Option.map_some]
    rw [genericSet_companion (by decide)]

/-- The word with the present flags written, one after the other. -/
def MediatorAcl.mergedOnto (acl : MediatorAcl) (base : MediatorACLSet) : MediatorACLSet :=
  acl.flags.foldl writeBit base

theorem mergeWireAcl_eq (acl : MediatorAcl) (base : MediatorACLSet) :
    mergeWireAcl acl base = .ok (acl.mergedOnto base) := by
  have hsend := mergeFlag_setFlag 4 (by decide) "send_messages ACL" acl.sendMessages
  have hrecv := mergeFlag_setFlag 6 (by decide) "receive_messages ACL" acl.receiveMessages
  have hsfwd := mergeFlag_setFlag 8 (by decide) "send_forwarded ACL" acl.sendForwarded
  have hrfwd := mergeFlag_setFlag 10 (by decide) "receive_forwarded ACL" acl.receiveForwarded
  have hinv := mergeFlag_setFlag 12 (by decide) "create_invites ACL" acl.createInvites
  have hanon := mergeFlag_setFlag 14 (by decide) "anon_receive ACL" acl.anonReceive
  unfold mergeWireAcl
  simp only [mergeFlag_setAccessListMode, setSendMessages, setReceiveMessages, setSendForwarded,
    setReceiveForwarded, setCreateInvites, setAnonReceive, getSendMessages, getReceiveMessages, getSendForwarded,
    getReceiveForwarded, getCreateInvites, getAnonReceive, hsend, hrecv, hsfwd, hrfwd, hinv, hanon, bind,
    Except.bind, MediatorAcl.mergedOnto, MediatorAcl.flags, foldl_cons, foldl_nil]
  rfl

variable {base : MediatorACLSet} {i : ℕ}

theorem mem_of_foldl_writeBit_ne {flags : List (ℕ × Option Bool)} (hbits : ∀ flag ∈ flags, flag.1 ≤ 63)
    (hne : (flags.foldl writeBit base).acl.getLsbD i ≠ base.acl.getLsbD i) :
    (i, some ((flags.foldl writeBit base).acl.getLsbD i)) ∈ flags := by
  induction flags generalizing base with
  | nil => exact absurd rfl hne
  | cons flag rest ih =>
    rw [foldl_cons] at hne ⊢
    by_cases hrest : (rest.foldl writeBit (writeBit base flag)).acl.getLsbD i = (writeBit base flag).acl.getLsbD i
    · -- the later flags leave the bit, so this one moved it
      rw [hrest] at hne ⊢
      obtain ⟨bit, value⟩ := flag
      have hbit : bit ≤ 63 := hbits (bit, value) mem_cons_self
      cases value with
      | none => exact absurd rfl hne
      | some v =>
        simp only [writeBit, getLsbD_genericSet hbit] at hne ⊢
        by_cases hi : i = bit
        · simp [hi]
        · simp [hi] at hne
    · exact mem_cons_of_mem _ (ih (fun f hf => hbits f (mem_cons_of_mem _ hf)) hrest)

theorem MediatorAcl.flags_le (acl : MediatorAcl) : ∀ flag ∈ acl.flags, flag.1 ≤ 63 := by
  simp [MediatorAcl.flags]

variable {v : Bool}

theorem mem_flags_decodeAclCanonical {acl : MediatorACLSet} (h : (i, some v) ∈ (decodeAclCanonical acl).flags) :
    v = acl.acl.getLsbD i := by
  simp only [MediatorAcl.flags, decodeAclCanonical, getBlocked, getLocal, getSendMessages, getReceiveMessages,
    getSendForwarded, getReceiveForwarded, getCreateInvites, getAnonReceive, getSelfManageList,
    getSelfManageSendQueueLimit, getSelfManageReceiveQueueLimit, genericGet_eq, getAccessListMode_eq,
    Option.map_some, mem_cons, Prod.mk.injEq, Option.some.injEq, not_mem_nil, or_false] at h
  rcases h with ⟨rfl, rfl⟩ | h
  · cases acl.acl.getLsbD 0 <;> simp
  · rcases h with ⟨rfl, rfl⟩ | ⟨rfl, rfl⟩ | ⟨rfl, rfl⟩ | ⟨rfl, rfl⟩ | ⟨rfl, rfl⟩ | ⟨rfl, rfl⟩ | ⟨rfl, rfl⟩ |
      ⟨rfl, rfl⟩ | ⟨rfl, rfl⟩ | ⟨rfl, rfl⟩ | ⟨rfl, rfl⟩ <;> rfl

theorem mergeWireAcl_decodeAclCanonical (acl : MediatorACLSet) :
    mergeWireAcl (decodeAclCanonical acl) acl = .ok acl := by
  rw [mergeWireAcl_eq]
  congr 1
  apply MediatorACLSet.eq_of_getLsbD
  intro i
  by_contra hne
  exact hne (mem_flags_decodeAclCanonical (mem_of_foldl_writeBit_ne (MediatorAcl.flags_le _) hne))

/-! ## What a standard account may change -/

/-- The flag is present and would change. -/
def wouldChange {α : Type} [DecidableEq α] (req cur : Option α) : Bool := req.isSome && req ≠ cur

/-- The first flag `ensure_self_manageable` denies. -/
def deniedFlag (req : MediatorAcl) (base : MediatorACLSet) : Option String :=
  let cur := decodeAclCanonical base
  if wouldChange req.accessListMode cur.accessListMode && !base.getAccessListMode.2 then some "accessListMode"
  else if wouldChange req.sendMessages cur.sendMessages && !base.getSendMessages.2 then some "sendMessages"
  else if wouldChange req.receiveMessages cur.receiveMessages && !base.getReceiveMessages.2 then
    some "receiveMessages"
  else if wouldChange req.sendForwarded cur.sendForwarded && !base.getSendForwarded.2 then some "sendForwarded"
  else if wouldChange req.receiveForwarded cur.receiveForwarded && !base.getReceiveForwarded.2 then
    some "receiveForwarded"
  else if wouldChange req.createInvites cur.createInvites && !base.getCreateInvites.2 then some "createInvites"
  else if wouldChange req.anonReceive cur.anonReceive && !base.getAnonReceive.2 then some "anonReceive"
  else if wouldChange req.blocked cur.blocked then some "blocked"
  else if wouldChange req.isLocal cur.isLocal then some "local"
  else if wouldChange req.selfManageList cur.selfManageList then some "selfManageList"
  else if wouldChange req.selfManageSendQueueLimit cur.selfManageSendQueueLimit then
    some "selfManageSendQueueLimit"
  else if wouldChange req.selfManageReceiveQueueLimit cur.selfManageReceiveQueueLimit then
    some "selfManageReceiveQueueLimit"
  else none

theorem ite_some_eq_none_iff {c : Bool} {flag : String} {rest : Option String} :
    (if c = true then some flag else rest) = none ↔ c = false ∧ rest = none := by
  cases c <;> simp

variable {req : Option Bool}

theorem companion_of_wouldChange {cur selfChange : Bool} (h : (wouldChange req (some cur) && !selfChange) = false)
    (hv : some v = req) (hne : v ≠ cur) : selfChange = true := by
  subst hv
  simpa [wouldChange, hne] using h

theorem eq_of_wouldChange {cur : Bool} (h : wouldChange req (some cur) = false) (hv : some v = req) : v = cur := by
  subst hv
  simpa [wouldChange] using h

/-- What passes: a flag that would change has a companion bit, and it is set. -/
theorem flag_of_deniedFlag_eq_none {req : MediatorAcl} (h : deniedFlag req base = none)
    (hmem : (i, some v) ∈ req.flags) (hne : v ≠ base.acl.getLsbD i) : i ∈ selfServiceBits ∧
    base.acl.getLsbD (i + 1) = true := by
  simp only [deniedFlag, decodeAclCanonical, ite_some_eq_none_iff, getBlocked, getLocal, getSendMessages,
    getReceiveMessages, getSendForwarded, getReceiveForwarded, getCreateInvites, getAnonReceive,
    getSelfManageList, getSelfManageSendQueueLimit, getSelfManageReceiveQueueLimit, genericGet_eq,
    getAccessListMode_eq] at h
  obtain ⟨hmode, hsend, hrecv, hsfwd, hrfwd, hinv, hanon, hblocked, hlocal, hlist, hsq, hrq, -⟩ := h
  simp only [MediatorAcl.flags, mem_cons, Prod.mk.injEq, not_mem_nil, or_false] at hmem
  rcases hmem with ⟨rfl, hv⟩ | ⟨rfl, hv⟩ | ⟨rfl, hv⟩ | ⟨rfl, hv⟩ | ⟨rfl, hv⟩ | ⟨rfl, hv⟩ | ⟨rfl, hv⟩ |
    ⟨rfl, hv⟩ | ⟨rfl, hv⟩ | ⟨rfl, hv⟩ | ⟨rfl, hv⟩ | ⟨rfl, hv⟩
  · refine ⟨by decide, ?_⟩
    cases hreq : req.accessListMode with
    | none => simp [hreq] at hv
    | some mode =>
      -- the mode is the bit, read as allow or deny
      rw [hreq, Option.map_some, Option.some.injEq] at hv
      subst hv
      rw [hreq] at hmode
      cases mode <;> cases hbit : base.acl.getLsbD 0 <;> simp_all [wouldChange]
  · exact absurd (eq_of_wouldChange hblocked hv) hne
  · exact absurd (eq_of_wouldChange hlocal hv) hne
  · exact ⟨by decide, companion_of_wouldChange hsend hv hne⟩
  · exact ⟨by decide, companion_of_wouldChange hrecv hv hne⟩
  · exact ⟨by decide, companion_of_wouldChange hsfwd hv hne⟩
  · exact ⟨by decide, companion_of_wouldChange hrfwd hv hne⟩
  · exact ⟨by decide, companion_of_wouldChange hinv hv hne⟩
  · exact ⟨by decide, companion_of_wouldChange hanon hv hne⟩
  · exact absurd (eq_of_wouldChange hlist hv) hne
  · exact absurd (eq_of_wouldChange hsq hv) hne
  · exact absurd (eq_of_wouldChange hrq hv) hne

theorem selfChangeOnly_mergedOnto {req : MediatorAcl} (h : deniedFlag req base = none) :
    SelfChangeOnly base.acl (req.mergedOnto base).acl := by
  intro i _ hne
  have hmem := mem_of_foldl_writeBit_ne req.flags_le (Ne.symm hne)
  exact flag_of_deniedFlag_eq_none h hmem (Ne.symm hne)

end AffinidiTdk.Acl
