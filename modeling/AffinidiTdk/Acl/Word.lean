/-
The packed ACL word of an account (`MediatorACLSet`, mediator-common `types/acls.rs`): bit
getters and setters over one 64-bit word. The struct's named booleans mirror the word and are
read by serialization only, so the word is the whole value here; `to_le` is the identity on the
little-endian hosts the type is written for.
-/
import Mathlib.Algebra.Order.Ring.Int

namespace AffinidiTdk.Acl

/-- Why an ACL change is refused. -/
inductive ACLError
  | config (msg : String)
  | denied (msg : String)

/-- Whether the access list names who may send or who may not. -/
inductive AccessListModeType
  | explicitAllow
  | explicitDeny
  deriving DecidableEq

/-- The ACL set of a DID: even bits are values, the odd bits 1 and 5 to 15 say that the DID may
change the value before them itself. -/
structure MediatorACLSet where
  acl : BitVec 64
  deriving DecidableEq

namespace MediatorACLSet

instance : Inhabited MediatorACLSet := ⟨⟨0⟩⟩

def fromU64 (acl : BitVec 64) : MediatorACLSet := ⟨acl⟩

def toU64 (acls : MediatorACLSet) : BitVec 64 := acls.acl

/-! ## Bits -/

def genericGet (acls : MediatorACLSet) (bit : ℕ) : Bool :=
  if bit > 63 then false else acls.acl &&& (1#64 <<< bit) != 0#64

def genericSet (acls : MediatorACLSet) (bit : ℕ) (value : Bool) : MediatorACLSet :=
  if bit ≤ 63 then
    if value then ⟨acls.acl ||| (1#64 <<< bit)⟩ else ⟨acls.acl &&& ~~~(1#64 <<< bit)⟩
  else acls

/-- Reading a flag is reading its bit. -/
theorem genericGet_eq (acls : MediatorACLSet) (bit : ℕ) :
    acls.genericGet bit = acls.acl.getLsbD bit := by
  unfold genericGet
  split
  · rename_i h
    rw [BitVec.getLsbD_of_ge _ _ (by omega)]
  · rename_i h
    rw [← BitVec.twoPow_eq, BitVec.and_twoPow]
    cases hb : acls.acl.getLsbD bit with
    | false => simp
    | true =>
      have hne : BitVec.twoPow 64 bit ≠ 0#64 := by
        intro h0
        have := congrArg (fun x => BitVec.getLsbD x bit) h0
        simp at this
        omega
      simpa using hne

theorem getLsbD_genericSet {bit : ℕ} (hbit : bit ≤ 63) (acls : MediatorACLSet) (value : Bool) (i : ℕ) :
    (acls.genericSet bit value).acl.getLsbD i = if i = bit then value else acls.acl.getLsbD i := by
  unfold genericSet
  rw [if_pos hbit]
  by_cases hi : i = bit
  · subst hi
    have : i < 64 := by omega
    cases value <;> simp [this, ← BitVec.twoPow_eq]
  · by_cases h64 : i < 64
    · cases value <;> simp [hi, h64, ← BitVec.twoPow_eq]
    · have h64 : 64 ≤ i := by omega
      cases value <;> simp [BitVec.getLsbD_of_ge _ _ h64, hi]

/-! ## Getters -/

/-- The access-list mode, and whether the DID may change it. -/
def getAccessListMode (acls : MediatorACLSet) : AccessListModeType × Bool :=
  if acls.acl &&& 1#64 = 0#64 then (.explicitAllow, acls.acl &&& (1#64 <<< 1) != 0#64)
  else (.explicitDeny, acls.acl &&& (1#64 <<< 1) != 0#64)

def getBlocked (acls : MediatorACLSet) : Bool := acls.genericGet 2
def getLocal (acls : MediatorACLSet) : Bool := acls.genericGet 3
def getSendMessages (acls : MediatorACLSet) : Bool × Bool := (acls.genericGet 4, acls.genericGet 5)
def getReceiveMessages (acls : MediatorACLSet) : Bool × Bool := (acls.genericGet 6, acls.genericGet 7)
def getSendForwarded (acls : MediatorACLSet) : Bool × Bool := (acls.genericGet 8, acls.genericGet 9)
def getReceiveForwarded (acls : MediatorACLSet) : Bool × Bool := (acls.genericGet 10, acls.genericGet 11)
def getCreateInvites (acls : MediatorACLSet) : Bool × Bool := (acls.genericGet 12, acls.genericGet 13)
def getAnonReceive (acls : MediatorACLSet) : Bool × Bool := (acls.genericGet 14, acls.genericGet 15)
def getSelfManageList (acls : MediatorACLSet) : Bool := acls.genericGet 16
def getSelfManageSendQueueLimit (acls : MediatorACLSet) : Bool := acls.genericGet 17
def getSelfManageReceiveQueueLimit (acls : MediatorACLSet) : Bool := acls.genericGet 18

theorem getAccessListMode_eq (acls : MediatorACLSet) :
    acls.getAccessListMode =
      (if acls.acl.getLsbD 0 then .explicitDeny else .explicitAllow, acls.acl.getLsbD 1) := by
  have h0 : (acls.acl &&& 1#64 = 0#64) ↔ acls.acl.getLsbD 0 = false := by
    have := genericGet_eq acls 0
    unfold genericGet at this
    simp only [Nat.not_lt_zero, gt_iff_lt, if_false, BitVec.shiftLeft_zero] at this
    rw [← this]
    simp
  have h1 : (acls.acl &&& (1#64 <<< 1) != 0#64) = acls.acl.getLsbD 1 := by
    have := genericGet_eq acls 1
    unfold genericGet at this
    simpa using this
  unfold getAccessListMode
  rw [h1]
  cases hb : acls.acl.getLsbD 0 with
  | false => rw [if_pos (h0.2 hb), if_neg (by simp)]
  | true => rw [if_neg (by rw [h0, hb]; simp), if_pos rfl]

/-! ## Setters -/

/-- The common body of the `set_*` functions with a companion bit: `value` is written at `bit`,
and by an admin `selfChange` at the bit after it. -/
def setFlag (bit : ℕ) (flag : String) (acls : MediatorACLSet) (value selfChange admin : Bool) :
    Except ACLError MediatorACLSet :=
  if !acls.genericGet (bit + 1) && !admin then
    .error (.denied s!"Do not have permission to change the {flag}")
  else
    let acls := acls.genericSet bit value
    .ok (if admin then acls.genericSet (bit + 1) selfChange else acls)

def setAccessListMode (acls : MediatorACLSet) (mode : AccessListModeType) (selfChange admin : Bool) :
    Except ACLError MediatorACLSet :=
  setFlag 0 "DID Access List Mode" acls (mode = .explicitDeny) selfChange admin

def setBlocked (acls : MediatorACLSet) (blocked : Bool) : MediatorACLSet := acls.genericSet 2 blocked
def setLocal (acls : MediatorACLSet) (value : Bool) : MediatorACLSet := acls.genericSet 3 value

def setSendMessages : MediatorACLSet → Bool → Bool → Bool → Except ACLError MediatorACLSet :=
  setFlag 4 "send_messages ACL"

def setReceiveMessages : MediatorACLSet → Bool → Bool → Bool → Except ACLError MediatorACLSet :=
  setFlag 6 "receive_messages ACL"

def setSendForwarded : MediatorACLSet → Bool → Bool → Bool → Except ACLError MediatorACLSet :=
  setFlag 8 "send_forwarded ACL"

def setReceiveForwarded : MediatorACLSet → Bool → Bool → Bool → Except ACLError MediatorACLSet :=
  setFlag 10 "receive_forwarded ACL"

def setCreateInvites : MediatorACLSet → Bool → Bool → Bool → Except ACLError MediatorACLSet :=
  setFlag 12 "create_invites ACL"

def setAnonReceive : MediatorACLSet → Bool → Bool → Bool → Except ACLError MediatorACLSet :=
  setFlag 14 "anon_receive ACL"

def setSelfManageList (acls : MediatorACLSet) (flag : Bool) : MediatorACLSet := acls.genericSet 16 flag

def setSelfManageSendQueueLimit (acls : MediatorACLSet) (flag : Bool) : MediatorACLSet :=
  acls.genericSet 17 flag

def setSelfManageReceiveQueueLimit (acls : MediatorACLSet) (flag : Bool) : MediatorACLSet :=
  acls.genericSet 18 flag

theorem setFlag_admin (bit : ℕ) (flag : String) (acls : MediatorACLSet) (value selfChange : Bool) :
    setFlag bit flag acls value selfChange true =
      .ok ((acls.genericSet bit value).genericSet (bit + 1) selfChange) := by
  simp [setFlag]

end MediatorACLSet

end AffinidiTdk.Acl
