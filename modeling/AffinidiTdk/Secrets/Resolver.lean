/-
The secrets resolver (`affinidi-secrets-resolver`, `lib.rs`): the calls of the trait, and the resolver that keeps
its secrets itself.
-/
import AffinidiTdk.Lib.Linearizable
import AffinidiTdk.Lib.OrdMap
import AffinidiTdk.Secrets.Secret
import Mathlib.Data.List.Induction
import Mathlib.Data.String.Basic

namespace AffinidiTdk.Secrets

open SeqObject

/-! ## The calls of a resolver -/

/-- The methods of the trait, with their arguments. -/
inductive Call
  | insert (secret : Secret)
  | insertVec (secrets : List Secret)
  | getSecret (secretId : String)
  | findSecrets (secretIds : List String)
  | removeSecret (secretId : String)
  | len
  | isEmpty
  deriving DecidableEq

/-- What the resolver answers. -/
inductive Reply
  | done
  | secret (found : Option Secret)
  | found (ids : List String)
  | count (n : ℕ)
  | empty (b : Bool)
  deriving DecidableEq

/-- The secrets a call adds, in their order. -/
def Call.added : Call → List Secret
  | .insert secret => [secret]
  | .insertVec secrets => secrets
  | _ => []

/-! ## `SimpleSecretsResolver` -/

abbrev SecretMap := OrdMap String Secret

namespace SimpleSecretsResolver

def insertVec (knownSecrets : SecretMap) (secrets : List Secret) : SecretMap :=
  secrets.foldl (fun known secret => known.insert secret.id secret) knownSecrets

def insert (knownSecrets : SecretMap) (secret : Secret) : SecretMap := insertVec knownSecrets [secret]

def getSecret (knownSecrets : SecretMap) (secretId : String) : Option Secret := knownSecrets.get? secretId

def findSecrets (knownSecrets : SecretMap) (secretIds : List String) : List String :=
  secretIds.filter fun sid => (knownSecrets.get? sid).isSome

def removeSecret (knownSecrets : SecretMap) (secretId : String) : Option Secret × SecretMap :=
  (knownSecrets.get? secretId, knownSecrets.erase secretId)

def len (knownSecrets : SecretMap) : ℕ := knownSecrets.length

def isEmpty (knownSecrets : SecretMap) : Bool := knownSecrets.length == 0

end SimpleSecretsResolver

open SimpleSecretsResolver in
/-- One call on the simple resolver: its answer, and the secrets it leaves. -/
def simpleCall (call : Call) (known : SecretMap) : Reply × SecretMap :=
  match call with
  | .insert secret => (.done, insert known secret)
  | .insertVec secrets => (.done, insertVec known secrets)
  | .getSecret secretId => (.secret (getSecret known secretId), known)
  | .findSecrets secretIds => (.found (findSecrets known secretIds), known)
  | .removeSecret secretId => (.secret (removeSecret known secretId).1, (removeSecret known secretId).2)
  | .len => (.count (len known), known)
  | .isEmpty => (.empty (isEmpty known), known)

/-- The simple resolver as a sequential object. -/
def simple : SeqObject SecretMap Call Reply := ⟨simpleCall⟩

/-- A result stands for the simple resolver's if it is the same; that of a removal is not looked at. -/
def SameReply (call : Call) (reply reply' : Reply) : Prop :=
  (∃ secretId, call = .removeSecret secretId) ∨ reply = reply'

/-- A history of calls that the simple resolver explains, from no secrets. -/
def Sequential (history : List (Event ℕ Call Reply)) : Prop := Linearizable simple SameReply OrdMap.empty history

/-! ## What a run of insertions leaves -/

/-- The last of the secrets with an id. -/
def lastOf (secrets : List Secret) (id : String) : Option Secret :=
    secrets.reverse.find? fun secret => secret.id = id

theorem lastOf_snoc (secrets : List Secret) (secret : Secret) (id : String) :
    lastOf (secrets ++ [secret]) id = if id = secret.id then some secret else lastOf secrets id := by
  by_cases h : id = secret.id
  · simp [lastOf, h]
  · have h' : secret.id ≠ id := fun heq => h heq.symm
    simp [lastOf, h, h']

theorem lastOf_eq_none_iff {secrets : List Secret} {id : String} :
    lastOf secrets id = none ↔ ∀ secret ∈ secrets, secret.id ≠ id := by
  simp [lastOf]

theorem insertVec_snoc (known : SecretMap) (secrets : List Secret) (secret : Secret) :
    SimpleSecretsResolver.insertVec known (secrets ++ [secret]) =
      (SimpleSecretsResolver.insertVec known secrets).insert secret.id secret := by
  simp [SimpleSecretsResolver.insertVec]

theorem get?_insertVec (known : SecretMap) (secrets : List Secret) (id : String) :
    (SimpleSecretsResolver.insertVec known secrets).get? id = (lastOf secrets id).or (known.get? id) := by
  induction secrets using List.reverseRecOn with
  | nil => rfl
  | append_singleton secrets secret ih =>
    rw [insertVec_snoc, OrdMap.get?_insert, lastOf_snoc, ih]
    by_cases h : id = secret.id
    · rw [if_pos h, if_pos h]
      rfl
    · rw [if_neg h, if_neg h]

/-! ## A secret stays until it is removed -/

theorem simpleCall_keeps {call : Call} {id : String} (hcall : call ≠ .removeSecret id) (known : SecretMap)
    (h : (known.get? id).isSome) : ((simpleCall call known).2.get? id).isSome := by
  have hinsert : ∀ secrets, ((SimpleSecretsResolver.insertVec known secrets).get? id).isSome := by
    intro secrets
    rw [get?_insertVec, Option.isSome_or, h, Bool.or_true]
  cases call with
  | insert secret => exact hinsert [secret]
  | insertVec secrets => exact hinsert secrets
  | removeSecret secretId =>
    have hne : id ≠ secretId := fun heq => hcall (by rw [heq])
    show ((known.erase secretId).get? id).isSome
    rw [OrdMap.get?_erase, if_neg hne]
    exact h
  | _ => exact h

theorem simpleCall_adds {call : Call} {secret : Secret} (h : secret ∈ call.added) (known : SecretMap) :
    ((simpleCall call known).2.get? secret.id).isSome := by
  have hinsert : ∀ secrets, secret ∈ secrets →
      ((SimpleSecretsResolver.insertVec known secrets).get? secret.id).isSome := by
    intro secrets hmem
    have hlast : lastOf secrets secret.id ≠ none := fun hnone => lastOf_eq_none_iff.1 hnone secret hmem rfl
    rw [get?_insertVec, Option.isSome_or, Option.isSome_iff_ne_none.2 hlast, Bool.true_or]
  cases call with
  | insert s => exact hinsert [s] h
  | insertVec secrets => exact hinsert secrets h
  | _ => exact absurd h List.not_mem_nil

/-- A secret whose insertion returned is found by a later read, unless a removal of its id was made: one that was
not over when the insertion began and had begun when the read returned. -/
theorem Sequential.found {history : List (Event ℕ Call Reply)} (h : Sequential history) {i j : ℕ} {call : Call}
    {secret : Secret} {reply : Reply} (hadded : secret ∈ call.added) (hcall : .call i call ∈ history)
    (hlater : [.ret i .done, .call j (.getSecret secret.id)].Sublist history) (hread : .ret j reply ∈ history)
    (honce : ∀ k op op', Event.call k op ∈ history → Event.call k op' ∈ history → op = op')
    (hremoved : ∀ k, .call k (.removeSecret secret.id) ∈ history → Precedes history k i ∨ Precedes history j k) :
    ∃ found, reply = .secret (some found) := by
  obtain ⟨order, horder⟩ := h
  obtain ⟨read, hreadMem, rfl, hreadReply⟩ := horder.answered j reply hread
  obtain ⟨ins, hinsMem, rfl, -⟩ := horder.answered i .done (hlater.subset (by simp))
  have hreadOp : read.op = .getSecret secret.id :=
    honce read.id read.op _ (horder.called read hreadMem) (hlater.subset (by simp))
  have hinsOp : ins.op = call := honce ins.id ins.op call (horder.called ins hinsMem) hcall
  obtain ⟨before, between, rest, rfl⟩ := split_of_sublist horder.once hinsMem hreadMem
    (horder.ordered ins.id read.id ⟨_, _, hlater⟩ (mem_ids.2 ⟨read, hreadMem, rfl⟩))
  -- no call placed between the two removes the secret
  have hkeeps : ∀ e ∈ between, e.op ≠ .removeSecret secret.id := by
    intro e he hop
    have hmem : e ∈ before ++ ins :: (between ++ read :: rest) := by simp [he]
    have hin : e.id ∈ ids (before ++ ins :: (between ++ read :: rest)) := mem_ids.2 ⟨e, hmem, rfl⟩
    rcases hremoved e.id (hop ▸ horder.called e hmem) with hprec | hprec
    · exact not_sublist_of_later horder.once (List.mem_append_left _ he)
        (horder.ordered e.id ins.id hprec (mem_ids.2 ⟨ins, hinsMem, rfl⟩))
    · have hassoc : before ++ ins :: (between ++ read :: rest) = (before ++ ins :: between) ++ read :: rest := by
        simp
      have hsub := horder.ordered read.id e.id hprec hin
      obtain ⟨front, back, rfl⟩ := List.append_of_mem he
      have hsplit : before ++ ins :: ((front ++ e :: back) ++ read :: rest) =
          (before ++ ins :: front) ++ e :: (back ++ read :: rest) := by simp
      have honce' := horder.once
      rw [hsplit] at honce' hsub
      exact not_sublist_of_later honce' (by simp) hsub
  have hlegal := (legal_append.1 horder.legal).2
  have hstep : ∀ e ∈ between, ∀ known : SecretMap, (known.get? secret.id).isSome →
      ((simple.apply e.op known).2.get? secret.id).isSome :=
    fun e he known => simpleCall_keeps (hkeeps e he) known
  have hstate := after_preserves (P := fun known : SecretMap => (known.get? secret.id).isSome) hstep
    (simpleCall_adds (hinsOp ▸ hadded) (simple.after OrdMap.empty before))
  have hanswer : read.res = (simple.apply read.op _).1 := (legal_append.1 hlegal.2).2.1
  obtain ⟨found, hfound⟩ := Option.isSome_iff_exists.1 hstate
  refine ⟨found, ?_⟩
  rcases hreadReply with ⟨id, hremove⟩ | rfl
  · rw [hreadOp] at hremove
    cases hremove
  · rw [hanswer, hreadOp]
    exact congrArg Reply.secret hfound

end AffinidiTdk.Secrets
