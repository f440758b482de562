/-
Restoring the claims of an SD-JWT (`affinidi-sd-jwt`, `holder.rs`): digests are replaced by the
disclosures that a presentation carries, in the payload and in the values just put there. The walk
goes into disclosed values, so it takes fuel; a result stays the same with more of it.
-/
import AffinidiTdk.Credentials.Issuer

namespace AffinidiTdk.Credentials

open Option
open Json (Fields)

/-! ## Digests -/

/-- `digest_map.get(digest)`: of two disclosures with one digest, the map keeps the later. -/
def disclosureOf (disclosures : List Disclosure) (digest : String) : Option Disclosure :=
  disclosures.reverse.find? (·.digest = digest)

/-- The digests of an object: the strings of its `_sd` array. -/
def sdDigests (fields : Fields) : List String :=
  (((fields.lookup "_sd").bind Json.asArray).getD []).filterMap Json.asStr

/-- The digest of an array element that is a placeholder. -/
def placeholder (item : Json) : Option String := (item.get? "...").bind Json.asStr

/-! ## Resolution -/

variable (disclosures : List Disclosure)

/-- The members that digests of an object stand for. -/
def disclosedMembers (digests : List String) : Fields :=
  digests.filterMap fun digest =>
    (disclosureOf disclosures digest).bind fun disclosure => disclosure.claimName.map (·, disclosure.claimValue)

/-- The first part of `resolve_object`: `_sd` is taken out and its disclosures are inserted. -/
def insertDisclosed (fields : Fields) : Fields :=
  (disclosedMembers disclosures (sdDigests fields)).foldl (fun fields member => fields.insert member.1 member.2)
    (fields.erase "_sd")

/-- What the loop of `resolve_array` keeps of an element: a placeholder gives way to its disclosure, or
is removed. -/
def element (item : Json) : Option Json :=
  match placeholder item with
  | none => some item
  | some digest => (disclosureOf disclosures digest).map Disclosure.claimValue

def resolveMembers (recur : Json → Option Json) (fields : Fields) : Option Fields :=
  fields.mapM fun member => (recur member.2).map (member.1, ·)

def resolveObject (recur : Json → Option Json) (fields : Fields) : Option Fields :=
  resolveMembers recur (insertDisclosed disclosures fields)

def resolveArray (recur : Json → Option Json) (items : List Json) : Option (List Json) :=
  (items.filterMap (element disclosures)).mapM recur

/-- The `match` on a value that both walks end with; none when the fuel runs out. -/
def resolveValue : ℕ → Json → Option Json
  | 0, _ => none
  | fuel + 1, .obj fields => (resolveObject disclosures (resolveValue fuel) fields).map .obj
  | fuel + 1, .arr items => (resolveArray disclosures (resolveValue fuel) items).map .arr
  | _ + 1, value => some value

def resolveClaims (fuel : ℕ) (payload : Json) : Option Json :=
  match payload with
  | .obj fields =>
    (resolveObject disclosures (resolveValue disclosures fuel) fields).map fun claims =>
      .obj ((claims.erase "_sd").erase "_sd_alg")
  | value => some value

end AffinidiTdk.Credentials
