/-
The grammar of DID URLs and what the validators accept: the text checks, one beside each rule, and the
splitting of a DID URL into its components.
-/
import AffinidiTdk.Did.Syntax
import Mathlib.Tactic.Abel

namespace AffinidiTdk.Did

open Fallible
open Abnf Computability

/-! ## The grammar -/

namespace Grammar

def alpha : Language Char := one Char.isAlpha

def digit : Language Char := one Char.isDigit

/-- `idchar = ALPHA / DIGIT / "." / "-" / "_" / pct-encoded`. -/
def idchar : Language Char := alpha + digit + lit ['.'] + lit ['-'] + lit ['_'] + pctEncoded

/-- `method-name = 1*method-char`, `method-char = %x61-7A / DIGIT`. -/
def methodName : Language Char := many1 (one Char.isLower + digit)

/-- `method-specific-id = *( *idchar ":" ) 1*idchar`. -/
def methodSpecificId : Language Char := (idchar∗ * lit [':'])∗ * many1 idchar

/-- `did = "did:" method-name ":" method-specific-id`. -/
def did : Language Char := lit "did:".toList * methodName * lit [':'] * methodSpecificId

def unreserved : Language Char := alpha + digit + lit ['-'] + lit ['.'] + lit ['_'] + lit ['~']

def subDelims : Language Char := one "!$&'()*+,;=".toList.contains

/-- `pchar = unreserved / pct-encoded / sub-delims / ":" / "@"`. -/
def pchar : Language Char := unreserved + pctEncoded + subDelims + lit [':'] + lit ['@']

/-- `path-abempty = *( "/" segment )`, `segment = *pchar`. -/
def pathAbempty : Language Char := (lit ['/'] * pchar∗)∗

/-- `query = *( pchar / "/" / "?" )`. -/
def query : Language Char := (pchar + lit ['/'] + lit ['?'])∗

/-- `fragment = *( pchar / "/" / "?" )`. -/
def fragment : Language Char := (pchar + lit ['/'] + lit ['?'])∗

/-- `did-url = did path-abempty [ "?" query ] [ "#" fragment ]`. -/
def didUrl : Language Char := did * pathAbempty * opt (lit ['?'] * query) * opt (lit ['#'] * fragment)

theorem idchar_eq : idchar = one isIdchar + pctEncoded := by
  have hclass : one isIdchar = alpha + digit + lit ['.'] + lit ['-'] + lit ['_'] := by
    show one (fun c => c.isAlpha || c.isDigit || c == '.' || c == '-' || c == '_') = _
    rw [one_or, one_or, one_or, one_or, one_beq, one_beq, one_beq]
    rfl
  rw [idchar, hclass]

theorem pchar_eq : pchar = one isPchar + pctEncoded := by
  have hunreserved : one isUnreserved = unreserved := by
    show one (fun c => c.isAlpha || c.isDigit || c == '-' || c == '.' || c == '_' || c == '~') = _
    rw [one_or, one_or, one_or, one_or, one_or, one_beq, one_beq, one_beq, one_beq]
    rfl
  have hclass : one isPchar = unreserved + subDelims + lit [':'] + lit ['@'] := by
    show one (fun c => isUnreserved c || isSubDelims c || c == ':' || c == '@') = _
    rw [one_or, one_or, one_or, one_beq, one_beq, hunreserved]
    rfl
  rw [pchar, hclass]
  abel

theorem query_eq : query = encoded fun c => isPchar c || (true && (c == '/' || c == '?')) := by
  have hclass : (one fun c => isPchar c || (true && (c == '/' || c == '?'))) = one isPchar +
    (lit ['/'] + lit ['?']) := by
    show (one fun c => isPchar c || (c == '/' || c == '?')) = _
    rw [one_or, one_or, one_beq, one_beq]
  rw [query, encoded, hclass, pchar_eq]
  congr 1
  abel

theorem fragment_eq : fragment = query := rfl

theorem pchar_kstar_eq : pchar∗ = encoded isPchar := by
  rw [pchar_eq]
  rfl

end Grammar

/-! ## The validators -/

/-- The sequences that pass the check are those of the grammar. -/
theorem validateSequence_eq_ok_iff {allowed : Char → Bool} (hpct : allowed '%' = false) :
    (s : Text) → (validateSequence allowed s = .ok () ↔ s ∈ encoded allowed)
  | [] => iff_of_true rfl nil_mem_encoded
  | c :: rest => by
    rw [cons_mem_encoded]
    unfold validateSequence
    by_cases hc : allowed c = true
    · have hne : c ≠ '%' := by
        rintro rfl
        rw [hpct] at hc
        cases hc
      rw [if_pos hc, validateSequence_eq_ok_iff hpct rest]
      exact ⟨fun h => .inl ⟨hc, h⟩, fun h => h.elim (·.2) fun h => absurd h.1 hne⟩
    rw [if_neg hc]
    by_cases hp : c = '%'
    · rw [if_pos hp]
      match rest with
      | [] => exact iff_of_false nofun (by rintro (h | ⟨-, _, _, _, -, -, h, -⟩); exacts [hc h.1, nomatch h])
      | [_] => exact iff_of_false nofun (by rintro (h | ⟨-, _, _, _, -, -, h, -⟩); exacts [hc h.1, nomatch h])
      | h₁ :: h₂ :: rest =>
        show (if (isHexDigit h₁ && isHexDigit h₂) = true then validateSequence allowed rest
          else throw "invalid percent-encoding") = _ ↔ _
        by_cases hhex : (isHexDigit h₁ && isHexDigit h₂) = true
        · rw [if_pos hhex, validateSequence_eq_ok_iff hpct rest]
          rw [Bool.and_eq_true] at hhex
          constructor
          · exact fun h => .inr ⟨hp, h₁, h₂, rest, hhex.1, hhex.2, rfl, h⟩
          · rintro (h | ⟨-, _, _, _, -, -, h, hrest⟩)
            · exact absurd h.1 hc
            · cases h
              exact hrest
        · rw [if_neg hhex]
          refine iff_of_false nofun ?_
          rintro (h | ⟨-, _, _, _, hh₁, hh₂, h, -⟩)
          · exact hc h.1
          · cases h
            exact hhex (by rw [hh₁, hh₂]; rfl)
    · rw [if_neg hp]
      exact iff_of_false nofun fun h => h.elim (fun h => hc h.1) fun h => hp h.1

theorem validatePath_eq_ok_iff {s : Text} : validatePath s = .ok () ↔ '/' :: s ∈ Grammar.pathAbempty := by
  have hslash : ∀ part ∈ encoded isPchar, '/' ∉ part := fun part hpart hmem =>
    absurd (of_mem_encoded hpart hmem) (by decide)
  rw [Grammar.pathAbempty, Grammar.pchar_kstar_eq, cons_mem_kstar_iff hslash, validatePath, forM_eq_ok_iff]
  refine forall₂_congr fun part _ => ?_
  have hclass : (fun c => isPchar c || (false && (c == '/' || c == '?'))) = isPchar := by
    funext c
    rw [Bool.false_and, Bool.or_false]
  rw [mapError_eq_ok_iff, validatePcharSequence, hclass, validateSequence_eq_ok_iff (by decide)]

theorem validateQuery_eq_ok_iff {s : Text} : validateQuery s = .ok () ↔ s ∈ Grammar.query := by
  rw [validateQuery, mapError_eq_ok_iff, validatePcharSequence, validateSequence_eq_ok_iff (by decide),
    Grammar.query_eq]

theorem validateFragment_eq_ok_iff {s : Text} : validateFragment s = .ok () ↔ s ∈ Grammar.fragment := by
  rw [validateFragment, mapError_eq_ok_iff, validatePcharSequence, validateSequence_eq_ok_iff (by decide),
    Grammar.fragment_eq, Grammar.query_eq]

theorem validateIdentifierFormat_eq_ok_iff {s : Text} :
    validateIdentifierFormat s = .ok () ↔ s ∈ Grammar.methodSpecificId := by
  have hnil : [] ∉ Grammar.idchar := by
    rw [Grammar.idchar_eq]
    rintro (⟨_, -, h⟩ | h)
    · cases h
    · obtain ⟨_, _, -, -, h⟩ := mem_pctEncoded.1 h
      cases h
  have hclass : (one fun c => isIdchar c || c == ':') + pctEncoded = Grammar.idchar + lit [':'] := by
    rw [one_or, one_beq, Grammar.idchar_eq]
    abel
  have hcolon : ∀ last ∈ Grammar.idchar∗, last.getLast? ≠ some ':' := by
    intro last hlast hmem
    rw [Grammar.idchar_eq] at hlast
    exact absurd (of_mem_encoded hlast (List.mem_of_getLast? hmem)) (by decide)
  have hsplit : validateIdentifierFormat s = .ok () ↔
      s ≠ [] ∧ s.getLast? ≠ some ':' ∧ s ∈ (Grammar.idchar∗ * lit [':'])∗ * Grammar.idchar∗ := by
    rw [← kstar_add, ← hclass]
    unfold validateIdentifierFormat
    rw [guard_eq_ok_iff, guard_eq_ok_iff, mapError_eq_ok_iff,
      validateSequence_eq_ok_iff (by decide), List.isEmpty_iff]
    rfl
  rw [hsplit, Grammar.methodSpecificId]
  constructor
  · rintro ⟨hne, hend, hs⟩
    obtain ⟨init, hinit, last, hlast, rfl⟩ := Language.mem_mul.1 hs
    refine Language.append_mem_mul hinit ((mem_many1_iff hnil).2 ⟨hlast, ?_⟩)
    rintro rfl
    -- without a last segment the identifier is empty or ends with the colon of the one before
    rw [List.append_nil] at hne hend
    rw [← one_add_kstar_mul] at hinit
    rcases hinit with hempty | hcolons
    · exact hne hempty
    · obtain ⟨_, -, _, hseg, rfl⟩ := Language.mem_mul.1 hcolons
      obtain ⟨_, -, _, rfl, rfl⟩ := Language.mem_mul.1 hseg
      exact hend (by rw [← List.append_assoc, List.getLast?_concat])
  · intro hs
    obtain ⟨init, hinit, last, hlast, rfl⟩ := Language.mem_mul.1 hs
    obtain ⟨hlast, hne⟩ := (mem_many1_iff hnil).1 hlast
    refine ⟨List.append_ne_nil_of_right_ne_nil init hne, ?_, Language.append_mem_mul hinit hlast⟩
    rw [List.getLast?_append_of_ne_nil init hne]
    exact hcolon last hlast

end AffinidiTdk.Did
