/-
Grammars in augmented Backus-Naur form as languages: terminals, classes of characters, options and
repetitions, and the texts of allowed characters and percent-encoded octets (RFC 3986, section 2.1).
-/
import Mathlib.Computability.Language

namespace Abnf

open List
open Computability

/-! ## Kleene algebra -/

/-- Words over two kinds of letters: stretches of the first kind, each but the last followed by a letter
of the second. -/
theorem kstar_add {α : Type*} [KleeneAlgebra α] (a b : α) : (a + b)∗ = (a∗ * b)∗ * a∗ := by
  apply le_antisymm
  · refine kstar_le_of_mul_le_left (one_le_mul one_le_kstar one_le_kstar) ?_
    rw [mul_add]
    refine add_le ?_ ?_
    · rw [mul_assoc]
      exact mul_le_mul_right kstar_mul_le_kstar _
    · calc (a∗ * b)∗ * a∗ * b = (a∗ * b)∗ * (a∗ * b) := mul_assoc _ _ _
        _ ≤ (a∗ * b)∗ := kstar_mul_le_kstar
        _ ≤ (a∗ * b)∗ * a∗ := le_mul_of_one_le_right' one_le_kstar
  · have ha : a∗ ≤ (a + b)∗ := kstar_mono le_self_add
    have hb : b ≤ (a + b)∗ := le_add_self.trans le_kstar
    have hpair : a∗ * b ≤ (a + b)∗ := (mul_le_mul' ha hb).trans (kstar_mul_kstar _).le
    calc (a∗ * b)∗ * a∗ ≤ (a + b)∗∗ * (a + b)∗ := mul_le_mul' (kstar_mono hpair) ha
      _ = (a + b)∗ := by rw [kstar_idem, kstar_mul_kstar]

/-! ## Rules -/

def lit (text : List Char) : Language Char := {s | s = text}

/-- A character of a class. -/
def one (allowed : Char → Bool) : Language Char := {s | ∃ c, allowed c = true ∧ s = [c]}

/-- `1*rule`. -/
def many1 (rule : Language Char) : Language Char := rule * rule∗

/-- `[ rule ]`. -/
def opt (rule : Language Char) : Language Char := 1 + rule

variable {text s : List Char}

theorem mem_lit : s ∈ lit text ↔ s = text := Iff.rfl

variable {allowed : Char → Bool}

theorem mem_one : s ∈ one allowed ↔ ∃ c, allowed c = true ∧ s = [c] :=
    Iff.rfl

theorem one_or (p q : Char → Bool) : (one fun c => p c || q c) = one p + one q := by
  ext s
  rw [Language.mem_add, mem_one, mem_one, mem_one]
  constructor
  · rintro ⟨c, hc, rfl⟩
    rw [Bool.or_eq_true] at hc
    exact hc.imp (fun h => ⟨c, h, rfl⟩) fun h => ⟨c, h, rfl⟩
  · rintro (⟨c, hc, rfl⟩ | ⟨c, hc, rfl⟩)
    · exact ⟨c, by rw [hc, Bool.true_or], rfl⟩
    · exact ⟨c, by rw [hc, Bool.or_true], rfl⟩

theorem one_beq (a : Char) : (one fun c => c == a) = lit [a] := by
  ext s
  rw [mem_one, mem_lit]
  constructor
  · rintro ⟨c, hc, rfl⟩
    rw [beq_iff_eq.1 hc]
  · rintro rfl
    exact ⟨a, beq_self_eq_true a, rfl⟩

variable {rule : Language Char}

theorem mem_lit_mul : s ∈ lit text * rule ↔ ∃ t ∈ rule, s = text ++ t := by
  rw [Language.mem_mul]
  constructor
  · rintro ⟨_, rfl, t, ht, rfl⟩
    exact ⟨t, ht, rfl⟩
  · rintro ⟨t, ht, rfl⟩
    exact ⟨text, rfl, t, ht, rfl⟩

/-- A repetition of at least one is a repetition that gives some text, where the rule itself always does. -/
theorem mem_many1_iff (hrule : [] ∉ rule) : s ∈ many1 rule ↔ s ∈ rule∗ ∧ s ≠ [] := by
  constructor
  · intro hs
    refine ⟨(show rule * rule∗ ≤ rule∗ from mul_kstar_le_kstar) hs, ?_⟩
    rintro rfl
    obtain ⟨a, ha, b, -, hab⟩ := Language.mem_mul.1 hs
    rw [(append_eq_nil_iff.1 hab).1] at ha
    exact hrule ha
  · rintro ⟨hs, hne⟩
    rw [← Language.one_add_self_mul_kstar_eq_kstar, Language.mem_add, Language.mem_one] at hs
    exact hs.resolve_left hne

theorem mem_one_kstar : s ∈ (one allowed)∗ ↔ s.all allowed = true := by
  induction s with
  | nil => exact iff_of_true (Language.nil_mem_kstar _) rfl
  | cons c s ih =>
    have hstep : c :: s ∈ (one allowed)∗ ↔ c :: s ∈ 1 + one allowed * (one allowed)∗ := by
      rw [Language.one_add_self_mul_kstar_eq_kstar]
    rw [all_cons, Bool.and_eq_true, ← ih, hstep, Language.mem_add, Language.mem_one]
    constructor
    · rintro (h | ⟨_, ⟨d, hd, rfl⟩, t, ht, heq⟩)
      · cases h
      · cases heq
        exact ⟨hd, ht⟩
    · rintro ⟨hc, hs⟩
      exact .inr ⟨[c], ⟨c, hc, rfl⟩, s, hs, rfl⟩

/-- Parts behind a separator each are parts with separators between them, behind one. -/
theorem cons_intercalate (sep : Char) {parts : List (List Char)} (hne : parts ≠ []) :
    sep :: [sep].intercalate parts = (parts.map (sep :: ·)).flatten := by
  induction parts with
  | nil => exact absurd rfl hne
  | cons part parts ih =>
    by_cases hparts : parts = []
    · subst hparts
      simp [List.intercalate]
    · rw [intercalate_cons_of_ne_nil hparts, map_cons, flatten_cons, ← ih hparts]
      simp only [cons_append, nil_append, append_assoc]

theorem cons_mem_kstar_iff {sep : Char} (hsep : ∀ part ∈ rule, sep ∉ part) : sep :: s ∈ (lit [sep] * rule)∗ ↔
    ∀ part ∈ s.splitOn sep, part ∈ rule := by
  constructor
  · intro h
    obtain ⟨words, hwords, hrule⟩ := Language.mem_kstar.1 h
    have hparts : ∃ parts : List (List Char), words = parts.map (sep :: ·) ∧ ∀ part ∈ parts, part ∈ rule := by
      clear hwords h
      induction words with
      | nil => exact ⟨[], rfl, fun _ hmem => nomatch hmem⟩
      | cons word words ih =>
        obtain ⟨parts, rfl, hmem⟩ := ih fun y hy => hrule y (mem_cons_of_mem _ hy)
        obtain ⟨part, hpart, rfl⟩ := mem_lit_mul.1 (hrule word mem_cons_self)
        exact ⟨part :: parts, rfl, forall_mem_cons.2 ⟨hpart, hmem⟩⟩
    obtain ⟨parts, rfl, hmem⟩ := hparts
    have hne : parts ≠ [] := by
      rintro rfl
      cases hwords
    rw [← cons_intercalate sep hne] at hwords
    rw [(List.cons.inj hwords).2, splitOn_intercalate sep (fun part hpart => hsep part (hmem part hpart)) hne]
    exact hmem
  · intro h
    have hs : [sep].intercalate (s.splitOn sep) = s := intercalate_splitOn sep
    rw [← hs, cons_intercalate sep (splitOn_ne_nil sep s)]
    refine Language.join_mem_kstar fun word hword => ?_
    obtain ⟨part, hpart, rfl⟩ := mem_map.1 hword
    exact mem_lit_mul.2 ⟨part, h part hpart, rfl⟩

/-! ## Percent-encoding -/

/-- `HEXDIG`, of either case. -/
def isHexDigit (c : Char) : Bool := c.isDigit || ('a' ≤ c && c ≤ 'f') || ('A' ≤ c && c ≤ 'F')

/-- `pct-encoded = "%" HEXDIG HEXDIG`. -/
def pctEncoded : Language Char := lit ['%'] * one isHexDigit * one isHexDigit

/-- `*( allowed / pct-encoded )`. -/
def encoded (allowed : Char → Bool) : Language Char := (one allowed + pctEncoded)∗

theorem mem_pctEncoded :
    s ∈ pctEncoded ↔ ∃ h₁ h₂, isHexDigit h₁ = true ∧ isHexDigit h₂ = true ∧ s = ['%', h₁, h₂] := by
  constructor
  · rintro ⟨_, ⟨_, rfl, _, ⟨h₁, hh₁, rfl⟩, rfl⟩, _, ⟨h₂, hh₂, rfl⟩, rfl⟩
    exact ⟨h₁, h₂, hh₁, hh₂, rfl⟩
  · rintro ⟨h₁, h₂, hh₁, hh₂, rfl⟩
    exact ⟨['%', h₁], ⟨['%'], rfl, [h₁], ⟨h₁, hh₁, rfl⟩, rfl⟩, [h₂], ⟨h₂, hh₂, rfl⟩, rfl⟩

variable {allowed : Char → Bool}

theorem nil_mem_encoded : [] ∈ encoded allowed := Language.nil_mem_kstar _

theorem encoded_unit_append {u : List Char} (hu : u ∈ one allowed + pctEncoded) (hs : s ∈ encoded allowed) :
    u ++ s ∈ encoded allowed := by
  obtain ⟨parts, rfl, hparts⟩ := Language.mem_kstar.1 hs
  refine Language.mem_kstar.2 ⟨u :: parts, rfl, ?_⟩
  intro part hpart
  rcases mem_cons.1 hpart with rfl | hpart
  · exact hu
  · exact hparts part hpart

theorem cons_mem_encoded {c : Char} : c :: s ∈ encoded allowed ↔ (allowed c = true ∧ s ∈ encoded allowed) ∨ c =
    '%' ∧ ∃ h₁ h₂ rest, isHexDigit h₁ = true ∧ isHexDigit h₂ = true ∧ s = h₁ :: h₂ :: rest ∧ rest ∈
    encoded allowed := by
  constructor
  · intro h
    obtain ⟨parts, hflat, hparts⟩ := Language.mem_kstar_iff_exists_nonempty.1 h
    cases parts with
    | nil => cases hflat
    | cons part parts =>
      have hrest : parts.flatten ∈ encoded allowed :=
        Language.join_mem_kstar fun p hp => (hparts p (mem_cons_of_mem _ hp)).1
      rcases (hparts part mem_cons_self).1 with ⟨d, hd, rfl⟩ | hpct
      · cases hflat
        exact .inl ⟨hd, hrest⟩
      · obtain ⟨h₁, h₂, hh₁, hh₂, rfl⟩ := mem_pctEncoded.1 hpct
        cases hflat
        exact .inr ⟨rfl, h₁, h₂, _, hh₁, hh₂, rfl, hrest⟩
  · rintro (⟨hc, hs⟩ | ⟨rfl, h₁, h₂, rest, hh₁, hh₂, rfl, hrest⟩)
    · exact encoded_unit_append (.inl ⟨c, hc, rfl⟩) hs
    · exact encoded_unit_append (.inr (mem_pctEncoded.2 ⟨h₁, h₂, hh₁, hh₂, rfl⟩)) hrest

theorem of_mem_encoded {c : Char} : {s : List Char} → s ∈ encoded allowed → c ∈ s → allowed c = true ∨ c = '%' ∨
    isHexDigit c = true
  | [], _, hc => nomatch hc
  | d :: s, hs, hc => by
    rcases cons_mem_encoded.1 hs with ⟨hd, hs⟩ | ⟨rfl, h₁, h₂, rest, hh₁, hh₂, rfl, hrest⟩
    · rcases mem_cons.1 hc with rfl | hc
      · exact .inl hd
      · exact of_mem_encoded hs hc
    · simp only [mem_cons] at hc
      rcases hc with rfl | rfl | rfl | hc
      · exact .inr (.inl rfl)
      · exact .inr (.inr hh₁)
      · exact .inr (.inr hh₂)
      · exact of_mem_encoded hrest hc

end Abnf
