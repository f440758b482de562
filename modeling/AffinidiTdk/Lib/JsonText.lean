/-
The compact text of a JSON value: no blanks, the members of an object in their order, and only quotes,
backslashes and control characters escaped.
-/
import AffinidiTdk.Lib.Json

namespace Json

open List

def hexLower (n : ℕ) : Char := if n < 10 then Char.ofNat (48 + n) else Char.ofNat (87 + n)

def escapeChar (c : Char) : List Char :=
  if c = '"' then ['\\', '"']
  else if c = '\\' then ['\\', '\\']
  else if c = '\x08' then ['\\', 'b']
  else if c = '\t' then ['\\', 't']
  else if c = '\n' then ['\\', 'n']
  else if c = '\x0c' then ['\\', 'f']
  else if c = '\r' then ['\\', 'r']
  else if c < '\x20' then ['\\', 'u', '0', '0', hexLower (c.toNat / 16), hexLower (c.toNat % 16)]
  else [c]

def quoted (s : String) : List Char := '"' :: s.toList.flatMap escapeChar ++ ['"']

mutual

def chars : Json → List Char
  | null => "null".toList
  | bool b => (if b then "true" else "false").toList
  | int n => (toString n).toList
  | float text => text.toList
  | str s => quoted s
  | arr items => '[' :: charsItems items ++ [']']
  | obj fields => '\x7b' :: charsFields fields ++ ['\x7d']

def charsItems : List Json → List Char
  | [] => []
  | [item] => chars item
  | item :: next :: items => chars item ++ ',' :: charsItems (next :: items)

def charsFields : List (String × Json) → List Char
  | [] => []
  | [(key, value)] => quoted key ++ ':' :: chars value
  | (key, value) :: next :: fields => quoted key ++ ':' :: chars value ++ ',' :: charsFields (next :: fields)

end

/-- The text stands in quotes as it is: no quote, no backslash and no control character. -/
def verbatim (s : String) : Bool := s.toList.all fun c => c ≠ '"' ∧ c ≠ '\\' ∧ '\x20' ≤ c

theorem escapeChar_length (c : Char) : 1 ≤ (escapeChar c).length ∧
    ((escapeChar c).length = 1 → c ≠ '"' ∧ c ≠ '\\' ∧ '\x20' ≤ c) := by
  unfold escapeChar
  split_ifs with h₁ h₂ h₃ h₄ h₅ h₆ h₇ h₈
  all_goals first | exact ⟨Nat.le_refl _, fun _ => ⟨h₁, h₂, not_lt.1 h₈⟩⟩ | exact ⟨by simp, by simp⟩

theorem escapeChar_verbatim {c : Char} (h : c ≠ '"' ∧ c ≠ '\\' ∧ '\x20' ≤ c) : escapeChar c = [c] := by
  obtain ⟨hquote, hbackslash, hcontrol⟩ := h
  have hne : ∀ d : Char, d < '\x20' → c ≠ d := fun d hd hc => absurd hcontrol (not_le.2 (hc ▸ hd))
  rw [escapeChar, if_neg hquote, if_neg hbackslash, if_neg (hne _ (by decide)), if_neg (hne _ (by decide)),
    if_neg (hne _ (by decide)), if_neg (hne _ (by decide)), if_neg (hne _ (by decide)), if_neg (not_lt.2 hcontrol)]

theorem escape_length (s : List Char) : s.length ≤ (s.flatMap escapeChar).length ∧
    ((s.flatMap escapeChar).length = s.length → s.all fun c => c ≠ '"' ∧ c ≠ '\\' ∧ '\x20' ≤ c) := by
  induction s with
  | nil => exact ⟨Nat.le_refl _, fun _ => rfl⟩
  | cons c s ih =>
    obtain ⟨hle, hall⟩ := ih
    obtain ⟨hone, hverbatim⟩ := escapeChar_length c
    rw [flatMap_cons, length_append, length_cons, all_cons, Bool.and_eq_true]
    exact ⟨by omega, fun h => ⟨decide_eq_true (hverbatim (by omega)), hall (by omega)⟩⟩

theorem escape_verbatim {s : String} (h : verbatim s) : s.toList.flatMap escapeChar = s.toList := by
  rw [flatMap_congr fun c hc => escapeChar_verbatim (of_decide_eq_true (all_eq_true.1 h c hc))]
  exact flatMap_singleton' _

/-- `serde_json::to_string`. -/
def toText (value : Json) : String := String.ofList value.chars

end Json
