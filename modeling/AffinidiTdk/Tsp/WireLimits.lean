/-
Where the frames of `wire.rs` reach their limits. A long count code is read with two bits of its
identifier above the count, and a variable-data field of 2^24 quadlets states the size zero.
-/
import AffinidiTdk.Tsp.Wire

namespace AffinidiTdk.Tsp.Wire

open Option Slice

open Slice (At)

variable {stream payload : Bytes} {pos identifier count : ℕ}

/-! ## Count codes -/

/-- The long form of a count code: the decoder's index holds the identifier too, of which the shift
to a `u32` leaves the lowest two bits. -/
theorem readBack_long (hcount : count < 2 ^ 30) (hlong : ¬count < 4096) :
    readBack identifier count = identifier % 4 * 2 ^ 30 + count := by
  have hlow : bits (count >>> 24) 6 = count / 2 ^ 24 := by
    rw [bits_eq_mod, Nat.shiftRight_eq_div_pow]
    omega
  have hhigh : ((identifier * 2 ^ 6 + count / 2 ^ 24) <<< 24) % 2 ^ 32 =
      (identifier % 4 * 2 ^ 6 + count / 2 ^ 24) <<< 24 := by
    rw [Nat.shiftLeft_eq, Nat.shiftLeft_eq]
    omega
  have hrest : count % 2 ^ 24 < 2 ^ 24 := by omega
  rw [readBack, if_neg hlong, hlow, hhigh, bits_eq_mod, shiftLeft_or _ hrest]
  omega

/-- A count code is read back, position and count, exactly in the short form and under the
identifiers whose last two bits are zero. -/
theorem countCode_roundTrip_iff (hid : identifier < 64) (hne : identifier ≠ 52) (hcount : count < 2 ^ 30)
    (h : At stream pos (encodeCount identifier count)) :
    decodeCount identifier stream pos = some (count, pos + (encodeCount identifier count).length) ↔
      count < 4096 ∨ identifier % 4 = 0 := by
  rw [decodeCount_encodeCount_eq hid hne h, Option.some.injEq, Prod.mk.injEq, and_iff_left rfl]
  by_cases hshort : count < 4096
  · have hread : readBack identifier count = count := if_pos hshort
    exact iff_of_true hread (.inl hshort)
  · rw [readBack_long hcount hshort]
    omega

theorem countCode_roundTrip_short :
    decodeCount tspEtsWrapper (encodeCount tspEtsWrapper 19 ++ [0x61]) 0 =
        some (19, 0 + (encodeCount tspEtsWrapper 19).length) ↔
      19 < 4096 ∨ tspEtsWrapper % 4 = 0 :=
  countCode_roundTrip_iff (by decide) (by decide) (by decide) (at_self _ _)

/-- Under the identifier `B` the count 4096 is read as 2^30 + 4096. -/
theorem decodeCount_long_misread :
    ¬∀ identifier count : ℕ, identifier < 64 → identifier ≠ 52 → count < 2 ^ 30 → ∀ rest : Bytes,
      decodeCount identifier (encodeCount identifier count ++ rest) 0 =
        some (count, (encodeCount identifier count).length) := by
  intro hall
  have hread := hall 1 4096 (by decide) (by decide) (by decide) []
  exact absurd hread (by decide +kernel)

/-! ## Variable data -/

theorem extractTriplet_lt {head : Bytes} (h : head.length = 3) : extractTriplet head < 2 ^ 24 := by
  have hbytes : ∀ b ∈ head.map UInt8.toNat, b < 256 := by
    intro b hb
    obtain ⟨byte, -, rfl⟩ := List.mem_map.1 hb
    exact byte.toNat_lt
  have hlt := Bytes.ofBeBytes_lt hbytes
  rwa [List.length_map, h] at hlt

theorem variableHeader_bounds {s : Bytes} {selector size : ℕ}
    (h : variableHeader s = some (selector, identifier, size)) :
    D4 ≤ selector ∧ selector ≤ D9 ∧ size < 2 ^ 24 := by
  unfold variableHeader at h
  obtain ⟨head, hhead, h⟩ := bind_eq_some_iff.1 h
  dsimp only at h
  split at h
  · rename_i hselector
    obtain ⟨rfl, -, rfl⟩ : _ = selector ∧ _ = identifier ∧ _ = size := by
      simpa only [Option.some.injEq, Prod.mk.injEq] using h
    rw [and_mask]
    unfold D4 D5 D6 D9 D0 at *
    omega
  · split at h
    · rename_i hselector
      obtain ⟨second, hsecond, h⟩ := bind_eq_some_iff.1 h
      obtain ⟨rfl, -, rfl⟩ : _ = selector ∧ _ = identifier ∧ _ = size := by
        simpa only [Option.some.injEq, Prod.mk.injEq] using h
      have hsize := extractTriplet_lt (length_of_get? hsecond)
      unfold D4 D7 D8 D9 D0 at *
      omega
    · cases h

/-- A range the decoder gives lies in the stream, behind the header and the lead bytes, and ends where
the header's size says. -/
theorem range_of_decodeVariableDataRange {start stop : ℕ}
    (h : decodeVariableDataRange identifier stream pos = some (start, stop)) :
    ∃ selector size, variableHeader (stream.drop pos) = some (selector, identifier, size) ∧
      start = pos + 3 + (selector - D4) ∧ start ≤ stop ∧ stop ≤ stream.length ∧
      stop = pos + (if selector ≤ D6 then 3 else 6) + 3 * size := by
  unfold decodeVariableDataRange at h
  obtain ⟨s, hs, h⟩ := bind_eq_some_iff.1 h
  obtain ⟨hpos, rfl⟩ := from?_eq_some_iff.1 hs
  obtain ⟨⟨selector, foundId, size⟩, hheader, hfound⟩ := bind_eq_some_iff.1 h
  dsimp only at hfound
  split at hfound
  · cases hfound
  · rename_i hid
    obtain rfl : foundId = identifier := of_not_not hid
    split at hfound
    · cases hfound
    · obtain ⟨data, hdata, hrange⟩ := bind_eq_some_iff.1 hfound
      obtain ⟨hle, hstop, -⟩ := get?_eq_some_iff.1 hdata
      obtain ⟨rfl, rfl⟩ : _ = start ∧ _ = stop := by
        simpa only [Option.some.injEq, Prod.mk.injEq] using hrange
      obtain ⟨hlow, hhigh, -⟩ := variableHeader_bounds hheader
      have hfield : nextMultipleOfThree (selector - D4 + 1) = if selector ≤ D6 then 3 else 6 := by
        unfold nextMultipleOfThree D6
        unfold D4 D9 at *
        split <;> omega
      rw [List.length_drop] at hstop
      rw [hfield] at hle hstop
      refine ⟨selector, size, hheader, by omega, ?_, ?_, ?_⟩
      · omega
      · omega
      · omega

theorem length_le_of_decodeVariableData {stop : ℕ}
    (h : decodeVariableData identifier stream pos = some (payload, stop)) :
    payload.length ≤ 3 * (2 ^ 24 - 1) := by
  obtain ⟨⟨start, last⟩, hrange, hdata⟩ := bind_eq_some_iff.1 h
  obtain ⟨data, hget, hread⟩ := bind_eq_some_iff.1 hdata
  obtain ⟨rfl, rfl⟩ : data = payload ∧ last = stop := by
    simpa only [Option.some.injEq, Prod.mk.injEq] using hread
  obtain ⟨selector, size, hheader, hstart, -, -, hstop⟩ := range_of_decodeVariableDataRange hrange
  obtain ⟨hlow, hhigh, hsize⟩ := variableHeader_bounds hheader
  rw [length_of_get? hget]
  unfold D6 at hstop
  unfold D4 D9 at *
  split at hstop <;> omega

/-- A field is read back, data and position, exactly when its size fits the 24 bits of the long header,
which the longest fields of the limit do not; and whatever the stream, the range that is given lies in
it and in the field the header declares. -/
theorem variableData_roundTrip_iff (hid : identifier < 2 ^ 18)
    (h : At stream pos (encodeVariableData identifier payload)) :
    (decodeVariableData identifier stream pos =
        some (payload, pos + (encodeVariableData identifier payload).length) ↔ payload.length ≤ 3 * (2 ^ 24 - 1)) ∧
    ∀ (anyIdentifier : ℕ) (anyStream : Bytes) (anyPos start stop : ℕ),
      decodeVariableDataRange anyIdentifier anyStream anyPos = some (start, stop) →
      ∃ selector size, variableHeader (anyStream.drop anyPos) = some (selector, anyIdentifier, size) ∧
        start = anyPos + 3 + (selector - D4) ∧ start ≤ stop ∧ stop ≤ anyStream.length ∧
        stop = anyPos + (if selector ≤ D6 then 3 else 6) + 3 * size := by
  refine ⟨⟨length_le_of_decodeVariableData, fun hfits => ?_⟩, fun _ _ _ _ _ => range_of_decodeVariableDataRange⟩
  exact decodeVariableData_encodeVariableData hid hfits h

theorem variableData_roundTrip_long_identifier :
    (decodeVariableData 4096 (encodeVariableData 4096 [1, 2, 3, 4] ++ [5]) 0 =
        some ([1, 2, 3, 4], 0 + (encodeVariableData 4096 [1, 2, 3, 4]).length) ↔
      [1, 2, 3, 4].length ≤ 3 * (2 ^ 24 - 1)) ∧
    ∀ (anyIdentifier : ℕ) (anyStream : Bytes) (anyPos start stop : ℕ),
      decodeVariableDataRange anyIdentifier anyStream anyPos = some (start, stop) →
      ∃ selector size, variableHeader (anyStream.drop anyPos) = some (selector, anyIdentifier, size) ∧
        start = anyPos + 3 + (selector - D4) ∧ start ≤ stop ∧ stop ≤ anyStream.length ∧
        stop = anyPos + (if selector ≤ D6 then 3 else 6) + 3 * size :=
  variableData_roundTrip_iff (by decide) (at_self _ _)

/-- The longest field the limit allows is not read back: its size is cut to zero. -/
theorem decodeVariableData_limit_lost :
    ¬∀ (identifier : ℕ) (payload rest : Bytes), identifier < 2 ^ 18 → payload.length ≤ maxFieldSize →
      decodeVariableData identifier (encodeVariableData identifier payload ++ rest) 0 =
        some (payload, (encodeVariableData identifier payload).length) := by
  intro hall
  have hlength : (List.replicate (3 * 2 ^ 24) (0 : UInt8)).length = maxFieldSize := List.length_replicate
  have hread := hall tspPlaintext (List.replicate (3 * 2 ^ 24) 0) [] (by decide) hlength.le
  have hle := length_le_of_decodeVariableData hread
  rw [List.length_replicate] at hle
  omega

end AffinidiTdk.Tsp.Wire
