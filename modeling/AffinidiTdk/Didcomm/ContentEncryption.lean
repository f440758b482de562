/-
Content encryption with A256CBC-HS512 (affinidi-crypto `jose/content_encryption.rs`): PKCS#7 padding to whole blocks,
AES-256-CBC under the second half of the key, and a tag over the additional data, the initialization vector, the
ciphertext and the length of the additional data. AES-CBC and HMAC are parameters.
-/
import AffinidiTdk.Didcomm.Envelope
import AffinidiTdk.Lib.Bytes

namespace AffinidiTdk.Didcomm

open List

/-! ## Padding -/

/-- PKCS#7: the number of missing bytes, that many times; a whole block where none is missing. -/
def pad (plaintext : Bytes) : Bytes :=
  plaintext ++ List.replicate (16 - plaintext.length % 16) (UInt8.ofNat (16 - plaintext.length % 16))

def unpad (decrypted : Bytes) : Except String Bytes :=
  match decrypted.getLast? with
  | none => .error "decrypted data is empty"
  | some last =>
    let padLen := last.toNat
    if padLen = 0 ∨ padLen > 16 ∨ padLen > decrypted.length then .error "invalid PKCS7 padding"
    else if (decrypted.drop (decrypted.length - padLen)).any (·.toNat ≠ padLen) then .error "invalid PKCS7 padding"
    else .ok (decrypted.take (decrypted.length - padLen))

theorem length_pad (plaintext : Bytes) : (pad plaintext).length % 16 = 0 := by
  rw [pad, length_append, length_replicate]
  omega

theorem unpad_pad (plaintext : Bytes) : unpad (pad plaintext) = .ok plaintext := by
  obtain ⟨n, hn, hpos, hle⟩ : ∃ n, n = 16 - plaintext.length % 16 ∧ 0 < n ∧ n ≤ 16 :=
    ⟨_, rfl, by omega, by omega⟩
  have hbyte : (UInt8.ofNat n).toNat = n := by
    rw [UInt8.toNat_ofNat']
    omega
  have hlast : (pad plaintext).getLast? = some (UInt8.ofNat n) := by
    rw [pad, ← hn, getLast?_append, getLast?_replicate, if_neg (by omega)]
    rfl
  have hlength : (pad plaintext).length - n = plaintext.length := by
    rw [pad, ← hn, length_append, length_replicate]
    omega
  unfold unpad
  rw [hlast]
  simp only [hbyte, hlength]
  rw [if_neg, pad, ← hn, drop_left, take_left, if_neg]
  · simp [hbyte]
  · rw [pad, ← hn, length_append, length_replicate]
    omega

/-! ## Encryption -/

/-- AES-256-CBC on whole blocks and HMAC-SHA-512, each under a key given first. -/
structure CbcHmac where
  cbcEncrypt : Bytes → Bytes → Bytes → Bytes
  cbcDecrypt : Bytes → Bytes → Bytes → Except String Bytes
  hmacSha512 : Bytes → Bytes → Bytes

/-- AES-CBC is a bijection on whole blocks, and an HMAC-SHA-512 has 64 bytes. -/
structure CbcHmac.Lawful (prims : CbcHmac) : Prop where
  decrypt_encrypt : ∀ {key iv blocks : Bytes}, key.length = 32 → iv.length = 16 → blocks.length % 16 = 0 →
    prims.cbcDecrypt key iv (prims.cbcEncrypt key iv blocks) = .ok blocks
  length_hmac : ∀ key data : Bytes, (prims.hmacSha512 key data).length = 64

/-- Eight bytes, the most significant first. -/
def u64BeBytes (n : ℕ) : Bytes := (Bytes.beBytes 8 (n % 2 ^ 64)).map UInt8.ofNat

section

variable (prims : CbcHmac)

/-- The tag: the first half of the HMAC under the first half of the key. -/
def contentTag (cek iv aad ciphertext : Bytes) : Bytes :=
  (prims.hmacSha512 (cek.take 32) (aad ++ iv ++ ciphertext ++ u64BeBytes (aad.length * 8))).take 32

/-- `content_encryption::encrypt`: the ciphertext and the tag. -/
def contentEncrypt (plaintext cek iv aad : Bytes) : Bytes × Bytes :=
  let ciphertext := prims.cbcEncrypt (cek.drop 32) iv (pad plaintext)
  (ciphertext, contentTag prims cek iv aad ciphertext)

/-- `content_encryption::decrypt`: the tag is compared first. -/
def contentDecrypt (ciphertext cek iv aad tag : Bytes) : Except String Bytes :=
  if contentTag prims cek iv aad ciphertext ≠ tag then .error "authentication tag mismatch"
  else do
    let decrypted ← (prims.cbcDecrypt (cek.drop 32) iv ciphertext).mapError ("AES-CBC decrypt failed: " ++ ·)
    unpad decrypted

end

variable {prims : CbcHmac}

theorem length_contentTag (h : prims.Lawful) (cek iv aad ciphertext : Bytes) :
    (contentTag prims cek iv aad ciphertext).length = 32 := by
  rw [contentTag, length_take, h.length_hmac]
  rfl

theorem contentDecrypt_encrypt (h : prims.Lawful) {cek iv : Bytes} (hcek : cek.length = 64) (hiv : iv.length = 16)
    (plaintext aad : Bytes) :
    contentDecrypt prims (contentEncrypt prims plaintext cek iv aad).1 cek iv aad
      (contentEncrypt prims plaintext cek iv aad).2 = .ok plaintext := by
  have hkey : (cek.drop 32).length = 32 := by rw [length_drop, hcek]
  unfold contentDecrypt contentEncrypt
  rw [if_neg (not_not.2 rfl), h.decrypt_encrypt hkey hiv (length_pad plaintext)]
  exact unpad_pad plaintext

end AffinidiTdk.Didcomm
