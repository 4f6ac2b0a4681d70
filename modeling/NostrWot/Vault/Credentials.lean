import NostrWot.Vault.Serialization

namespace NostrWot.Vault

/-! # Credentials

The identifiers of a passkey, and the packages that its records are made with.
-/

open Data

abbrev Bytes : Type := List UInt8

structure Packages extends Codecs where
  /-- `hkdf(sha256, secret, salt, info, 32)`. -/
  hkdf : Bytes → Bytes → Bytes → Bytes
  encrypt : Bytes → Bytes → Bytes → Bytes → Bytes
  /-- `gcm(key, nonce, aad).decrypt(ciphertext)`; `none` where the tag is wrong. -/
  decrypt : Bytes → Bytes → Bytes → Bytes → Option Bytes

structure Packages.Lawful (packages : Packages) : Prop extends packages.toCodecs.Lawful where
  opens : ∀ key nonce aad plaintext,
    packages.decrypt key nonce aad (packages.encrypt key nonce aad plaintext) = some plaintext
  tag : ∀ key nonce aad plaintext,
    (packages.encrypt key nonce aad plaintext).length = plaintext.length + 16

/-- Base64 takes four characters for each three bytes that are begun. -/
structure Packages.Sized (packages : Packages) : Prop where
  base64 : ∀ bytes, (packages.bytesToBase64 bytes).length = (bytes.length + 2) / 3 * 4

theorem length_standard (bytes : Bytes) :
    (standard.bytesToBase64 bytes).length = (bytes.length + 2) / 3 * 4 := by
  rw [← Base64.length_btoa]
  exact Units.length_ofChars fun _ => Base64.small_of_mem_btoa

/-- `/^[a-f0-9]{64}$/`. -/
def isHex64 (text : Units) : Bool := text.length = 64 && text.all isHexUnit

def isAlphanumeric (unit : UInt16) : Bool := (48 ≤ unit && unit ≤ 57) || (97 ≤ unit && unit ≤ 122)

/-- `/^[a-z0-9](?:[a-z0-9.-]*[a-z0-9])?$/`. -/
def isHostPattern (text : Units) : Bool :=
  text.head?.any isAlphanumeric && text.getLast?.any isAlphanumeric &&
    text.all fun unit => isAlphanumeric unit || unit = 46 || unit = 45

def validPasskeyRpId (value : Units) : Bool :=
  value.length ≤ 253 && value.contains 46 && isHostPattern value &&
    (value.splitOn 46).all fun label =>
      0 < label.length && label.length ≤ 63 && label.head? ≠ some 45 && label.getLast? ≠ some 45

def canonicalCredential (packages : Packages) (credentialId : Units) : Option Bytes :=
  if 1368 < credentialId.length then none
  else
    (packages.base64ToBytes credentialId).bind fun bytes =>
      if bytes.isEmpty || 1024 < bytes.length || packages.bytesToBase64 bytes ≠ credentialId then none
      else some bytes

end NostrWot.Vault
