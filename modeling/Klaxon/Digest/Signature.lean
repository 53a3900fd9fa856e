import Klaxon.Digest.Base64
import Klaxon.Digest.Sha256

/-!
# Signatures with a shared secret

The keyed digest of a text: HMAC over SHA-256, written in base 64.
-/

namespace Klaxon.Digest

/-- A secret as one block: a long one is digested first, and zeros fill it up. -/
def keyBlock (secret : List UInt8) : List UInt8 :=
  let key := if 64 < secret.length then sha256 secret else secret
  key ++ List.replicate (64 - key.length) 0

/-- The keyed digest of bytes. -/
def hmac (secret bytes : List UInt8) : List UInt8 :=
  let key := keyBlock secret
  sha256 (key.map (· ^^^ 0x5c) ++ sha256 (key.map (· ^^^ 0x36) ++ bytes))

/-- The bytes of a text. -/
def bytesOf (text : String) : List UInt8 := text.toUTF8.toList

/-- The signature of a text under a secret. -/
def sign (secret text : String) : String := base64 (hmac (bytesOf secret) (bytesOf text))

end Klaxon.Digest
