import BatchRun.Digest.Sha256

/-!
# Fingerprints of sequences of texts

A fingerprint is the beginning of a digest. Each text is preceded by its length, so no two
sequences of texts are fed to the digest as the same bytes.

* `Fingerprint.preimage`: **the bytes that a sequence of texts is fed as**;
* `fingerprint`: sixteen hexadecimal digits.
-/

namespace BatchRun

namespace Fingerprint

/-- The bytes of a text, after its length in eight bytes, least significant first. -/
def framed (text : String) : List UInt8 :=
  let bytes := text.toUTF8.toList
  Sha256.littleEndian 8 bytes.length ++ bytes

/-- The bytes of a sequence of texts. -/
def preimage (texts : List String) : List UInt8 := texts.flatMap framed

/-- The two hexadecimal digits of a byte. -/
def hexByte (b : UInt8) : List Char :=
  let digit (n : Nat) : Char := if n < 10 then Char.ofNat (48 + n) else Char.ofNat (87 + n)
  [digit (b.toNat / 16), digit (b.toNat % 16)]

end Fingerprint

/-- The first eight bytes of the digest of a sequence of texts, in hexadecimal. -/
def fingerprint (texts : List String) : String :=
  String.ofList (((Sha256.digest (Fingerprint.preimage texts)).take 8).flatMap Fingerprint.hexByte)

end BatchRun
