import MeshNode.Crypto.ChaCha20
import MeshNode.Crypto.Poly1305

/-!
# Authenticated encryption

XChaCha20-Poly1305: the cipher keeps the length of what it encrypts, and sixteen bytes of tag
authenticate the ciphertext together with further bytes that are not encrypted. Decryption answers
only if the tag is the one that encryption would have made, so that what it accepts is exactly what
encryption produces (`decrypt_encrypt`, `encrypt_of_decrypt`).
-/

namespace MeshNode.Aead

/-- The length of a key. -/
def keyLength : Nat := 32

/-- The length of a nonce. -/
def nonceLength : Nat := 24

/-- The length of a tag. -/
def tagLength : Nat := 16

/-- The key and nonce of the inner cipher. -/
def inner (key nonce : Bytes) : Bytes × Bytes :=
  (ChaCha20.subkey key (nonce.take 16), [0, 0, 0, 0] ++ nonce.drop 16)

/-- Zeros that complete a last block of sixteen bytes. -/
def fill (b : Bytes) : Bytes := List.replicate ((16 - b.length % 16) % 16) 0

/-- The tag of a ciphertext and the bytes authenticated with it. -/
def tag (key nonce aad body : Bytes) : Bytes :=
  let (k, n) := inner key nonce
  Poly1305.tag ((ChaCha20.block k n 0).take 32)
    (aad ++ fill aad ++ body ++ fill body ++
      Bytes.ofNatLE 8 aad.length ++ Bytes.ofNatLE 8 body.length)

/-- Encrypts or decrypts, without any authentication. -/
def stream (key nonce b : Bytes) : Bytes :=
  let (k, n) := inner key nonce
  ChaCha20.apply k n 1 b

/-- The ciphertext of a plaintext, followed by the tag. -/
def encrypt (key nonce aad plaintext : Bytes) : Bytes :=
  let body := stream key nonce plaintext
  body ++ tag key nonce aad body

/-- The plaintext of a ciphertext with its tag, if the tag is right. -/
def decrypt (key nonce aad ciphertext : Bytes) : Option Bytes :=
  let body := ciphertext.take (ciphertext.length - tagLength)
  if ciphertext.drop (ciphertext.length - tagLength) = tag key nonce aad body then
    some (stream key nonce body)
  else none

@[simp] theorem length_tag (key nonce aad body : Bytes) : (tag key nonce aad body).length = 16 := by
  simp [tag]

@[simp] theorem length_stream (key nonce b : Bytes) : (stream key nonce b).length = b.length := by
  simp [stream]

/-- Encrypting and decrypting are the same but for the tag. -/
@[simp] theorem stream_stream (key nonce b : Bytes) :
    stream key nonce (stream key nonce b) = b := by
  simp [stream]

@[simp] theorem length_encrypt (key nonce aad plaintext : Bytes) :
    (encrypt key nonce aad plaintext).length = plaintext.length + tagLength := by
  simp [encrypt, tagLength]

/-- What was encrypted is decrypted. -/
theorem decrypt_encrypt (key nonce aad plaintext : Bytes) :
    decrypt key nonce aad (encrypt key nonce aad plaintext) = some plaintext := by
  have hlength := length_encrypt key nonce aad plaintext
  have hcut : (encrypt key nonce aad plaintext).length - tagLength =
      (stream key nonce plaintext).length := by simp [hlength]
  simp only [decrypt, hcut]
  simp [encrypt]

/-- Only what encryption makes is decrypted. -/
theorem encrypt_of_decrypt {key nonce aad ciphertext plaintext : Bytes}
    (h : decrypt key nonce aad ciphertext = some plaintext) :
    encrypt key nonce aad plaintext = ciphertext := by
  simp only [decrypt, Option.ite_none_right_eq_some, Option.some.injEq] at h
  obtain ⟨hright, rfl⟩ := h
  simp only [encrypt, stream_stream]
  rw [← hright, List.take_append_drop]

end MeshNode.Aead
