-- SUMMARY: What the channel takes from elsewhere: the messages and their codec, the cryptographic operations, and the AEAD calls.
import ImProject.Channel.Encoding

/-!
# Messages and primitives of the channel

Protobuf and the cryptographic libraries are parameters. Of protobuf only the
round trip is used; of the primitives, that X25519 commutes and that HKDF returns
as many bytes as it is asked for.
-/

open Library

namespace Channel

/-! ## Frames and messages -/

/-- A protocol id with its payload: a frame on the wire, or the packet inside an
encrypted frame. -/
structure Frame where
  type : UInt32
  payload : Bytes
  deriving DecidableEq

structure AppClientHello where
  version : UInt32
  clientEphemeralPublicKey : Bytes
  clientNonce : Bytes
  clientRandomId : Bytes
  cipherSuite : UInt32
  deriving DecidableEq

structure AppServerHello where
  version : UInt32
  serverEphemeralPublicKey : Bytes
  serverNonce : Bytes
  sessionId : Bytes
  keyId : UInt32
  signature : Bytes
  cipherSuite : UInt32
  deriving DecidableEq

structure AppFinished where
  verifyData : Bytes
  deriving DecidableEq

structure AppEncryptedFrame where
  version : UInt32
  sessionId : Bytes
  sequence : UInt64
  ciphertext : Bytes
  tag : Bytes
  deriving DecidableEq

/-- The serializer and the parser of one message type. -/
structure Codec (M : Type) where
  serialize : M → Bytes
  parse : Bytes → Option M
  parse_serialize : ∀ m, parse (serialize m) = some m

structure Codecs where
  clientHello : Codec AppClientHello
  serverHello : Codec AppServerHello
  finished : Codec AppFinished
  encryptedFrame : Codec AppEncryptedFrame

/-! ## Primitives -/

/-- An array of a fixed length, as the random generator returns it. -/
def ByteArrayOf (n : Nat) := { b : Bytes // b.length = n }

/-- The operations of `AppCrypto`, which has them from its libraries. The result
is `none` where the call throws. -/
structure Primitives where
  sha256 : Bytes → Bytes
  hmacSha256 (key data : Bytes) : Bytes
  hkdfSha256 (inputKeyMaterial salt info : Bytes) (outputLength : Nat) : Bytes
  x25519PublicFromPrivate (privateKey : Bytes) : Bytes
  x25519SharedSecret (privateKey peerPublicKey : Bytes) : Option Bytes
  ed25519Sign (privateKey message : Bytes) : Option Bytes
  ed25519Verify (publicKey message signature : Bytes) : Bool
  hkdfSha256_length : ∀ ikm salt info n, n ≤ 255 * 32 → (hkdfSha256 ikm salt info n).length = n
  x25519_comm : ∀ a b, a.length = APP_X25519_KEY_LEN → b.length = APP_X25519_KEY_LEN →
    x25519SharedSecret a (x25519PublicFromPrivate b) =
      x25519SharedSecret b (x25519PublicFromPrivate a)

/-- What `generateX25519KeyPair` returns. -/
structure X25519KeyPair (P : Primitives) where
  privateKey : ByteArrayOf APP_X25519_KEY_LEN
  publicKey : ByteArrayOf APP_X25519_KEY_LEN
  isPublic : publicKey.1 = P.x25519PublicFromPrivate privateKey.1

/-! ## Keys of a channel -/

/-- What the 136 bytes of key material are cut into. -/
structure ChannelKeys where
  clientToServerKey : Bytes
  serverToClientKey : Bytes
  clientNoncePrefix : Bytes
  serverNoncePrefix : Bytes
  clientFinishedKey : Bytes
  serverFinishedKey : Bytes
  deriving DecidableEq

/-! ## AEAD calls -/

structure AesGcmResult where
  ciphertext : Bytes
  tag : Bytes
  deriving DecidableEq

/-- A call of `aes256GcmEncrypt` that has returned, with its result. -/
structure Sealed where
  key : Bytes
  nonce : Bytes
  plaintext : Bytes
  aad : Bytes
  result : AesGcmResult
  deriving DecidableEq

abbrev Encrypt := (key nonce plaintext aad : Bytes) → Option AesGcmResult

abbrev Decrypt := (key nonce ciphertext aad tag : Bytes) → Option Bytes

end Channel
