-- SUMMARY: The messages of the channel as protobuf writes them: their fields on the wire, and that they are read back.
import ImProject.Library.Proto
import ImProject.Channel.Primitives

/-!
# The messages of the channel on the wire

The field numbers of `im.proto`, and with them codecs for the four messages.
-/

open Library

namespace Channel

open Proto

/-- The codec of a message that is given by its fields and read back from them. -/
def protoCodec {M : Type} (fields : M → List Field) (ofFields : List Field → M)
    (h : ∀ m, ofFields (fields m) = m) : Codec M where
  serialize m := encode (fields m)
  parse b := (decode b).map ofFields
  parse_serialize m := by rw [decode_encode, Option.map_some, h]

def AppClientHello.fields (m : AppClientHello) : List Field :=
  number 1 m.version.toNat ++ bytes 2 m.clientEphemeralPublicKey ++ bytes 3 m.clientNonce ++
    bytes 4 m.clientRandomId ++ number 5 m.cipherSuite.toNat

def AppClientHello.ofFields (fs : List Field) : AppClientHello where
  version := UInt32.ofNat (getNumber fs 1)
  clientEphemeralPublicKey := getBytes fs 2
  clientNonce := getBytes fs 3
  clientRandomId := getBytes fs 4
  cipherSuite := UInt32.ofNat (getNumber fs 5)

def AppServerHello.fields (m : AppServerHello) : List Field :=
  number 1 m.version.toNat ++ bytes 2 m.serverEphemeralPublicKey ++ bytes 3 m.serverNonce ++
    bytes 4 m.sessionId ++ number 5 m.keyId.toNat ++ bytes 6 m.signature ++
    number 7 m.cipherSuite.toNat

def AppServerHello.ofFields (fs : List Field) : AppServerHello where
  version := UInt32.ofNat (getNumber fs 1)
  serverEphemeralPublicKey := getBytes fs 2
  serverNonce := getBytes fs 3
  sessionId := getBytes fs 4
  keyId := UInt32.ofNat (getNumber fs 5)
  signature := getBytes fs 6
  cipherSuite := UInt32.ofNat (getNumber fs 7)

def AppFinished.fields (m : AppFinished) : List Field := bytes 1 m.verifyData

def AppFinished.ofFields (fs : List Field) : AppFinished where
  verifyData := getBytes fs 1

def AppEncryptedFrame.fields (m : AppEncryptedFrame) : List Field :=
  number 1 m.version.toNat ++ bytes 2 m.sessionId ++ number 3 m.sequence.toNat ++
    bytes 4 m.ciphertext ++ bytes 5 m.tag

def AppEncryptedFrame.ofFields (fs : List Field) : AppEncryptedFrame where
  version := UInt32.ofNat (getNumber fs 1)
  sessionId := getBytes fs 2
  sequence := UInt64.ofNat (getNumber fs 3)
  ciphertext := getBytes fs 4
  tag := getBytes fs 5

theorem uint32_of {fs : List Field} {k : Nat} {v : UInt32}
    (h : numbersOf fs k = numbersOf (number k v.toNat) k) : UInt32.ofNat (getNumber fs k) = v := by
  rw [getNumber_of h, UInt32.ofNat_toNat]

theorem uint64_of {fs : List Field} {k : Nat} {v : UInt64}
    (h : numbersOf fs k = numbersOf (number k v.toNat) k) : UInt64.ofNat (getNumber fs k) = v := by
  rw [getNumber_of h, UInt64.ofNat_toNat]

theorem AppClientHello.ofFields_fields (m : AppClientHello) : ofFields m.fields = m := by
  cases m
  simp only [ofFields, fields, AppClientHello.mk.injEq]
  exact ⟨uint32_of (by simp), getBytes_of (by simp), getBytes_of (by simp), getBytes_of (by simp),
    uint32_of (by simp)⟩

theorem AppServerHello.ofFields_fields (m : AppServerHello) : ofFields m.fields = m := by
  cases m
  simp only [ofFields, fields, AppServerHello.mk.injEq]
  exact ⟨uint32_of (by simp), getBytes_of (by simp), getBytes_of (by simp), getBytes_of (by simp),
    uint32_of (by simp), getBytes_of (by simp), uint32_of (by simp)⟩

theorem AppFinished.ofFields_fields (m : AppFinished) : ofFields m.fields = m := by
  cases m
  exact congrArg AppFinished.mk (getBytes_of rfl)

theorem AppEncryptedFrame.ofFields_fields (m : AppEncryptedFrame) : ofFields m.fields = m := by
  cases m
  simp only [ofFields, fields, AppEncryptedFrame.mk.injEq]
  exact ⟨uint32_of (by simp), getBytes_of (by simp), uint64_of (by simp), getBytes_of (by simp),
    getBytes_of (by simp)⟩

def protoCodecs : Codecs where
  clientHello := protoCodec _ _ AppClientHello.ofFields_fields
  serverHello := protoCodec _ _ AppServerHello.ofFields_fields
  finished := protoCodec _ _ AppFinished.ofFields_fields
  encryptedFrame := protoCodec _ _ AppEncryptedFrame.ofFields_fields

end Channel
