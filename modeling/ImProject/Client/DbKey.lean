-- SUMMARY: `DbKeyManager`: the key of the local database, wrapped in a blob, and how it is recovered from what is on the disk.
import ImProject.Library.Bytes

/-!
# The key of the local database

The key is random and only its encryption under the password is stored, beside a database
that only this key opens. What is found on the disk decides whether the key is
unwrapped or made anew; a database that has lost its key is deleted first.
-/

open Library

namespace DbKeyManager

def KEY_LEN_BYTES : Nat := 32
def SALT_LEN_BYTES : Nat := 16
def GCM_IV_LEN_BYTES : Nat := 12
def GCM_TAG_LEN_BITS : Nat := 128

/-- PBKDF2 and AES-GCM. A ciphertext is decrypted exactly if it was encrypted with this key and iv. -/
structure Cipher where
  deriveWrapKey : String → Bytes → Bytes
  encrypt (wrapKey iv plaintext : Bytes) : Bytes
  decrypt? (wrapKey iv ciphertext : Bytes) : Option Bytes
  length_encrypt : ∀ wrapKey iv plaintext, (encrypt wrapKey iv plaintext).length = plaintext.length + GCM_TAG_LEN_BITS / 8
  decrypt?_eq_some : ∀ wrapKey iv ciphertext plaintext,
    decrypt? wrapKey iv ciphertext = some plaintext ↔ ciphertext = encrypt wrapKey iv plaintext

/-- What the random generator returns. -/
structure Randoms where
  realKey : Bytes
  salt : Bytes
  iv : Bytes
  length_realKey : realKey.length = KEY_LEN_BYTES
  length_salt : salt.length = SALT_LEN_BYTES
  length_iv : iv.length = GCM_IV_LEN_BYTES

inductive DatabaseFile where
  /-- Left by a version without encryption. -/
  | plain
  | encrypted (key : Bytes)
  deriving DecidableEq

/-- The two files of an account. -/
structure Disk where
  blob : Option Bytes
  database : Option DatabaseFile
  deriving DecidableEq

variable (A : Cipher)

def unwrap (bytes : Bytes) (passHash : String) : Option Bytes :=
  if bytes.length = SALT_LEN_BYTES + GCM_IV_LEN_BYTES + KEY_LEN_BYTES + GCM_TAG_LEN_BITS / 8 then
    let salt := bytes.take SALT_LEN_BYTES
    let iv := (bytes.drop SALT_LEN_BYTES).take GCM_IV_LEN_BYTES
    let ciphertext := bytes.drop (SALT_LEN_BYTES + GCM_IV_LEN_BYTES)
    A.decrypt? (A.deriveWrapKey passHash salt) iv ciphertext
  else none

/-- The blob of a key. -/
def wrap (random : Randoms) (passHash : String) : Bytes :=
  random.salt ++ random.iv ++ A.encrypt (A.deriveWrapKey passHash random.salt) random.iv random.realKey

def generateAndPersist (random : Randoms) (d : Disk) (passHash : String) : Disk × Option Bytes :=
  ({ d with blob := some (wrap A random passHash) }, some random.realKey)

/-- `deleteDatabase` reports whether there was something to delete, and the check throws otherwise. -/
def deleteEncryptedDatabase (d : Disk) : Option Disk :=
  if d.database.isSome then some { d with database := none } else none

/-- The disk afterwards, and the key; no key where the call throws. -/
def getOrCreateRealKey (random : Randoms) (d : Disk) (passHash : String) : Disk × Option Bytes :=
  match d.blob with
  | some bytes =>
    match unwrap A bytes passHash with
    | some key => (d, some key)
    | none =>
      -- the check makes no difference between a failed deletion and nothing to delete
      match deleteEncryptedDatabase d with
      | some d => generateAndPersist A random d passHash
      | none => (d, none)
  | none =>
    if d.database.isSome then
      match deleteEncryptedDatabase d with
      | some d => generateAndPersist A random d passHash
      | none => (d, none)
    else generateAndPersist A random d passHash

/-! ## Wrapping -/

variable {A} {random : Randoms} {d d' : Disk} {bytes key : Bytes} {passHash : String}

theorem unwrap_wrap : unwrap A (wrap A random passHash) passHash = some random.realKey := by
  have hsalt : (wrap A random passHash).take SALT_LEN_BYTES = random.salt := by
    rw [wrap, List.append_assoc, ← random.length_salt, List.take_left]
  have hrest : (wrap A random passHash).drop SALT_LEN_BYTES =
      random.iv ++ A.encrypt (A.deriveWrapKey passHash random.salt) random.iv random.realKey := by
    rw [wrap, List.append_assoc, ← random.length_salt, List.drop_left]
  have hlen : (wrap A random passHash).length =
      SALT_LEN_BYTES + GCM_IV_LEN_BYTES + KEY_LEN_BYTES + GCM_TAG_LEN_BITS / 8 := by
    rw [wrap, List.length_append, List.length_append, A.length_encrypt, random.length_salt, random.length_iv,
      random.length_realKey, Nat.add_assoc (SALT_LEN_BYTES + GCM_IV_LEN_BYTES)]
  rw [unwrap, if_pos hlen]
  dsimp only
  rw [hsalt, ← List.drop_drop, hrest, ← random.length_iv, List.take_left, List.drop_left]
  exact (A.decrypt?_eq_some _ _ _ _).mpr rfl

/-! ## Recovery -/

/-- A database beside a blob that unwraps was created with the key of the blob. -/
def Coherent (A : Cipher) (d : Disk) (passHash : String) : Prop :=
  ∀ bytes key, d.blob = some bytes → unwrap A bytes passHash = some key →
    ∀ file, d.database = some file → file = .encrypted key

/-- The call returns a key, the blob now unwraps to it, and no other key's database is left. -/
def Recovers (A : Cipher) (random : Randoms) (d : Disk) (passHash : String) : Prop :=
  ∃ d' key, getOrCreateRealKey A random d passHash = (d', some key) ∧
    d'.blob.bind (unwrap A · passHash) = some key ∧ ∀ file, d'.database = some file → file = .encrypted key

/-- There is a blob that does not unwrap, and no database. -/
def Stuck (A : Cipher) (d : Disk) (passHash : String) : Prop :=
  d.blob.isSome ∧ d.blob.bind (unwrap A · passHash) = none ∧ d.database = none

theorem recovers_generateAndPersist (h : getOrCreateRealKey A random d passHash =
    generateAndPersist A random { d with database := none } passHash) : Recovers A random d passHash :=
  ⟨_, _, h, unwrap_wrap, fun file hfile => by cases hfile⟩

/-- Nothing changes, so the next call will throw as well. -/
theorem getOrCreateRealKey_stuck (h : Stuck A d passHash) : getOrCreateRealKey A random d passHash = (d, none) := by
  obtain ⟨hblob, hunwrap, hdatabase⟩ := h
  obtain ⟨bytes, hbytes⟩ := Option.isSome_iff_exists.mp hblob
  rw [hbytes, Option.bind_some] at hunwrap
  simp [getOrCreateRealKey, hbytes, hunwrap, deleteEncryptedDatabase, hdatabase]

theorem recovers_iff (A : Cipher) (random : Randoms) (d : Disk) (passHash : String) (h : Coherent A d passHash) :
    Recovers A random d passHash ↔ ¬ Stuck A d passHash := by
  constructor
  · rintro ⟨d', key, hcall, -, -⟩ hstuck
    rw [getOrCreateRealKey_stuck hstuck] at hcall
    cases hcall
  · intro hnot
    cases hblob : d.blob with
    | some bytes =>
      cases hunwrap : unwrap A bytes passHash with
      | some key =>
        refine ⟨d, key, by simp [getOrCreateRealKey, hblob, hunwrap], ?_, h bytes key hblob hunwrap⟩
        rw [hblob, Option.bind_some, hunwrap]
      | none =>
        have hdatabase : d.database.isSome := by
          rw [Option.isSome_iff_ne_none]
          intro hnone
          exact hnot ⟨by rw [hblob]; rfl, by rw [hblob, Option.bind_some, hunwrap], hnone⟩
        refine recovers_generateAndPersist ?_
        simp [getOrCreateRealKey, hblob, hunwrap, deleteEncryptedDatabase, hdatabase]
    | none =>
      refine recovers_generateAndPersist ?_
      cases hdatabase : d.database with
      | some file => simp [getOrCreateRealKey, hblob, deleteEncryptedDatabase, hdatabase]
      | none =>
        rw [show ({ d with database := none } : Disk) = d by rw [← hdatabase]]
        simp [getOrCreateRealKey, hblob, hdatabase]

/-! ## Samples -/

/-- The first bytes of the key and the iv. -/
def sampleTag (wrapKey iv : Bytes) : Bytes := (wrapKey ++ iv ++ List.replicate 16 0).take 16

theorem length_sampleTag (wrapKey iv : Bytes) : (sampleTag wrapKey iv).length = 16 := by
  simp only [sampleTag, List.length_take, List.length_append, List.length_replicate]
  omega

/-- A cipher that appends a tag to the text. -/
def sampleCipher : Cipher where
  deriveWrapKey passHash salt := passHash.toList.map (fun c => UInt8.ofNat c.toNat) ++ salt
  encrypt wrapKey iv plaintext := plaintext ++ sampleTag wrapKey iv
  decrypt? wrapKey iv ciphertext :=
    let plaintext := ciphertext.take (ciphertext.length - 16)
    if ciphertext = plaintext ++ sampleTag wrapKey iv then some plaintext else none
  length_encrypt wrapKey iv plaintext := by
    simp [GCM_TAG_LEN_BITS, length_sampleTag]
  decrypt?_eq_some wrapKey iv ciphertext plaintext := by
    have htag := length_sampleTag wrapKey iv
    generalize sampleTag wrapKey iv = tag at htag
    dsimp only
    constructor
    · intro h
      split at h
      · rename_i heq
        cases h
        exact heq
      · cases h
    · rintro rfl
      have htext : (plaintext ++ tag).take ((plaintext ++ tag).length - 16) = plaintext := by
        rw [List.length_append, htag, Nat.add_sub_cancel, List.take_left]
      rw [htext, if_pos rfl]

def sampleRandoms : Randoms where
  realKey := List.replicate 32 1
  salt := List.replicate 16 2
  iv := List.replicate 12 3
  length_realKey := by simp [KEY_LEN_BYTES]
  length_salt := by simp [SALT_LEN_BYTES]
  length_iv := by simp [GCM_IV_LEN_BYTES]

/-- The blob of an old password, whose database was deleted before the new blob was written. -/
def sampleInterrupted : Disk := ⟨some (wrap sampleCipher sampleRandoms "old"), none⟩

theorem sampleInterrupted_stuck : Stuck sampleCipher sampleInterrupted "new" := by
  refine ⟨rfl, ?_, rfl⟩
  decide +kernel

/-- The account is locked out: no call ever returns a key. -/
theorem interrupted_locked_out : Coherent sampleCipher sampleInterrupted "new" ∧
    ∀ random, ¬ Recovers sampleCipher random sampleInterrupted "new" := by
  refine ⟨?_, fun random => ?_⟩
  · intro bytes key _ _ file hfile
    cases hfile
  · rintro ⟨d', key, hcall, -, -⟩
    rw [getOrCreateRealKey_stuck sampleInterrupted_stuck] at hcall
    cases hcall

theorem recovers_iff_sample :
    Recovers sampleCipher sampleRandoms
      ⟨some (wrap sampleCipher sampleRandoms "pass"), some (.encrypted sampleRandoms.realKey)⟩ "pass" ↔
    ¬ Stuck sampleCipher
      ⟨some (wrap sampleCipher sampleRandoms "pass"), some (.encrypted sampleRandoms.realKey)⟩ "pass" := by
  refine recovers_iff _ _ _ _ fun bytes key hblob hunwrap file hfile => ?_
  cases hblob
  cases hfile
  rw [unwrap_wrap, Option.some.injEq] at hunwrap
  rw [hunwrap]

end DbKeyManager
