import Zallet.Common.Base64
import Zallet.Common.CompactSize
import Zallet.Common.Text
import Zallet.Rpc.Amounts
import Zallet.Rpc.DecodeScript

/-!
# Signed messages

`sign_message_with_key` (`zallet-core/src/components/json_rpc/methods/sign_message.rs`,
lines 142–158), and `message_hash` and `verifymessage` (verify_message.rs, lines 33–118).

`Ecdsa` has the functions of the crates. A digest is 32 bytes and a compact signature 64, by
their types, and a text is the list of its characters.

* `preimage_injective`: distinct messages are hashed as distinct bytes.
* `verifymessage_ok_true_iff`: the signatures that are accepted.
* `message_signatures`: the signer's signature is one of them.
-/

namespace Zallet.Rpc.MessageSignatures

open Zallet.Chain (TransparentAddress)
open Zallet.Common Zallet.Common.Text

/-! ## The functions of the crates -/

/-- `RecoveryId`. -/
abbrev RecoveryId := Fin 4

/-- `RecoveryId::from_i32`. -/
def RecoveryId.fromI32 (id : ℕ) : Option RecoveryId := if h : id < 4 then some ⟨id, h⟩ else none

/-- `secp256k1` and the hash of `zcash_transparent`. -/
structure Ecdsa where
  SecretKey : Type
  RecoverableSignature : Type
  sha256d : List UInt8 → Vector UInt8 32
  publicKey : SecretKey → PublicKey
  signEcdsaRecoverable : Vector UInt8 32 → SecretKey → RecoverableSignature
  serializeCompact : RecoverableSignature → RecoveryId × Vector UInt8 64
  fromCompact : List UInt8 → RecoveryId → Option RecoverableSignature
  recoverEcdsa : Vector UInt8 32 → RecoverableSignature → Option PublicKey

/-! ## Signing -/

/-- `MESSAGE_MAGIC`. -/
def messageMagic : List Char := "Zcash Signed Message:\n".toList

/-- What `message_hash` writes to the hash (lines 41–51). -/
def preimage (message : List Char) : List UInt8 :=
  CompactSize.write (utf8 messageMagic).length ++ utf8 messageMagic ++
    (CompactSize.write (utf8 message).length ++ utf8 message)

section

variable (K : Codecs) (E : Ecdsa)

/-- `message_hash` (verify_message.rs, lines 38–54). -/
def messageHash (message : List Char) : Vector UInt8 32 := E.sha256d (preimage message)

/-- `sign_message_with_key` (sign_message.rs, lines 142–158). -/
def signMessageWithKey (secretKey : E.SecretKey) (message : List Char) : List Char :=
  let msg := messageHash E message
  let recoverableSig := E.signEcdsaRecoverable msg secretKey
  let (recoveryId, sigBytes) := E.serializeCompact recoverableSig
  let header := 31 + UInt8.ofNat recoveryId.val
  Base64.encode (header :: sigBytes.toList)

/-! ## Verifying -/

/-- The check of the bytes of a signature, after its header (lines 90–117). -/
def verifyRecovered (transparentAddr : TransparentAddress) (header : UInt8)
    (compact : List UInt8) (message : List Char) : Bool :=
  let recoveryId := ((header - 27) &&& 3).toNat
  let hash := messageHash E message
  match RecoveryId.fromI32 recoveryId with
  | none => false
  | some recid =>
    match E.fromCompact compact recid with
    | none => false
    | some recoverableSig =>
      match E.recoverEcdsa hash recoverableSig with
      | none => false
      | some recoveredPubkey => decide (K.fromPubkey recoveredPubkey = transparentAddr)

/-- `verifymessage` (lines 62–118). -/
def verifymessage (zcashaddress : String) (signature message : List Char) : Except RpcError Bool :=
  match K.decodeAddress zcashaddress with
  | none => .error (typeError "Invalid address")
  | some (.ScriptHash _) => .error (typeError "Address does not refer to key")
  | some (.PublicKeyHash pubkeyHash) =>
    match Base64.decode signature with
    | none => .error (LegacyCode.InvalidAddressOrKey.withMessage "Malformed base64 encoding")
    | some [] => .ok false
    | some (header :: compact) =>
      if compact.length ≠ 64 then .ok false
      else if 27 ≤ header ∧ header ≤ 30 then
        .error (typeError "Uncompressed key signatures are not supported.")
      else if ¬ (31 ≤ header ∧ header ≤ 34) then .ok false
      else .ok (verifyRecovered K E (.PublicKeyHash pubkeyHash) header compact message)

/-- What the crates document: addresses are read back, a key's address is the hash of its
    compressed form, signatures are read back, and recovering from a signature returns the
    signer's key. -/
structure Laws (serialize : PublicKey → List UInt8) : Prop where
  decodeAddress : ∀ address, K.decodeAddress (K.encodeAddress address) = some address
  fromPubkey : ∀ pubkey, K.fromPubkey pubkey = .PublicKeyHash (K.hash160 (serialize pubkey))
  fromCompact : ∀ sig, E.fromCompact (E.serializeCompact sig).2.toList (E.serializeCompact sig).1 =
    some sig
  recoverEcdsa : ∀ msg secretKey,
    E.recoverEcdsa msg (E.signEcdsaRecoverable msg secretKey) = some (E.publicKey secretKey)

/-- The signature is 65 bytes in Base64: `31 + r`, and a compact signature from which with
    the recovery id `r` a key is recovered whose compressed form hashes to the address. -/
def Accepted (serialize : PublicKey → List UInt8) (address : TransparentAddress)
    (signature message : List Char) : Prop :=
  ∃ (r : RecoveryId) (compact : List UInt8) (sig : E.RecoverableSignature) (pubkey : PublicKey),
    signature = Base64.encode (UInt8.ofNat (31 + r.val) :: compact) ∧ compact.length = 64 ∧
      E.fromCompact compact r = some sig ∧
      E.recoverEcdsa (messageHash E message) sig = some pubkey ∧
      address = .PublicKeyHash (K.hash160 (serialize pubkey))

end

/-! ## Messages -/

/-- The bytes that are hashed determine the message, of any length. -/
theorem preimage_injective : Function.Injective preimage := by
  intro a b h
  have hmessage := List.append_cancel_left h
  exact utf8_injective (CompactSize.write_append_inj hmessage).2

/-! ## Headers -/

/-- The headers of compressed keys, and the recovery ids in them. -/
theorem header_iff {header : UInt8} :
    31 ≤ header ∧ header ≤ 34 ↔ ∃ r : RecoveryId, header = UInt8.ofNat (31 + r.val) := by
  constructor
  · rintro ⟨hle, hge⟩
    rw [UInt8.le_iff_toNat_le] at hle hge
    have hle : 31 ≤ header.toNat := hle
    have hge : header.toNat ≤ 34 := hge
    refine ⟨⟨header.toNat - 31, by omega⟩, ?_⟩
    rw [Nat.add_sub_cancel' hle, UInt8.ofNat_toNat]
  · rintro ⟨r, rfl⟩
    revert r
    decide

theorem not_uncompressed (r : RecoveryId) :
    ¬ (27 ≤ UInt8.ofNat (31 + r.val) ∧ UInt8.ofNat (31 + r.val) ≤ 30) := by
  revert r
  decide

theorem recoveryId_header (r : RecoveryId) :
    RecoveryId.fromI32 ((UInt8.ofNat (31 + r.val) - 27) &&& 3).toNat = some r := by
  revert r
  decide

/-- The signer's header. -/
theorem header_eq (r : RecoveryId) : 31 + UInt8.ofNat r.val = UInt8.ofNat (31 + r.val) := by
  revert r
  decide

/-! ## Signatures -/

section

variable {K : Codecs} {E : Ecdsa} {serialize : PublicKey → List UInt8}

theorem verifyRecovered_iff (hlaws : Laws K E serialize) {address : TransparentAddress}
    {r : RecoveryId} {compact : List UInt8} {message : List Char} :
    verifyRecovered K E address (UInt8.ofNat (31 + r.val)) compact message = true ↔
      ∃ sig pubkey, E.fromCompact compact r = some sig ∧
        E.recoverEcdsa (messageHash E message) sig = some pubkey ∧
        address = .PublicKeyHash (K.hash160 (serialize pubkey)) := by
  simp only [verifyRecovered, recoveryId_header]
  cases hcompact : E.fromCompact compact r with
  | none => simp
  | some sig =>
    cases hrecover : E.recoverEcdsa (messageHash E message) sig with
    | none => simp [hrecover]
    | some pubkey => simp [hrecover, hlaws.fromPubkey, eq_comm]

/-- The signatures that are accepted. -/
theorem verifymessage_ok_true_iff (hlaws : Laws K E serialize) {zcashaddress : String}
    {signature message : List Char} :
    verifymessage K E zcashaddress signature message = .ok true ↔
      ∃ address, K.decodeAddress zcashaddress = some address ∧
        Accepted K E serialize address signature message := by
  constructor
  · intro h
    unfold verifymessage at h
    split at h
    · cases h
    · cases h
    · next pubkeyHash haddress =>
      split at h
      · cases h
      · cases h
      · next header compact hdecode =>
        split_ifs at h with hlength huncompressed hheader
        · cases h
        · obtain ⟨r, rfl⟩ := header_iff.mp hheader
          obtain ⟨sig, pubkey, hcompact, hrecover, hkey⟩ :=
            (verifyRecovered_iff hlaws).mp (Except.ok.inj h)
          exact ⟨_, haddress, r, compact, sig, pubkey, Base64.decode_eq_some.mp hdecode,
            not_not.mp hlength, hcompact, hrecover, hkey⟩
        · cases h
  · rintro ⟨address, haddress, r, compact, sig, pubkey, rfl, hlength, hcompact, hrecover, rfl⟩
    have hheader := header_iff.mpr ⟨r, rfl⟩
    have hverified := (verifyRecovered_iff hlaws).mpr ⟨sig, pubkey, hcompact, hrecover, rfl⟩
    simp only [verifymessage, haddress, Base64.decode_encode, hlength, ne_eq, not_true_eq_false,
      if_false, not_uncompressed r, hheader, and_self, hverified]

/-- The signer's signature is accepted for the address of its key. -/
theorem accepted_sign (hlaws : Laws K E serialize) (secretKey : E.SecretKey)
    (message : List Char) :
    Accepted K E serialize (.PublicKeyHash (K.hash160 (serialize (E.publicKey secretKey))))
      (signMessageWithKey E secretKey message) message := by
  refine ⟨_, _, _, E.publicKey secretKey, ?_, Vector.length_toList, hlaws.fromCompact _,
    hlaws.recoverEcdsa _ secretKey, rfl⟩
  rw [← header_eq]
  rfl

/-- The signature of a message is verified under the address of the signer's key; what is
    verified is 65 bytes in Base64 that a key of the address is recovered from; and distinct
    messages are hashed as distinct bytes. -/
theorem message_signatures (hlaws : Laws K E serialize) :
    (∀ secretKey message, verifymessage K E
      (K.encodeAddress (.PublicKeyHash (K.hash160 (serialize (E.publicKey secretKey)))))
      (signMessageWithKey E secretKey message) message = .ok true) ∧
    (∀ zcashaddress signature message, verifymessage K E zcashaddress signature message = .ok true →
      ∃ address, K.decodeAddress zcashaddress = some address ∧
        Accepted K E serialize address signature message) ∧
    ∀ message message', message ≠ message' → preimage message ≠ preimage message' :=
  ⟨fun secretKey message => (verifymessage_ok_true_iff hlaws).mpr
      ⟨_, hlaws.decodeAddress _, accepted_sign hlaws secretKey message⟩,
    fun _ _ _ => (verifymessage_ok_true_iff hlaws).mp,
    fun _ _ hne heq => hne (preimage_injective heq)⟩

end

/-! ### A signed message -/

namespace Hello

/-- The public key of the secret key 1. -/
def generator : List UInt8 :=
  [2, 121, 190, 102, 126, 249, 220, 187, 172, 85, 160, 98, 149, 206, 135, 11, 7, 2, 155, 252, 219,
   45, 206, 40, 217, 89, 242, 129, 91, 22, 248, 23, 152]

/-- The digest of the message. -/
def digest : Vector UInt8 32 :=
  #v[230, 22, 124, 124, 168, 218, 134, 180, 244, 59, 22, 218, 248, 90, 235, 217, 96, 157, 249,
     187, 236, 79, 143, 130, 62, 146, 129, 157, 204, 46, 205, 137]

/-- Its signature with the secret key 1, whose recovery id is 1. -/
def compact : Vector UInt8 64 :=
  #v[22, 70, 221, 190, 209, 16, 16, 208, 224, 122, 111, 84, 183, 198, 32, 18, 211, 86, 126, 52,
     69, 24, 181, 104, 43, 168, 77, 209, 80, 225, 168, 200, 76, 57, 126, 52, 103, 12, 198, 154,
     239, 186, 59, 183, 60, 54, 103, 26, 154, 11, 159, 230, 99, 69, 123, 120, 98, 68, 206, 246,
     14, 95, 207, 147]

/-- The signature of the digest, and one that stands for those of the other digests. -/
def sign (msg : Vector UInt8 32) : RecoveryId × Vector UInt8 64 :=
  if msg = digest then (1, compact) else (0, Vector.replicate 64 0)

/-- The functions for the secret key 1, on the message. -/
def ecdsa : Ecdsa where
  SecretKey := Unit
  RecoverableSignature := RecoveryId × Vector UInt8 64
  sha256d bytes := if bytes = preimage "Hello".toList then digest else Vector.replicate 32 0
  publicKey _ := ⟨generator⟩
  signEcdsaRecoverable msg _ := sign msg
  serializeCompact sig := sig
  fromCompact bytes recid :=
    if h : bytes.length = 64 then some (recid, ⟨bytes.toArray, by simpa using h⟩) else none
  recoverEcdsa msg sig := if sig = sign msg then some ⟨generator⟩ else none

def hash160 (bytes : List UInt8) : BitVec 160 :=
  if bytes = generator then 0x751e76e8199196d454941c45d1b3a323f1433bd6 else 0

/-- The address of the key on mainnet. The other ones stand for themselves. -/
def encodeAddress : TransparentAddress → List Char
  | .PublicKeyHash hash =>
    if hash = 0x751e76e8199196d454941c45d1b3a323f1433bd6 then
      "t1UYsZVJkLPeMjxEtACvSxfWuNmddpWfxzs".toList
    else 'p' :: hash.toNat.repr.toList
  | .ScriptHash hash => 's' :: hash.toNat.repr.toList

def decodeAddress : List Char → Option TransparentAddress
  | 'p' :: digits => (String.ofList digits).toNat?.map fun n => .PublicKeyHash (BitVec.ofNat 160 n)
  | 's' :: digits => (String.ofList digits).toNat?.map fun n => .ScriptHash (BitVec.ofNat 160 n)
  | text =>
    if text = "t1UYsZVJkLPeMjxEtACvSxfWuNmddpWfxzs".toList then
      some (.PublicKeyHash 0x751e76e8199196d454941c45d1b3a323f1433bd6)
    else none

def codecs : Codecs :=
  { UncompressedKey.codecs with
    fromPubkey := fun pubkey => .PublicKeyHash (hash160 pubkey.bytes)
    hash160 := hash160
    encodeAddress := fun address => String.ofList (encodeAddress address)
    decodeAddress := fun text => decodeAddress text.toList }

theorem decode_encodeAddress (address : TransparentAddress) :
    decodeAddress (encodeAddress address) = some address := by
  cases address with
  | PublicKeyHash hash =>
    by_cases h : hash = 0x751e76e8199196d454941c45d1b3a323f1433bd6
    · subst h
      rfl
    · rw [encodeAddress, if_neg h]
      show (String.ofList hash.toNat.repr.toList).toNat?.map _ = _
      rw [String.ofList_toList, Nat.toNat?_repr, Option.map_some, BitVec.ofNat_toNat,
        BitVec.setWidth_eq]
  | ScriptHash hash =>
    show (String.ofList hash.toNat.repr.toList).toNat?.map _ = _
    rw [String.ofList_toList, Nat.toNat?_repr, Option.map_some, BitVec.ofNat_toNat,
      BitVec.setWidth_eq]

theorem laws : Laws codecs ecdsa PublicKey.bytes where
  decodeAddress address := by
    simp [codecs, decode_encodeAddress]
  fromPubkey pubkey := rfl
  fromCompact sig := by
    simp only [ecdsa]
    rw [dif_pos Vector.length_toList]
    rfl
  recoverEcdsa msg secretKey := by
    simp [ecdsa]

/-- The message is verified under the address of the key. -/
theorem hello_verified : verifymessage codecs ecdsa "t1UYsZVJkLPeMjxEtACvSxfWuNmddpWfxzs"
    ("IBZG3b7REBDQ4HpvVLfGIBLTVn40RRi1aCuoTdFQ4ajI" ++
      "TDl+NGcMxprvuju3PDZnGpoLn+ZjRXt4YkTO9g5fz5M=").toList "Hello".toList = .ok true := by
  have h := (message_signatures laws).1 () "Hello".toList
  have haddress : codecs.encodeAddress (.PublicKeyHash (codecs.hash160 (ecdsa.publicKey ()).bytes)) =
      "t1UYsZVJkLPeMjxEtACvSxfWuNmddpWfxzs" := String.ofList_toList
  have hsignature : signMessageWithKey ecdsa () "Hello".toList =
      ("IBZG3b7REBDQ4HpvVLfGIBLTVn40RRi1aCuoTdFQ4ajI" ++
        "TDl+NGcMxprvuju3PDZnGpoLn+ZjRXt4YkTO9g5fz5M=").toList := by
    decide +kernel
  rw [haddress, hsignature] at h
  exact h

end Hello

end Zallet.Rpc.MessageSignatures
