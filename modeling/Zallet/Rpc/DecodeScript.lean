import Zallet.Common.Text
import Zallet.Rpc.Imports

/-!
# Decoding scripts

`decodescript` (`zallet-core/src/components/json_rpc/methods/decode_script.rs`), and the
addresses that it and `parse_import` (z_import_address.rs, lines 155–183) give to public
keys.

`Solver` has the functions of `zcash_script`. A public key that is parsed keeps nothing of
the form in which it was given.

* `mapsToOwner_iff`: the addresses of a public key are those of its bytes as given exactly
  where it is given in compressed form, or its two forms have the same hash.
* `watchPubkey_eq`: the migration registers the former only.
-/

namespace Zallet.Rpc

open Zallet.Chain (TransparentAddress)
open Zallet.Common

/-! ## Scripts -/

/-- `ScriptKind` of `zcash_script`. -/
inductive ScriptKind
  | PubKeyHash (hash : BitVec 160)
  | ScriptHash (hash : BitVec 160)
  | MultiSig (required : ℕ) (pubkeys : List (List UInt8))
  | NullData (data : List (List UInt8))
  | PubKey (data : List UInt8)
  deriving DecidableEq

/-- What the call uses of `zcash_script`. -/
structure Solver where
  /-- `Code::to_asm`. -/
  toAsm : List UInt8 → Bool → String
  /-- `to_component`, `refine` and `solver::standard`. -/
  standard : List UInt8 → Option ScriptKind

/-- `TransparentScript` (lines 28–52). -/
structure TransparentScript where
  asm : String
  reqSigs : Option ℕ
  kind : String
  addresses : List String
  deriving DecidableEq

/-- The result of `decodescript` (lines 19–26). -/
structure DecodedScript where
  inner : TransparentScript
  p2sh : String
  deriving DecidableEq

/-- An error with the code `LegacyCode::Deserialization`. -/
def deserializationError (message : String) : RpcError := ⟨-22, message⟩

section

variable (K : Codecs) (S : Solver)

/-- `pubkey_to_p2pkh_address` (lines 88–93). -/
def pubkeyToP2pkhAddress (pubkeyBytes : List UInt8) : Option String :=
  (K.publicKeyFromSlice pubkeyBytes).map fun pubkey => K.encodeAddress (K.fromPubkey pubkey)

/-- `calculate_p2sh_address` (lines 95–99). -/
def calculateP2shAddress (scriptBytes : List UInt8) : String :=
  K.encodeAddress (.ScriptHash (K.hash160 scriptBytes))

/-- The match of `detect_script_info` (lines 122–149). -/
def scriptKindInfo : ScriptKind → String × Option ℕ × List String
  | .PubKeyHash hash => ("pubkeyhash", some 1, [K.encodeAddress (.PublicKeyHash hash)])
  | .ScriptHash hash => ("scripthash", some 1, [K.encodeAddress (.ScriptHash hash)])
  | .PubKey data =>
    let addresses := (pubkeyToP2pkhAddress K data).toList
    ("pubkey", if addresses.isEmpty then none else some 1, addresses)
  | .MultiSig required pubkeys =>
    let addresses := pubkeys.filterMap (pubkeyToP2pkhAddress K)
    ("multisig", if addresses.isEmpty then none else some required, addresses)
  | .NullData _ => ("nulldata", none, [])

/-- `detect_script_info` (lines 112–151). -/
def detectScriptInfo (scriptCode : List UInt8) : String × Option ℕ × List String :=
  ((S.standard scriptCode).map (scriptKindInfo K)).getD ("nonstandard", none, [])

/-- `script_to_json` (lines 74–86). -/
def scriptToJson (scriptCode : List UInt8) : TransparentScript :=
  let asm := S.toAsm scriptCode false
  let (kind, reqSigs, addresses) := detectScriptInfo K S scriptCode
  ⟨asm, reqSigs, kind, addresses⟩

/-- `decodescript` (lines 59–71). -/
def decodescript (hexstring : String) : Except RpcError DecodedScript :=
  match K.hexDecode hexstring with
  | none => .error (deserializationError "Hex decoding failed")
  | some scriptBytes =>
    .ok ⟨scriptToJson K S scriptBytes, calculateP2shAddress K scriptBytes⟩

/-- The match of `register_watch_pubkeys` (migrate_zcashd_wallet.rs, lines 671–674): the
    public keys that are registered. -/
def watchPubkey (pubkey : List UInt8) : Option PublicKey :=
  match K.publicKeyFromSlice pubkey with
  | some pk => if pubkey.length = 33 then some pk else none
  | none => none

/-! ## The address of a public key -/

/-- The address that the owner of a key uses, who hashes its bytes as they are given. -/
def ownerAddress (bytes : List UInt8) : String :=
  K.encodeAddress (.PublicKeyHash (K.hash160 bytes))

/-- A public key parses. -/
def Parses (bytes : List UInt8) : Bool := (K.publicKeyFromSlice bytes).isSome

/-- The key's address is its owner's: when it is imported, and in the scripts that contain
    it. The addresses of a multisig script are those of its keys that parse, in order. -/
structure MapsToOwner (bytes : List UInt8) : Prop where
  imported : ∀ hexData, K.hexDecode hexData = some bytes → ∃ pubkey,
    parseImport K hexData = .ok (.P2pkh pubkey ⟨"p2pkh", ownerAddress K bytes⟩)
  pubkey : ∀ hexstring code, K.hexDecode hexstring = some code →
    S.standard code = some (.PubKey bytes) → ∀ decoded, decodescript K S hexstring = .ok decoded →
      decoded.inner.addresses = [ownerAddress K bytes]
  multisig : ∀ hexstring code required pubkeys, K.hexDecode hexstring = some code →
    S.standard code = some (.MultiSig required pubkeys) →
    ∀ decoded, decodescript K S hexstring = .ok decoded →
      List.Forall₂ (fun key address => key = bytes → address = ownerAddress K bytes)
        (pubkeys.filter (Parses K)) decoded.inner.addresses

/-- What the crates document: a key's address is the hash of its compressed serialization,
    which is what a compressed key is parsed from, and no two addresses have the same
    encoding. -/
structure Codecs.PubkeyLaws (serialize : PublicKey → List UInt8) : Prop where
  fromPubkey : ∀ pubkey, K.fromPubkey pubkey = .PublicKeyHash (K.hash160 (serialize pubkey))
  compressed : ∀ bytes pubkey, K.publicKeyFromSlice bytes = some pubkey → bytes.length = 33 →
    serialize pubkey = bytes
  hexDecode : ∀ bytes, K.hexDecode (String.ofList (Text.hexEncode bytes)) = some bytes
  encodeAddress : Function.Injective K.encodeAddress

end

section

variable {K : Codecs} {S : Solver} {serialize : PublicKey → List UInt8}

theorem pubkeyToP2pkhAddress_eq (hK : K.PubkeyLaws serialize) {bytes : List UInt8}
    {pubkey : PublicKey} (hparse : K.publicKeyFromSlice bytes = some pubkey) :
    pubkeyToP2pkhAddress K bytes = some (ownerAddress K (serialize pubkey)) := by
  simp [pubkeyToP2pkhAddress, hparse, hK.fromPubkey, ownerAddress]

theorem parseImport_pubkey (hK : K.PubkeyLaws serialize) {hexData : String} {bytes : List UInt8}
    (hhex : K.hexDecode hexData = some bytes) {pubkey : PublicKey}
    (hparse : K.publicKeyFromSlice bytes = some pubkey) :
    parseImport K hexData =
      .ok (.P2pkh pubkey ⟨"p2pkh", ownerAddress K (serialize pubkey)⟩) := by
  simp only [parseImport, hhex, hparse, hK.fromPubkey, ownerAddress]

theorem ownerAddress_eq_iff (hK : K.PubkeyLaws serialize) (bytes bytes' : List UInt8) :
    ownerAddress K bytes' = ownerAddress K bytes ↔ K.hash160 bytes = K.hash160 bytes' := by
  unfold ownerAddress
  rw [hK.encodeAddress.eq_iff, TransparentAddress.PublicKeyHash.injEq, eq_comm]

/-- A compressed key is its own serialization. -/
theorem hash160_serialize_iff (hK : K.PubkeyLaws serialize) {bytes : List UInt8}
    {pubkey : PublicKey} (hparse : K.publicKeyFromSlice bytes = some pubkey) :
    ownerAddress K (serialize pubkey) = ownerAddress K bytes ↔
      bytes.length = 33 ∨ K.hash160 bytes = K.hash160 (serialize pubkey) := by
  rw [ownerAddress_eq_iff hK]
  constructor
  · exact Or.inr
  · rintro (hlength | hhash)
    · rw [hK.compressed bytes pubkey hparse hlength]
    · exact hhash

theorem decodescript_eq {hexstring : String} {code : List UInt8}
    (hhex : K.hexDecode hexstring = some code) : decodescript K S hexstring =
      .ok ⟨scriptToJson K S code, calculateP2shAddress K code⟩ := by
  simp only [decodescript, hhex]

theorem addresses_decodescript {hexstring : String} {code : List UInt8}
    (hhex : K.hexDecode hexstring = some code) {decoded : DecodedScript}
    (h : decodescript K S hexstring = .ok decoded) :
    decoded.inner.addresses = (detectScriptInfo K S code).2.2 := by
  rw [decodescript_eq hhex] at h
  cases h
  rfl

/-- The addresses of a multisig script, key by key. -/
theorem forall₂_multisig (pubkeys : List (List UInt8)) :
    List.Forall₂ (fun key address => pubkeyToP2pkhAddress K key = some address)
      (pubkeys.filter (Parses K)) (pubkeys.filterMap (pubkeyToP2pkhAddress K)) := by
  induction pubkeys with
  | nil => exact List.Forall₂.nil
  | cons key pubkeys ih =>
    cases hparse : K.publicKeyFromSlice key with
    | none =>
      have hkey : Parses K key = false := by simp [Parses, hparse]
      have haddress : pubkeyToP2pkhAddress K key = none := by simp [pubkeyToP2pkhAddress, hparse]
      rw [List.filter_cons_of_neg (by simp [hkey]), List.filterMap_cons_none haddress]
      exact ih
    | some pubkey =>
      have hkey : Parses K key = true := by simp [Parses, hparse]
      have haddress : pubkeyToP2pkhAddress K key =
          some (K.encodeAddress (K.fromPubkey pubkey)) := by simp [pubkeyToP2pkhAddress, hparse]
      rw [List.filter_cons_of_pos hkey, List.filterMap_cons_some haddress]
      exact List.Forall₂.cons haddress ih

/-- A public key is mapped to the address of its owner exactly where it is given in
    compressed form, or the hash of its bytes is that of its compressed form. -/
theorem mapsToOwner_iff (hK : K.PubkeyLaws serialize) {bytes : List UInt8} {pubkey : PublicKey}
    (hparse : K.publicKeyFromSlice bytes = some pubkey) :
    MapsToOwner K S bytes ↔
      bytes.length = 33 ∨ K.hash160 bytes = K.hash160 (serialize pubkey) := by
  rw [← hash160_serialize_iff hK hparse]
  have haddress := pubkeyToP2pkhAddress_eq hK hparse
  constructor
  · intro h
    obtain ⟨pubkey', himport⟩ := h.imported _ (hK.hexDecode bytes)
    rw [parseImport_pubkey hK (hK.hexDecode bytes) hparse] at himport
    simp only [Except.ok.injEq, ParsedImport.P2pkh.injEq, ImportedAddress.mk.injEq] at himport
    exact himport.2.2
  · intro howner
    rw [howner] at haddress
    constructor
    · intro hexData hhex
      exact ⟨pubkey, by rw [parseImport_pubkey hK hhex hparse, howner]⟩
    · intro hexstring code hhex hstandard decoded hdecoded
      rw [addresses_decodescript hhex hdecoded]
      simp [detectScriptInfo, hstandard, scriptKindInfo, haddress]
    · intro hexstring code required pubkeys hhex hstandard decoded hdecoded
      rw [addresses_decodescript hhex hdecoded]
      have haddresses : (detectScriptInfo K S code).2.2 =
          pubkeys.filterMap (pubkeyToP2pkhAddress K) := by
        simp [detectScriptInfo, hstandard, scriptKindInfo]
      rw [haddresses]
      refine (forall₂_multisig pubkeys).imp fun key address hkey heq => ?_
      rw [heq, haddress] at hkey
      exact (Option.some.inj hkey).symm

/-- The migration registers a key only under the address of its owner. -/
theorem watchPubkey_eq (hK : K.PubkeyLaws serialize) {bytes : List UInt8} {pubkey : PublicKey}
    (h : watchPubkey K bytes = some pubkey) :
    K.encodeAddress (K.fromPubkey pubkey) = ownerAddress K bytes := by
  unfold watchPubkey at h
  split at h
  · next pk hparse =>
    split at h
    · next hlength =>
      cases h
      rw [hK.fromPubkey, hK.compressed bytes pubkey hparse hlength, ownerAddress]
    · cases h
  · cases h

end

/-! ## A key in uncompressed form -/

namespace UncompressedKey

/-- The key of the test `scriptpubkey_asm_p2pk`. -/
def uncompressed : List UInt8 :=
  [4, 211, 248, 152, 230, 72, 119, 135, 145, 10, 105, 4, 16, 183, 169, 23, 239, 25, 137, 5, 194,
   127, 185, 211, 176, 164, 45, 161, 42, 206, 174, 5, 68, 252, 112, 136, 210, 57, 217, 164, 143,
   40, 40, 161, 90, 9, 232, 64, 67, 0, 31, 39, 204, 128, 209, 98, 203, 149, 64, 78, 18, 16, 22,
   21, 54]

/-- Its compressed form. -/
def compressed : List UInt8 := 2 :: (uncompressed.drop 1).take 32

/-- The script that pays to the key. -/
def p2pk : List UInt8 := 65 :: (uncompressed ++ [172])

/-- The key in hex. -/
def uncompressedHex : String := String.ofList (Text.hexEncode uncompressed)

/-- The addresses of `encodeAddress` on mainnet. The other ones stand for themselves. -/
def encodeAddress : TransparentAddress → List Char
  | .PublicKeyHash hash =>
    if hash = 0xae4f3935c82e47455af0430efd7e77a50a8aaa61 then
      "t1ZmGVFuKD1M7z912zqVnXJBrWfP9AWj9Ky".toList
    else if hash = 0x78757922e5e6fd7841b7e4f64d84b46a7b0edb6b then
      "t1UrXpY1bNP7BGDA4vmHSgdxsPwR2dj7qo6".toList
    else 'p' :: (toString hash.toNat).toList
  | .ScriptHash hash =>
    if hash = 0x5b35e74f25d5ba8d6bd5c53c81ba181e84dd1a4c then
      "t3SstzctF2gF8RtCVz9MN1VyeCxmBWBnNoJ".toList
    else 's' :: (toString hash.toNat).toList

/-- The hashes of the two forms and of the script. -/
def hash160 (bytes : List UInt8) : BitVec 160 :=
  if bytes = uncompressed then 0xae4f3935c82e47455af0430efd7e77a50a8aaa61
  else if bytes = compressed then 0x78757922e5e6fd7841b7e4f64d84b46a7b0edb6b
  else if bytes = p2pk then 0x5b35e74f25d5ba8d6bd5c53c81ba181e84dd1a4c
  else 0

/-- The codecs on the key. -/
def codecs : Codecs where
  parseUuid _ := none
  parseSeedFingerprint _ := .error "Invalid"
  hexDecode text := Text.hexDecode text.toList
  publicKeyFromSlice bytes :=
    if bytes = uncompressed ∨ bytes = compressed then some ⟨compressed⟩ else none
  fromPubkey pubkey := .PublicKeyHash (hash160 pubkey.bytes)
  hash160 := hash160
  parseRedeem _ := none
  encodeAddress address := String.ofList (encodeAddress address)
  decodeAddress _ := none
  decodeExtendedSpendingKey _ := .error "Invalid"
  decodeExtendedFullViewingKey _ := .error "Invalid"
  toExtendedFullViewingKey extsk := ⟨extsk.bytes⟩
  defaultAddress _ := ""
  fromSaplingExtendedFullViewingKey _ := .error "Invalid"
  seedFingerprint seed := ⟨seed.bytes⟩

def solver : Solver where
  toAsm code _ := if code = p2pk then uncompressedHex ++ " OP_CHECKSIG" else ""
  standard code := if code = p2pk then some (.PubKey uncompressed) else none

theorem encodeAddress_injective : Function.Injective encodeAddress := by
  have hnat : ∀ a b : BitVec 160, (toString a.toNat).toList = (toString b.toNat).toList → a = b :=
    fun a b h => BitVec.eq_of_toNat_eq (Nat.repr_injective (String.toList_injective h))
  intro a b h
  cases a with
  | PublicKeyHash a =>
    cases b with
    | PublicKeyHash b =>
      rw [TransparentAddress.PublicKeyHash.injEq]
      simp only [encodeAddress] at h
      split_ifs at h <;> simp at h <;> first | exact hnat a b (by simpa using h) | simp_all
    | ScriptHash b =>
      simp only [encodeAddress] at h
      split_ifs at h <;> simp at h
  | ScriptHash a =>
    cases b with
    | PublicKeyHash b =>
      simp only [encodeAddress] at h
      split_ifs at h <;> simp at h
    | ScriptHash b =>
      rw [TransparentAddress.ScriptHash.injEq]
      simp only [encodeAddress] at h
      split_ifs at h <;> simp at h <;> first | exact hnat a b (by simpa using h) | simp_all

theorem laws : codecs.PubkeyLaws PublicKey.bytes where
  fromPubkey pubkey := rfl
  compressed bytes pubkey hparse hlength := by
    simp only [codecs] at hparse
    split at hparse
    · next h =>
      cases hparse
      rcases h with rfl | rfl
      · exact absurd hlength (by decide)
      · rfl
    · cases hparse
  hexDecode bytes := by
    simp [codecs, Text.hexDecode_hexEncode]
  encodeAddress a b h := encodeAddress_injective (String.ofList_injective h)

theorem parse_compressed : codecs.publicKeyFromSlice compressed = some ⟨compressed⟩ := rfl

theorem parse_uncompressed : codecs.publicKeyFromSlice uncompressed = some ⟨compressed⟩ := rfl

theorem owner_compressed : ownerAddress codecs compressed = "t1UrXpY1bNP7BGDA4vmHSgdxsPwR2dj7qo6" :=
  String.ofList_toList

theorem owner_uncompressed :
    ownerAddress codecs uncompressed = "t1ZmGVFuKD1M7z912zqVnXJBrWfP9AWj9Ky" :=
  String.ofList_toList

theorem p2sh_p2pk : calculateP2shAddress codecs p2pk = "t3SstzctF2gF8RtCVz9MN1VyeCxmBWBnNoJ" :=
  String.ofList_toList

/-- The compressed form is mapped to its owner. -/
theorem mapsToOwner_compressed : MapsToOwner codecs solver compressed :=
  (mapsToOwner_iff laws parse_compressed).mpr (Or.inl rfl)

/-- Imports and scripts show the address of a form of the key that its owner does not use. -/
theorem addresses :
    parseImport codecs uncompressedHex =
      .ok (.P2pkh ⟨compressed⟩ ⟨"p2pkh", "t1UrXpY1bNP7BGDA4vmHSgdxsPwR2dj7qo6"⟩) ∧
    decodescript codecs solver (String.ofList (Text.hexEncode p2pk)) =
      .ok ⟨⟨uncompressedHex ++ " OP_CHECKSIG", some 1, "pubkey",
        ["t1UrXpY1bNP7BGDA4vmHSgdxsPwR2dj7qo6"]⟩, "t3SstzctF2gF8RtCVz9MN1VyeCxmBWBnNoJ"⟩ ∧
    ownerAddress codecs uncompressed = "t1ZmGVFuKD1M7z912zqVnXJBrWfP9AWj9Ky" ∧
    ¬ MapsToOwner codecs solver uncompressed := by
  have himport := parseImport_pubkey laws (laws.hexDecode uncompressed) parse_uncompressed
  have haddress := pubkeyToP2pkhAddress_eq laws parse_uncompressed
  rw [owner_compressed] at himport haddress
  refine ⟨himport, ?_, owner_uncompressed, fun h => ?_⟩
  · have hinfo : detectScriptInfo codecs solver p2pk =
        ("pubkey", some 1, ["t1UrXpY1bNP7BGDA4vmHSgdxsPwR2dj7qo6"]) := by
      have hstandard : solver.standard p2pk = some (.PubKey uncompressed) := by
        simp [solver]
      simp [detectScriptInfo, hstandard, scriptKindInfo, haddress]
    have hasm : solver.toAsm p2pk false = uncompressedHex ++ " OP_CHECKSIG" := by
      simp [solver]
    rw [decodescript_eq (laws.hexDecode p2pk), p2sh_p2pk, scriptToJson, hinfo, hasm]
  · obtain ⟨pubkey, hmapped⟩ := h.imported uncompressedHex (laws.hexDecode uncompressed)
    rw [uncompressedHex, himport, owner_uncompressed] at hmapped
    simp at hmapped

end UncompressedKey

end Zallet.Rpc
