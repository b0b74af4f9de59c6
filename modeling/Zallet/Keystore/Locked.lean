import Zallet.Effect.Hoare
import Zallet.Keystore.Decrypt

/-!
# Errors of a locked keystore

The text of an `Error` (`zallet-core/src/error.rs`, lines 50–90), the calls that
decrypt key material as operations of a program, and the test by which their callers
look for a locked wallet.

* `contextDisplay` is the `Display` of `abscissa`'s `Context`, a function of the texts
  of the kind and of the source.
* `isWalletLocked_eq_false`: no error passes the test, since the text of an error has
  several lines.
-/

namespace Zallet.Keystore

open Zallet.Chain (TransparentAddress)
open Zallet.Effect

/-! ## The text of an error -/

/-- The `Display` of `ErrorKind` (lines 50–61). -/
def ErrorKind.display : ErrorKind → String
  | Generic => "Error"
  | Init => "Failed to initialize zallet"
  | Chain => "An error occurred while accessing chain data."
  | RpcCli text => text
  | Sync => "Failed to synchronize zallet"

def errUxA : String := "Did zallet not do what you expected? Could the error be more useful?"

def errUxB : String := "Tell us"

def errUxC : String := "                    "

variable (contextDisplay : String → Option String → String)

/-- The `Display` of `Error` (lines 76–90). -/
def Error.display (e : Error) : String :=
  contextDisplay e.kind.display e.source ++ "\n" ++
    ("\n" ++
      ("[ " ++ errUxA ++ " ]\n" ++
        ("[ " ++ errUxB ++ ": https://github.com/zcash/zallet/issues " ++ errUxC ++ " ]")))

/-- The test `matches!(e.kind(), ErrorKind::Generic) && e.to_string() == "Wallet is
    locked"` of the callers. -/
def Error.isWalletLocked (e : Error) : Bool :=
  decide (e.kind = .Generic) && decide (e.display contextDisplay = "Wallet is locked")

theorem newline_mem_display (e : Error) : '\n' ∈ (e.display contextDisplay).toList := by
  simp [Error.display]

/-- No error is recognised as that of a locked wallet. -/
theorem isWalletLocked_eq_false (e : Error) : e.isWalletLocked contextDisplay = false := by
  have hne : e.display contextDisplay ≠ "Wallet is locked" := by
    intro h
    have hmem := newline_mem_display contextDisplay e
    rw [h] at hmem
    exact absurd hmem (by decide)
  simp [Error.isWalletLocked, hne]

/-! ## Calls that decrypt -/

/-- The lookups that a request for a signature makes. -/
inductive KeystoreOp (c : Crates)
  | decryptSeed (seedFp : SeedFingerprint)
  | decryptStandaloneTransparentKey (address : TransparentAddress)

@[reducible] def KeystoreOp.Ret {c : Crates} : KeystoreOp c → Type
  | decryptSeed _ => Except Error (List UInt8)
  | decryptStandaloneTransparentKey _ => Except Error c.SecretKey

@[reducible] def keystoreSig (c : Crates) : Sig := ⟨KeystoreOp c, KeystoreOp.Ret⟩

/-- What the keystore answers. -/
def KeyStore.answer {c : Crates} (ks : KeyStore) : (o : KeystoreOp c) → o.Ret
  | .decryptSeed seedFp => ks.decryptSeed c seedFp
  | .decryptStandaloneTransparentKey address => ks.decryptStandaloneTransparentKey c address

/-- The calls answer from the keystore and leave it as it is. -/
def keystoreContract (c : Crates) : Contract (keystoreSig c) KeyStore :=
  fun o ks r ks' => r = ks.answer o ∧ ks' = ks

/-- The error of a locked keystore. -/
def lockedError : Error := ErrorKind.Generic.context walletLocked

variable {c : Crates} {ks : KeyStore}

theorem decryptSeed_locked (h : ks.identities = []) (seedFp : SeedFingerprint) :
    ks.decryptSeed c seedFp = .error lockedError := by
  simp [KeyStore.decryptSeed, KeyStore.decryptMnemonic, KeyStore.unlockedIdentities, h, lockedError,
    bind, Except.bind]

theorem decryptTransparentKey_locked (h : ks.identities = []) (address : TransparentAddress) :
    ks.decryptStandaloneTransparentKey c address = .error lockedError := by
  simp [KeyStore.decryptStandaloneTransparentKey, KeyStore.unlockedIdentities, h, lockedError,
    bind, Except.bind]

end Zallet.Keystore
