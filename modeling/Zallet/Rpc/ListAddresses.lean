import Zallet.Rpc.Accounts
import Zallet.Rpc.RecipientCheck

/-!
# Listing addresses

`listaddresses`
(`zallet-core/src/components/json_rpc/methods/list_addresses.rs`, lines 24–303): the
addresses of every account are sorted by kind and scope, and moved into one record of the
source of the account.

* `entries`: where the response shows an address.
* `entries_addAddrs`: a record shows what was sorted, and loses the ephemeral addresses of
  an account without a derivation.
* `lists_exactly_iff`: the response shows exactly the addresses that the wallet lists
  unless it loses one.
-/

namespace Zallet.Rpc.ListAddresses

open Zallet.Chain (TransparentAddress)
open Zallet.Common.Loop
open Zallet.Rpc.Accounts Zallet.Rpc.RecipientCheck
open Zallet.Wallet

/-! ## The response -/

structure TransparentAddresses where
  addresses : List String
  changeAddresses : List String
  deriving DecidableEq

structure DerivedTransparentAddresses where
  seedfp : String
  account : ℕ
  addresses : List String
  changeAddresses : List String
  ephemeralAddresses : List String
  deriving DecidableEq

structure SaplingAddresses where
  zip32KeyPath : Option String
  addresses : List String
  deriving DecidableEq

structure UnifiedAddress where
  diversifierIndex : ℕ
  receiverTypes : List String
  address : String
  deriving DecidableEq

structure UnifiedAddresses where
  seedfp : Option String
  account : Option ℕ
  addresses : List UnifiedAddress
  deriving DecidableEq

/-- `AddressSource` (lines 29–50). -/
structure AddressSource where
  source : String
  transparent : Option TransparentAddresses
  derivedTransparent : List DerivedTransparentAddresses
  sapling : List SaplingAddresses
  unified : List UnifiedAddresses
  deriving DecidableEq

/-- `AddressSource::empty`. -/
def AddressSource.empty (source : String) : AddressSource := ⟨source, none, [], [], []⟩

/-- `AddressSource::has_data`. -/
def AddressSource.hasData (s : AddressSource) : Bool :=
  s.transparent.isSome || !s.derivedTransparent.isEmpty || !s.sapling.isEmpty ||
    !s.unified.isEmpty

/-! ## The addresses of the wallet -/

/-- The scopes of `TransparentKeyScope`. -/
def EXTERNAL : TransparentKeyScope := ⟨0⟩
def INTERNAL : TransparentKeyScope := ⟨1⟩
def EPHEMERAL : TransparentKeyScope := ⟨2⟩

/-- An address; a shielded one by its encoding, with the types of the receivers of a unified
    one. -/
inductive WalletAddress
  | Transparent (address : TransparentAddress)
  | Tex (hash : BitVec 160)
  | Sapling (encoded : String)
  | Unified (encoded : String) (receiverTypes : List Typecode)
  deriving DecidableEq

/-- `AddressSource` of `zcash_client_backend`: how an address came about. -/
inductive AddressDerivation
  | Derived (diversifierIndex : ℕ) (transparentKeyScope : Option TransparentKeyScope)
  | Standalone
  deriving DecidableEq

/-- `transparent_key_scope`. -/
def AddressDerivation.transparentKeyScope : AddressDerivation → Option TransparentKeyScope
  | Derived _ transparentKeyScope => transparentKeyScope
  | Standalone => none

structure AddressInfo where
  address : WalletAddress
  source : AddressDerivation
  deriving DecidableEq

/-- What the call reads and the texts it makes. -/
structure AddressReads extends AccountReads where
  listAddresses : AccountUuid → Except String (List AddressInfo)
  encodeTransparent : TransparentAddress → String
  encodeTex : BitVec 160 → String
  seedfpText : SeedFingerprint → String
  coinType : ℕ

section

variable (W : AddressReads)

/-- `Address::encode`. -/
def encode : WalletAddress → String
  | .Transparent address => W.encodeTransparent address
  | .Tex hash => W.encodeTex hash
  | .Sapling encoded => encoded
  | .Unified encoded _ => encoded

/-! ## The call -/

/-- The lists that the addresses of an account are sorted into (lines 152–156). -/
structure Buckets where
  transparentAddresses : List String
  transparentChangeAddresses : List String
  transparentEphemeralAddresses : List String
  saplingAddresses : List String
  unifiedAddresses : List UnifiedAddress

def Buckets.empty : Buckets := ⟨[], [], [], [], []⟩

/-- The name of a receiver type (lines 205–213). -/
def typecodeName : Typecode → String
  | .P2pkh => "p2pkh"
  | .P2sh => "p2sh"
  | .Sapling => "sapling"
  | .Orchard => "orchard"
  | .Unknown typecode => "unknown(" ++ toString typecode ++ ")"

/-- A transparent or TEX address goes by its scope (lines 161–180). -/
def Buckets.pushTransparent (b : Buckets) (encoded : String) :
    Option TransparentKeyScope → Except RpcError Buckets
  | none => .ok { b with transparentAddresses := b.transparentAddresses ++ [encoded] }
  | some scope =>
    if scope = EXTERNAL then
      .ok { b with transparentAddresses := b.transparentAddresses ++ [encoded] }
    else if scope = INTERNAL then
      .ok { b with transparentChangeAddresses := b.transparentChangeAddresses ++ [encoded] }
    else if scope = EPHEMERAL then
      .ok { b with transparentEphemeralAddresses := b.transparentEphemeralAddresses ++ [encoded] }
    else .error vanished

/-- One turn of the loop over the addresses of an account (lines 158–219). -/
def Buckets.push (b : Buckets) (info : AddressInfo) : Except RpcError Buckets :=
  let encoded := encode W info.address
  match info.address with
  | .Transparent _ | .Tex _ => b.pushTransparent encoded info.source.transparentKeyScope
  | .Sapling _ => .ok { b with saplingAddresses := b.saplingAddresses ++ [encoded] }
  | .Unified _ receiverTypes =>
    match info.source with
    | .Derived diversifierIndex _ =>
      let address := ⟨diversifierIndex, receiverTypes.map typecodeName, encoded⟩
      .ok { b with unifiedAddresses := b.unifiedAddresses ++ [address] }
    | .Standalone => .error vanished

/-- The loop over the addresses of an account. -/
def Buckets.pushAll : Buckets → List AddressInfo → Except RpcError Buckets
  | b, [] => .ok b
  | b, info :: infos => do
    let b ← b.push W info
    b.pushAll infos

/-- The transparent addresses of `add_addrs` (lines 227–257). -/
def AddressSource.addTransparent (source : AddressSource) (derivation : Option Zip32Derivation)
    (b : Buckets) : AddressSource :=
  if b.transparentAddresses.isEmpty && b.transparentChangeAddresses.isEmpty &&
      b.transparentEphemeralAddresses.isEmpty then source
  else
    match derivation with
    | some derivation =>
      let addresses := ⟨W.seedfpText derivation.seedFingerprint, derivation.accountIndex,
        b.transparentAddresses, b.transparentChangeAddresses, b.transparentEphemeralAddresses⟩
      { source with derivedTransparent := source.derivedTransparent ++ [addresses] }
    | none =>
      let transparent := source.transparent.getD ⟨[], []⟩
      { source with
        transparent := some
          { addresses := transparent.addresses ++ b.transparentAddresses
            changeAddresses := transparent.changeAddresses ++ b.transparentChangeAddresses } }

/-- The Sapling addresses of `add_addrs` (lines 259–266). -/
def AddressSource.addSapling (source : AddressSource) (derivation : Option Zip32Derivation)
    (b : Buckets) : AddressSource :=
  if b.saplingAddresses.isEmpty then source
  else
    let zip32KeyPath := derivation.map fun d =>
      "m/32'/" ++ toString W.coinType ++ "'/" ++ toString d.accountIndex ++ "'"
    { source with sapling := source.sapling ++ [⟨zip32KeyPath, b.saplingAddresses⟩] }

/-- `add_addrs` (lines 221–273). -/
def AddressSource.addAddrs (source : AddressSource) (derivation : Option Zip32Derivation)
    (b : Buckets) : AddressSource :=
  let source := (source.addTransparent W derivation b).addSapling W derivation b
  let unified := ⟨derivation.map fun d => W.seedfpText d.seedFingerprint,
    derivation.map Zip32Derivation.accountIndex, b.unifiedAddresses⟩
  { source with unified := source.unified ++ [unified] }

/-- The sources `imported_watchonly` and `mnemonic_seed`. -/
structure Sources where
  importedWatchonly : AddressSource
  mnemonicSeed : AddressSource

def Sources.empty : Sources := ⟨.empty "imported_watchonly", .empty "mnemonic_seed"⟩

/-- The addresses of an account are added to its source (lines 275–291). -/
def Sources.add (s : Sources) (account : Account) (b : Buckets) : Sources :=
  let derivation := account.source.keyDerivation
  match account.source with
  | .Derived _ => { s with mnemonicSeed := s.mnemonicSeed.addAddrs W derivation b }
  | .Imported _ => { s with importedWatchonly := s.importedWatchonly.addAddrs W derivation b }

/-- An account and the addresses that are listed for it (lines 141–150). -/
def readAccount (accountId : AccountUuid) : Except RpcError (Account × List AddressInfo) := do
  match ← database (W.getAccount accountId) with
  | none => .error vanished
  | some account => do
    let addresses ← database (W.listAddresses account.id)
    .ok (account, addresses)

/-- The loop over the accounts (lines 137–292). -/
def addAccounts : Sources → List AccountUuid → Except RpcError Sources
  | s, [] => .ok s
  | s, accountId :: rest => do
    let (account, addresses) ← readAccount W accountId
    let b ← Buckets.empty.pushAll W addresses
    addAccounts (s.add W account b) rest

/-- The sources that have data (lines 294–302). -/
def Sources.response (s : Sources) : List AddressSource :=
  [s.importedWatchonly, s.mnemonicSeed].filter AddressSource.hasData

/-- `listaddresses` (lines 133–303). -/
def listaddresses : Except RpcError (List AddressSource) := do
  let accountIds ← database W.getAccountIds
  let s ← addAccounts W .empty accountIds
  .ok s.response

end

/-! ## Where an address is shown -/

/-- The lists of the response. -/
inductive Place
  | transparent
  | change
  | ephemeral
  | sapling
  | unified
  deriving DecidableEq

/-- A source, a list of it and an address. -/
structure Shown where
  source : String
  place : Place
  address : String
  deriving DecidableEq

/-- The addresses of one list. -/
def shownIn (source : String) (place : Place) (addresses : List String) : Multiset Shown :=
  (addresses : Multiset String).map fun address => ⟨source, place, address⟩

/-- The addresses that a source shows. -/
def AddressSource.entries (s : AddressSource) : Multiset Shown :=
  (s.transparent.elim 0 fun t =>
      shownIn s.source .transparent t.addresses + shownIn s.source .change t.changeAddresses) +
    (s.derivedTransparent.map fun d => shownIn s.source .transparent d.addresses +
      shownIn s.source .change d.changeAddresses +
      shownIn s.source .ephemeral d.ephemeralAddresses).sum +
    (s.sapling.map fun a => shownIn s.source .sapling a.addresses).sum +
    (s.unified.map fun u =>
      shownIn s.source .unified (u.addresses.map UnifiedAddress.address)).sum

/-- The addresses that a response shows. -/
def entries (response : List AddressSource) : Multiset Shown :=
  (response.map AddressSource.entries).sum

/-- The name of the source of an account. -/
def originName : AccountSource → String
  | .Derived _ => "mnemonic_seed"
  | .Imported _ => "imported_watchonly"

/-- The list for a scope. Imported keys have none and are external. -/
def scopePlace : Option TransparentKeyScope → Option Place
  | none => some .transparent
  | some scope =>
    if scope = EXTERNAL then some .transparent
    else if scope = INTERNAL then some .change
    else if scope = EPHEMERAL then some .ephemeral
    else none

/-- The list for an address: by its kind, and for a transparent one by its scope. -/
def AddressInfo.place (info : AddressInfo) : Option Place :=
  match info.address with
  | .Transparent _ | .Tex _ => scopePlace info.source.transparentKeyScope
  | .Sapling _ => some .sapling
  | .Unified _ _ => some .unified

/-- Where the addresses of an account belong. -/
def belong (W : AddressReads) (listed : Account × List AddressInfo) : Multiset Shown :=
  (listed.2 : Multiset AddressInfo).filterMap fun info =>
    info.place.map fun place => ⟨originName listed.1.source, place, encode W info.address⟩

/-! ## Sorting -/

section

variable {W : AddressReads} {source : String} {b b' : Buckets}

@[simp] theorem shownIn_nil (place : Place) : shownIn source place [] = 0 := rfl

@[simp] theorem shownIn_append (place : Place) (l l' : List String) :
    shownIn source place (l ++ l') = shownIn source place l + shownIn source place l' := by
  rw [shownIn, ← Multiset.coe_add, Multiset.map_add]
  rfl

@[simp] theorem shownIn_singleton (place : Place) (address : String) :
    shownIn source place [address] = {⟨source, place, address⟩} := rfl

/-- What was sorted, as the source of the account would show it. -/
def Buckets.entries (source : String) (b : Buckets) : Multiset Shown :=
  shownIn source .transparent b.transparentAddresses +
    shownIn source .change b.transparentChangeAddresses +
    shownIn source .ephemeral b.transparentEphemeralAddresses +
    shownIn source .sapling b.saplingAddresses +
    shownIn source .unified (b.unifiedAddresses.map UnifiedAddress.address)

theorem entries_pushTransparent {encoded : String} {scope : Option TransparentKeyScope}
    (h : b.pushTransparent encoded scope = .ok b') :
    ∃ place, scopePlace scope = some place ∧
      b'.entries source = b.entries source + {⟨source, place, encoded⟩} := by
  cases scope with
  | none =>
    cases h
    refine ⟨.transparent, rfl, ?_⟩
    simp only [Buckets.entries, shownIn_append, shownIn_singleton]
    abel
  | some scope =>
    simp only [Buckets.pushTransparent] at h
    simp only [scopePlace]
    split_ifs at h ⊢ with hext hint heph
    all_goals
      cases h
      refine ⟨_, rfl, ?_⟩
      simp only [Buckets.entries, shownIn_append, shownIn_singleton]
      abel

variable (source) in
/-- A turn of the loop puts the address into the list for it. -/
theorem entries_push {info : AddressInfo} (h : b.push W info = .ok b') :
    ∃ place, info.place = some place ∧
      b'.entries source = b.entries source + {⟨source, place, encode W info.address⟩} := by
  obtain ⟨address, origin⟩ := info
  cases address with
  | Transparent address => exact entries_pushTransparent h
  | Tex hash => exact entries_pushTransparent h
  | Sapling encoded =>
    cases h
    refine ⟨.sapling, rfl, ?_⟩
    simp only [Buckets.entries, shownIn_append, shownIn_singleton]
    abel
  | Unified encoded receiverTypes =>
    cases origin with
    | Derived diversifierIndex scope =>
      cases h
      refine ⟨.unified, rfl, ?_⟩
      simp only [Buckets.entries, shownIn_append, shownIn_singleton, List.map_append, List.map_cons,
        List.map_nil]
      abel
    | Standalone => cases h

/-- The loop sorts every address of the account. -/
theorem entries_pushAll {account : Account} {infos : List AddressInfo}
    (h : b.pushAll W infos = .ok b') :
    b'.entries (originName account.source) =
      b.entries (originName account.source) + belong W (account, infos) := by
  induction infos generalizing b with
  | nil =>
    cases h
    exact (add_zero _).symm
  | cons info infos ih =>
    obtain ⟨b₁, hpush, hrest⟩ := bind_eq_ok.mp h
    obtain ⟨place, hplace, hentries⟩ := entries_push (originName account.source) hpush
    rw [ih hrest, hentries, belong, belong, ← Multiset.cons_coe, Multiset.filterMap_cons_some _ _ _
      (b := ⟨originName account.source, place, encode W info.address⟩) (by simp [hplace])]
    rw [← Multiset.singleton_add]
    abel

/-- The ephemeral addresses among those that were sorted. -/
theorem filter_entries (b : Buckets) :
    (b.entries source).filter (fun shown => shown.place = .ephemeral) =
      shownIn source .ephemeral b.transparentEphemeralAddresses := by
  have hsame (place : Place) (l : List String) :
      (shownIn source place l).filter (fun shown => shown.place = .ephemeral) =
        if place = .ephemeral then shownIn source place l else 0 := by
    split_ifs with hplace
    · exact Multiset.filter_eq_self.mpr fun shown hshown => by
        obtain ⟨address, -, rfl⟩ := Multiset.mem_map.mp hshown
        exact hplace
    · exact Multiset.filter_eq_nil.mpr fun shown hshown => by
        obtain ⟨address, -, rfl⟩ := Multiset.mem_map.mp hshown
        exact hplace
  simp [Buckets.entries, hsame]

end

/-! ## Moving the lists into the records -/

section

variable {W : AddressReads}

/-- The ephemeral addresses of an account without a derivation. -/
def lost (W : AddressReads) (listed : Account × List AddressInfo) : Multiset Shown :=
  if listed.1.source.keyDerivation = none then
    (belong W listed).filter fun shown => shown.place = .ephemeral
  else 0

variable {source : AddressSource} {derivation : Option Zip32Derivation} {b : Buckets}

@[simp] theorem addTransparent_source :
    (source.addTransparent W derivation b).source = source.source := by
  unfold AddressSource.addTransparent
  split_ifs
  · rfl
  · cases derivation with
    | none => rfl
    | some derivation => rfl

theorem entries_addTransparent :
    (source.addTransparent W derivation b).entries +
        (if derivation = none then
          shownIn source.source .ephemeral b.transparentEphemeralAddresses else 0) =
      source.entries + shownIn source.source .transparent b.transparentAddresses +
        shownIn source.source .change b.transparentChangeAddresses +
        shownIn source.source .ephemeral b.transparentEphemeralAddresses := by
  unfold AddressSource.addTransparent
  split_ifs with hempty hnone hnone
  · simp only [Bool.and_eq_true, List.isEmpty_iff] at hempty
    simp [hempty]
  · simp only [Bool.and_eq_true, List.isEmpty_iff] at hempty
    simp [hempty]
  · subst hnone
    simp only [AddressSource.entries, Option.elim_some, shownIn_append]
    cases source.transparent with
    | none =>
      simp only [Option.getD_none, Option.elim_none, shownIn_nil]
      abel
    | some transparent =>
      simp only [Option.getD_some, Option.elim_some]
      abel
  · obtain ⟨derivation, rfl⟩ := Option.ne_none_iff_exists'.mp hnone
    simp only [AddressSource.entries, List.map_append, List.map_cons, List.map_nil, List.sum_append,
      List.sum_singleton]
    abel

theorem entries_addSapling :
    (source.addSapling W derivation b).entries =
      source.entries + shownIn source.source .sapling b.saplingAddresses := by
  unfold AddressSource.addSapling
  split_ifs with hempty
  · rw [List.isEmpty_iff.mp hempty]
    exact (add_zero _).symm
  · simp only [AddressSource.entries, List.map_append, List.map_cons, List.map_nil, List.sum_append,
      List.sum_singleton]
    abel

@[simp] theorem addSapling_source :
    (source.addSapling W derivation b).source = source.source := by
  unfold AddressSource.addSapling
  split_ifs
  · rfl
  · rfl

@[simp] theorem addAddrs_source :
    (source.addAddrs W derivation b).source = source.source := by
  simp [AddressSource.addAddrs]

variable (W source derivation b) in
/-- A record shows what was sorted, but for the ephemeral addresses of an account without a
    derivation. -/
theorem entries_addAddrs :
    (source.addAddrs W derivation b).entries +
        (if derivation = none then
          shownIn source.source .ephemeral b.transparentEphemeralAddresses else 0) =
      source.entries + b.entries source.source := by
  have hunified (s : AddressSource) (u : UnifiedAddresses) :
      ({ s with unified := s.unified ++ [u] } : AddressSource).entries =
        s.entries + shownIn s.source .unified (u.addresses.map UnifiedAddress.address) := by
    simp only [AddressSource.entries, List.map_append, List.map_cons, List.map_nil, List.sum_append,
      List.sum_singleton]
    abel
  rw [AddressSource.addAddrs, hunified, entries_addSapling, addSapling_source,
    addTransparent_source, add_right_comm, add_right_comm _ _ (ite _ _ _), entries_addTransparent,
    Buckets.entries]
  abel

/-- The sources have their names. -/
structure Sources.Named (s : Sources) : Prop where
  importedWatchonly : s.importedWatchonly.source = "imported_watchonly"
  mnemonicSeed : s.mnemonicSeed.source = "mnemonic_seed"

/-- The addresses that the sources show. -/
def Sources.entries (s : Sources) : Multiset Shown :=
  s.importedWatchonly.entries + s.mnemonicSeed.entries

variable {s s' : Sources} {account : Account}

theorem Sources.Named.add (h : s.Named) : (s.add W account b).Named := by
  obtain ⟨himported, hmnemonic⟩ := h
  unfold Sources.add
  cases account.source with
  | Derived derivation => exact ⟨himported, by simpa using hmnemonic⟩
  | Imported purpose => exact ⟨by simpa using himported, hmnemonic⟩

/-- The addresses of one account. -/
theorem entries_add (h : s.Named) {infos : List AddressInfo}
    (hpush : Buckets.empty.pushAll W infos = .ok b) :
    (s.add W account b).entries + lost W (account, infos) =
      s.entries + belong W (account, infos) := by
  have hbelong : b.entries (originName account.source) = belong W (account, infos) := by
    rw [entries_pushAll hpush]
    exact zero_add _
  rw [lost, ← hbelong, filter_entries]
  unfold Sources.add
  cases hsource : account.source with
  | Derived derivation =>
    have hadd := entries_addAddrs W s.mnemonicSeed account.source.keyDerivation b
    rw [h.mnemonicSeed, hsource] at hadd
    simp only [Sources.entries, originName, add_assoc, hadd]
  | Imported purpose =>
    have hadd := entries_addAddrs W s.importedWatchonly account.source.keyDerivation b
    rw [h.importedWatchonly, hsource] at hadd
    simp only [Sources.entries, originName]
    rw [add_right_comm, hadd, add_right_comm]

/-- The addresses of all the accounts. -/
theorem entries_addAccounts (h : s.Named) {ids : List AccountUuid}
    (hadd : addAccounts W s ids = .ok s') :
    ∃ listed, ids.mapM (readAccount W) = .ok listed ∧
      s'.entries + (listed.map (lost W)).sum = s.entries + (listed.map (belong W)).sum := by
  induction ids generalizing s with
  | nil =>
    cases hadd
    exact ⟨[], rfl, rfl⟩
  | cons accountId rest ih =>
    obtain ⟨⟨account, infos⟩, hread, hadd⟩ := bind_eq_ok.mp hadd
    obtain ⟨b, hpush, hadd⟩ := bind_eq_ok.mp hadd
    obtain ⟨listed, hlisted, hentries⟩ := ih h.add hadd
    refine ⟨(account, infos) :: listed, ?_, ?_⟩
    · rw [List.mapM_cons, hread, hlisted]
      rfl
    · rw [List.map_cons, List.map_cons, List.sum_cons, List.sum_cons, add_left_comm, hentries,
        ← add_assoc, add_comm (lost W _), entries_add h hpush, add_assoc]

/-- A source without data shows nothing. -/
theorem entries_eq_zero (h : source.hasData = false) : source.entries = 0 := by
  simp only [AddressSource.hasData, Bool.or_eq_false_iff, Option.isSome_eq_false_iff,
    Option.isNone_iff_eq_none, Bool.not_eq_false', List.isEmpty_iff] at h
  simp [AddressSource.entries, h]

/-- The response shows what the sources show. -/
theorem entries_response (s : Sources) : entries s.response = s.entries := by
  cases himported : s.importedWatchonly.hasData <;> cases hmnemonic : s.mnemonicSeed.hasData <;>
    simp [entries, Sources.response, Sources.entries, himported, hmnemonic, entries_eq_zero]

end

/-! ## What the response shows -/

/-- The accounts of the wallet, with the addresses that it lists for each. -/
def listedAccounts (W : AddressReads) : Except RpcError (List (Account × List AddressInfo)) := do
  let accountIds ← database W.getAccountIds
  accountIds.mapM (readAccount W)

/-- An account without a derivation has no ephemeral address. -/
def EphemeralDerived (listed : Account × List AddressInfo) : Prop :=
  listed.1.source.keyDerivation = none → ∀ info ∈ listed.2, info.place ≠ some .ephemeral

theorem lost_eq_zero_iff {W : AddressReads} {listed : Account × List AddressInfo} :
    lost W listed = 0 ↔ EphemeralDerived listed := by
  unfold lost EphemeralDerived
  split_ifs with hnone
  · simp only [Multiset.filter_eq_nil, belong, Multiset.mem_filterMap, Multiset.mem_coe,
      Option.map_eq_some_iff]
    constructor
    · intro h _ info hinfo hplace
      exact h _ ⟨info, hinfo, .ephemeral, hplace, rfl⟩ rfl
    · rintro h shown ⟨info, hinfo, place, hplace, rfl⟩ rfl
      exact h hnone info hinfo hplace
  · simp [hnone]

/-- The response and the addresses that it loses are the addresses of the accounts. -/
theorem entries_listaddresses {W : AddressReads} {result : List AddressSource}
    (h : listaddresses W = .ok result) :
    ∃ listed, listedAccounts W = .ok listed ∧
      entries result + (listed.map (lost W)).sum = (listed.map (belong W)).sum := by
  obtain ⟨ids, hids, h⟩ := bind_eq_ok.mp h
  obtain ⟨s, hadd, h⟩ := bind_eq_ok.mp h
  cases h
  obtain ⟨listed, hlisted, hentries⟩ := entries_addAccounts ⟨rfl, rfl⟩ hadd
  refine ⟨listed, bind_eq_ok.mpr ⟨ids, hids, hlisted⟩, ?_⟩
  rw [entries_response, hentries]
  exact zero_add _

/-- Every address is shown where it belongs, as often as it is listed, and no other is,
    exactly if no account without a derivation has an ephemeral address. -/
theorem lists_exactly_iff (W : AddressReads) (result : List AddressSource)
    (h : listaddresses W = .ok result) :
    ∃ listed, listedAccounts W = .ok listed ∧
      (entries result = (listed.map (belong W)).sum ↔ ∀ l ∈ listed, EphemeralDerived l) := by
  obtain ⟨listed, hlisted, hentries⟩ := entries_listaddresses h
  refine ⟨listed, hlisted, ?_⟩
  rw [← hentries, left_eq_add, List.sum_eq_zero_iff, List.forall_mem_map]
  exact forall₂_congr fun _ _ => lost_eq_zero_iff

/-! ## An account without a derivation -/

namespace ViewOnlyEphemeral

def account : Account := ⟨1, "view only", .Imported .ViewOnly, ⟨"uview"⟩, 0⟩

def external : AddressInfo := ⟨.Transparent (.PublicKeyHash 1), .Derived 0 (some EXTERNAL)⟩
def ephemeral : AddressInfo := ⟨.Transparent (.PublicKeyHash 2), .Derived 0 (some EPHEMERAL)⟩

def encodeTransparent : TransparentAddress → String
  | .PublicKeyHash hash => if hash = 1 then "t1a" else "t1b"
  | .ScriptHash _ => "t3"

/-- A wallet with the account and its addresses. -/
def wallet (addresses : List AddressInfo) : AddressReads where
  getAccountIds := .ok [1]
  getAccount := fun _ => .ok (some account)
  listAddresses := fun _ => .ok addresses
  encodeTransparent := encodeTransparent
  encodeTex := fun _ => "tex1"
  seedfpText := fun _ => "seedfp"
  coinType := 133

/-- The response of the wallet. -/
def shown : List AddressSource :=
  [⟨"imported_watchonly", some ⟨["t1a"], []⟩, [], [], [⟨none, none, []⟩]⟩]

/-- With an external address alone the response shows it. -/
theorem lists_exactly_external :
    ∃ listed, listedAccounts (wallet [external]) = .ok listed ∧
      (entries shown = (listed.map (belong (wallet [external]))).sum ↔
        ∀ l ∈ listed, EphemeralDerived l) :=
  lists_exactly_iff (wallet [external]) shown rfl

/-- With an ephemeral address as well the response is the same. -/
theorem ephemeral_dropped :
    listaddresses (wallet [external, ephemeral]) = .ok shown ∧
      listedAccounts (wallet [external, ephemeral]) = .ok [(account, [external, ephemeral])] ∧
      ⟨"imported_watchonly", .ephemeral, "t1b"⟩ ∈
        belong (wallet [external, ephemeral]) (account, [external, ephemeral]) ∧
      ⟨"imported_watchonly", .ephemeral, "t1b"⟩ ∉ entries shown :=
  ⟨rfl, rfl, by decide, by decide⟩

end ViewOnlyEphemeral

end Zallet.Rpc.ListAddresses
