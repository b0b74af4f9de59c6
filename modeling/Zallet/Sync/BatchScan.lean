import Zallet.Wallet.Types

/-!
# Scanning in batches and block by block

What `scan_blocks` and `scan_block` find
(`zallet-core/src/components/sync/steps.rs`, lines 69–83 and 123–291). `scan_blocks`
reads the nullifiers and the transparent addresses of the wallet once for the whole
range and keeps the nullifiers up to date itself; `scan_block` reads both again for
every block.

* `batch_agree`: notes, spends and scanned blocks are the same either way.
* `batch_finds_iff`: so are the transparent outputs unless a block of the range pays
  an address that an earlier block of the range made a receiver of the wallet
  (`Missed`).
* `second_payment_missed`: two blocks are enough.

The programs with their chain reads and errors are in `Sync.Steps`; here a chain
serves every block up to its tip and the decryptor answers, and `Sync.ScanPrograms`
shows that the programs do then what the functions here say. Of `full::scan_block`,
`update_with` and `put_blocks` the model has what they report and store; `Upstream`
has the viewing keys and the gap limit.
-/

namespace Zallet.Sync.BatchScan

open Zallet.Chain Zallet.Wallet

/-! ## Blocks and wallets -/

structure ShieldedOutput where
  output : OutPoint
  encrypted : List UInt8
  deriving DecidableEq

structure TransparentOutput where
  output : OutPoint
  address : TransparentAddress
  deriving DecidableEq

abbrev Nullifier := BitVec 256

/-- A block by what its transactions send and spend. -/
structure Block where
  height : ℕ
  shielded : List ShieldedOutput
  transparent : List TransparentOutput
  nullifiers : List Nullifier
  deriving DecidableEq

/-- The account of an address and its scope. -/
abbrev Owner := AccountUuid × Option TransparentKeyScope

/-- What `get_transparent_receivers` returns for each account. -/
abbrev Receivers := AccountUuid → List (TransparentAddress × Option TransparentKeyScope)

/-- `ScannedBlock`: what was found in a block. -/
structure Scanned where
  height : ℕ
  notes : List (ShieldedOutput × Nullifier)
  outputs : List (TransparentOutput × Owner)
  spends : List Nullifier
  deriving DecidableEq

structure Wallet where
  accounts : List AccountUuid
  receivers : Receivers
  notes : Finset (ShieldedOutput × Nullifier)
  outputs : Finset (TransparentOutput × Owner)
  spent : Finset Nullifier
  scanned : Finset ℕ

/-- The addresses in the order in which they are put into the index. -/
def owned (accounts : List AccountUuid) (receivers : Receivers) : List (TransparentAddress × Owner) :=
  accounts.flatMap fun account => (receivers account).map fun (a, scope) => (a, account, scope)

/-- `transparent_address_index` (lines 75–83): later insertions win. -/
def transparentAddressIndex (accounts : List AccountUuid) (receivers : Receivers) :
    TransparentAddressIndex := fun address =>
  ((owned accounts receivers).reverse.find? (·.1 = address)).map (·.2)

def Wallet.index (w : Wallet) : TransparentAddressIndex :=
  transparentAddressIndex w.accounts w.receivers

structure Upstream where
  /-- The nullifier of a note that a scanning key decrypts. -/
  decrypt : ShieldedOutput → Option Nullifier
  /-- `put_blocks` extends the receivers of the accounts of new outputs. -/
  extend : List AccountUuid → Receivers → List (TransparentOutput × Owner) → Receivers
  /-- An extension leaves the addresses that have an owner. -/
  extend_index : ∀ accounts receivers outputs address owner,
    transparentAddressIndex accounts receivers address = some owner →
    transparentAddressIndex accounts (extend accounts receivers outputs) address = some owner

/-- The outputs of a block that pay an address of the index. -/
def Block.received (index : TransparentAddressIndex) (block : Block) :
    List (TransparentOutput × Owner) :=
  block.transparent.filterMap fun o => (index o.address).map (o, ·)

variable (U : Upstream)

/-- The notes of a block that a scanning key decrypts. -/
def Block.notes (block : Block) : List (ShieldedOutput × Nullifier) :=
  block.shielded.filterMap fun o => (U.decrypt o).map (o, ·)

/-- `full::scan_block`. -/
def fullScanBlock (block : Block) (nullifiers : Finset Nullifier) (index : TransparentAddressIndex) :
    Scanned where
  height := block.height
  notes := block.notes U
  outputs := block.received index
  spends := block.nullifiers.filter (· ∈ nullifiers)

/-- `Nullifiers::unspent`. -/
def Wallet.unspent (w : Wallet) : Finset Nullifier := w.notes.image (·.2) \ w.spent

/-- `Nullifiers::update_with`. -/
def updateWith (nullifiers : Finset Nullifier) (scanned : Scanned) : Finset Nullifier :=
  (nullifiers \ scanned.spends.toFinset) ∪ (scanned.notes.map (·.2)).toFinset

/-- `put_blocks` for one block. -/
def putBlock (w : Wallet) (scanned : Scanned) : Wallet :=
  { w with
    receivers := U.extend w.accounts w.receivers scanned.outputs
    notes := w.notes ∪ scanned.notes.toFinset
    outputs := w.outputs ∪ scanned.outputs.toFinset
    spent := w.spent ∪ scanned.spends.toFinset
    scanned := insert scanned.height w.scanned }

/-- `put_blocks`. -/
def putBlocks (w : Wallet) (blocks : List Scanned) : Wallet := blocks.foldl (putBlock U) w

/-! ## The two scanners -/

/-- The blocks of a chain, by height. -/
structure Chain where
  tip : ℕ
  block : ℕ → Block
  block_height : ∀ h, (block h).height = h

/-- `stream_blocks`. -/
def Chain.streamBlocks (chain : Chain) (start stop : ℕ) : List Block :=
  (List.range' start (min stop (chain.tip + 1) - start)).map chain.block

/-- The loop of `scan_blocks` (lines 180–205). -/
def scanBatch (index : TransparentAddressIndex) : Finset Nullifier → List Block → List Scanned
  | _, [] => []
  | nullifiers, block :: rest =>
    fullScanBlock U block nullifiers index ::
      scanBatch index (updateWith nullifiers (fullScanBlock U block nullifiers index)) rest

/-- `scan_blocks` (lines 124–223), with `clamp_to_boundary` and a range that may start
    beyond the tip. -/
def scanBlocks (chain : Chain) (start stop : ℕ) (shutdownHeight : Option ℕ) (w : Wallet) : Wallet :=
  let stop := (shutdownHeight.map (min · stop)).getD stop
  if stop ≤ start then w
  else if start - 1 ≤ chain.tip then
    putBlocks U w (scanBatch U w.index w.unspent (chain.streamBlocks start stop))
  else w

/-- `scan_block` (lines 226–291); `none` if it stops at the boundary. -/
def scanBlock (block : Block) (shutdownHeight : Option ℕ) (w : Wallet) : Option Wallet :=
  if shutdownHeight.any fun h => decide (h ≤ block.height) then none
  else some (putBlocks U w [fullScanBlock U block w.unspent w.index])

/-- `scan_block` on each block, until it stops. -/
def scanEach (shutdownHeight : Option ℕ) : List Block → Wallet → Wallet
  | [], w => w
  | block :: rest, w =>
    match scanBlock U block shutdownHeight w with
    | none => w
    | some w => scanEach shutdownHeight rest w

/-! ## Specification -/

/-- The wallets hold the same notes, transparent outputs, spends and scanned
    blocks. -/
def SameFinds (w w' : Wallet) : Prop :=
  w.notes = w'.notes ∧ w.outputs = w'.outputs ∧ w.spent = w'.spent ∧ w.scanned = w'.scanned

/-- The receivers after blocks were received one by one. -/
def grow (accounts : List AccountUuid) : Receivers → List Block → Receivers
  | receivers, [] => receivers
  | receivers, block :: rest =>
    grow accounts
      (U.extend accounts receivers (block.received (transparentAddressIndex accounts receivers))) rest

/-- A block of the list pays an address that the blocks before it made a receiver, and
    the wallet did not hold the output already. -/
def Missed (blocks : List Block) (w : Wallet) : Prop :=
  ∃ before block after, blocks = before ++ block :: after ∧ ∃ o ∈ block.transparent, ∃ owner,
    transparentAddressIndex w.accounts (grow U w.accounts w.receivers before) o.address = some owner ∧
      w.index o.address = none ∧ (o, owner) ∉ w.outputs

/-- The blocks of a range that are scanned. -/
def Chain.scannable (chain : Chain) (start stop : ℕ) (shutdownHeight : Option ℕ) : List Block :=
  chain.streamBlocks start ((shutdownHeight.map (min · stop)).getD stop)

/-! ## Notes and spends -/

variable {U}

/-- Scanning blocks one by one without a boundary. -/
def scanAll (U : Upstream) (blocks : List Block) (w : Wallet) : Wallet :=
  blocks.foldl (fun w block => putBlock U w (fullScanBlock U block w.unspent w.index)) w

/-- The nullifiers that the batch keeps are those of notes, and they lack only
    nullifiers that are spent. -/
structure Tracks (nullifiers : Finset Nullifier) (w : Wallet) : Prop where
  sound : nullifiers ⊆ w.notes.image (·.2)
  complete : w.notes.image (·.2) ⊆ nullifiers ∪ w.spent

theorem Tracks.unspent (w : Wallet) : Tracks w.unspent w := by
  refine ⟨Finset.sdiff_subset, fun n hn => ?_⟩
  by_cases hspent : n ∈ w.spent
  · exact Finset.mem_union_right _ hspent
  · exact Finset.mem_union_left _ (Finset.mem_sdiff.mpr ⟨hn, hspent⟩)

/-- The spends of a block are the same with both sets of nullifiers. -/
theorem Tracks.spent {nullifiers : Finset Nullifier} {w : Wallet} (h : Tracks nullifiers w)
    (block : Block) (index : TransparentAddressIndex) :
    w.spent ∪ (fullScanBlock U block nullifiers index).spends.toFinset =
      w.spent ∪ (block.nullifiers.filter (· ∈ w.notes.image (·.2))).toFinset := by
  ext n
  simp only [fullScanBlock, Finset.mem_union, List.mem_toFinset, List.mem_filter, decide_eq_true_eq]
  constructor
  · rintro (hn | ⟨hn, hmem⟩)
    · exact Or.inl hn
    · exact Or.inr ⟨hn, h.sound hmem⟩
  · rintro (hn | ⟨hn, hmem⟩)
    · exact Or.inl hn
    · rcases Finset.mem_union.mp (h.complete hmem) with h' | h'
      · exact Or.inr ⟨hn, h'⟩
      · exact Or.inl h'

theorem Tracks.step {nullifiers : Finset Nullifier} {w : Wallet} (h : Tracks nullifiers w)
    (block : Block) (index : TransparentAddressIndex) :
    Tracks (updateWith nullifiers (fullScanBlock U block nullifiers index))
      (putBlock U w (fullScanBlock U block nullifiers index)) := by
  constructor
  · intro n hn
    simp only [putBlock, Finset.image_union, Finset.mem_union]
    rcases Finset.mem_union.mp hn with hn | hn
    · exact Or.inl (h.sound (Finset.mem_sdiff.mp hn).1)
    · right
      obtain ⟨note, hnote, rfl⟩ := List.mem_map.mp (List.mem_toFinset.mp hn)
      exact Finset.mem_image_of_mem _ (List.mem_toFinset.mpr hnote)
  · intro n hn
    simp only [putBlock, Finset.image_union, Finset.mem_union] at hn
    simp only [updateWith, putBlock, Finset.mem_union, Finset.mem_sdiff]
    rcases hn with hn | hn
    · rcases Finset.mem_union.mp (h.complete hn) with h' | h'
      · by_cases hs : n ∈ (fullScanBlock U block nullifiers index).spends.toFinset
        · exact Or.inr (Or.inr hs)
        · exact Or.inl (Or.inl ⟨h', hs⟩)
      · exact Or.inr (Or.inl h')
    · left
      right
      obtain ⟨note, hnote, rfl⟩ := Finset.mem_image.mp hn
      exact List.mem_toFinset.mpr (List.mem_map.mpr ⟨note, List.mem_toFinset.mp hnote, rfl⟩)

/-- The two wallets agree apart from transparent outputs and receivers. -/
structure Agree (wb w : Wallet) : Prop where
  notes : wb.notes = w.notes
  spent : wb.spent = w.spent
  scanned : wb.scanned = w.scanned

theorem Agree.step {nullifiers : Finset Nullifier} {wb w : Wallet} (h : Agree wb w)
    (ht : Tracks nullifiers wb) (block : Block) (index index' : TransparentAddressIndex) :
    Agree (putBlock U wb (fullScanBlock U block nullifiers index))
      (putBlock U w (fullScanBlock U block w.unspent index')) := by
  refine ⟨?_, ?_, ?_⟩
  · simp only [putBlock, fullScanBlock, h.notes]
  · calc (putBlock U wb (fullScanBlock U block nullifiers index)).spent
        = wb.spent ∪ (block.nullifiers.filter (· ∈ wb.notes.image (·.2))).toFinset :=
          ht.spent block index
      _ = w.spent ∪ (block.nullifiers.filter (· ∈ w.notes.image (·.2))).toFinset := by
          rw [h.spent, h.notes]
      _ = (putBlock U w (fullScanBlock U block w.unspent index')).spent :=
          ((Tracks.unspent w).spent block index').symm
  · simp only [putBlock, fullScanBlock, h.scanned]

/-- Notes, spends and scanned blocks are the same in a batch and one by one. -/
theorem batch_agree (blocks : List Block) (index : TransparentAddressIndex)
    {nullifiers : Finset Nullifier} {wb w : Wallet} (h : Agree wb w) (ht : Tracks nullifiers wb) :
    Agree (putBlocks U wb (scanBatch U index nullifiers blocks)) (scanAll U blocks w) := by
  induction blocks generalizing nullifiers wb w with
  | nil => exact h
  | cons block blocks ih => exact ih (h.step ht block index w.index) (ht.step block index)

/-! ## Transparent outputs -/

/-- The outputs that are received one by one. -/
def receivedEach (U : Upstream) (accounts : List AccountUuid) :
    Receivers → List Block → List (TransparentOutput × Owner)
  | _, [] => []
  | receivers, block :: rest =>
    block.received (transparentAddressIndex accounts receivers) ++
      receivedEach U accounts
        (U.extend accounts receivers (block.received (transparentAddressIndex accounts receivers)))
        rest

theorem scanAll_outputs (blocks : List Block) (w : Wallet) :
    (scanAll U blocks w).outputs =
      w.outputs ∪ (receivedEach U w.accounts w.receivers blocks).toFinset := by
  induction blocks generalizing w with
  | nil => simp [scanAll, receivedEach]
  | cons block blocks ih =>
    have h := ih (putBlock U w (fullScanBlock U block w.unspent w.index))
    rw [scanAll, List.foldl_cons, ← scanAll, h, receivedEach, List.toFinset_append,
      ← Finset.union_assoc]
    rfl

theorem batch_outputs (blocks : List Block) (nullifiers : Finset Nullifier)
    (index : TransparentAddressIndex) (w : Wallet) :
    (putBlocks U w (scanBatch U index nullifiers blocks)).outputs =
      w.outputs ∪ (blocks.flatMap (Block.received index)).toFinset := by
  induction blocks generalizing nullifiers w with
  | nil => simp [putBlocks, scanBatch]
  | cons block blocks ih =>
    rw [scanBatch, putBlocks, List.foldl_cons, ← putBlocks, ih, List.flatMap_cons,
      List.toFinset_append, ← Finset.union_assoc]
    rfl

theorem mem_receivedEach {accounts : List AccountUuid} {receivers : Receivers} {blocks : List Block}
    {x : TransparentOutput × Owner} :
    x ∈ receivedEach U accounts receivers blocks ↔
      ∃ before block after, blocks = before ++ block :: after ∧
        x ∈ block.received (transparentAddressIndex accounts (grow U accounts receivers before)) := by
  induction blocks generalizing receivers with
  | nil => simp [receivedEach]
  | cons b blocks ih =>
    rw [receivedEach, List.mem_append, ih]
    constructor
    · rintro (h | ⟨before, block, after, rfl, h⟩)
      · exact ⟨[], b, blocks, rfl, h⟩
      · exact ⟨b :: before, block, after, rfl, h⟩
    · rintro ⟨before, block, after, heq, h⟩
      cases before with
      | nil =>
        cases heq
        exact Or.inl h
      | cons b' before =>
        cases heq
        exact Or.inr ⟨before, block, after, rfl, h⟩

theorem grow_index {accounts : List AccountUuid} {receivers : Receivers} {address : TransparentAddress}
    {owner : Owner} (h : transparentAddressIndex accounts receivers address = some owner)
    (blocks : List Block) :
    transparentAddressIndex accounts (grow U accounts receivers blocks) address = some owner := by
  induction blocks generalizing receivers with
  | nil => exact h
  | cons block blocks ih => exact ih (U.extend_index _ _ _ _ _ h)

theorem mem_received {index : TransparentAddressIndex} {block : Block} {o : TransparentOutput}
    {owner : Owner} :
    (o, owner) ∈ block.received index ↔ o ∈ block.transparent ∧ index o.address = some owner := by
  simp only [Block.received, List.mem_filterMap, Option.map_eq_some_iff, Prod.mk.injEq]
  constructor
  · rintro ⟨o', ho', owner', howner', rfl, rfl⟩
    exact ⟨ho', howner'⟩
  · rintro ⟨ho, howner⟩
    exact ⟨o, ho, owner, howner, rfl, rfl⟩

/-- The transparent outputs are the same unless one is missed. -/
theorem outputs_eq_iff (blocks : List Block) (w : Wallet) :
    w.outputs ∪ (blocks.flatMap (Block.received w.index)).toFinset =
        w.outputs ∪ (receivedEach U w.accounts w.receivers blocks).toFinset ↔
      ¬ Missed U blocks w := by
  constructor
  · rintro heq ⟨before, block, after, rfl, o, ho, owner, howner, hnone, hnew⟩
    have hmem : (o, owner) ∈ w.outputs ∪
        (receivedEach U w.accounts w.receivers (before ++ block :: after)).toFinset := by
      refine Finset.mem_union_right _ (List.mem_toFinset.mpr (mem_receivedEach.mpr ?_))
      exact ⟨before, block, after, rfl, mem_received.mpr ⟨ho, howner⟩⟩
    rw [← heq] at hmem
    rcases Finset.mem_union.mp hmem with h | h
    · exact hnew h
    · obtain ⟨b, -, hb⟩ := List.mem_flatMap.mp (List.mem_toFinset.mp h)
      cases hnone.symm.trans (mem_received.mp hb).2
  · intro hmissed
    ext ⟨o, owner⟩
    simp only [Finset.mem_union, List.mem_toFinset, List.mem_flatMap]
    constructor
    · rintro (h | ⟨block, hblock, h⟩)
      · exact Or.inl h
      · obtain ⟨before, after, rfl⟩ := List.append_of_mem hblock
        obtain ⟨ho, howner⟩ := mem_received.mp h
        exact Or.inr (mem_receivedEach.mpr ⟨before, block, after, rfl,
          mem_received.mpr ⟨ho, grow_index howner before⟩⟩)
    · rintro (h | h)
      · exact Or.inl h
      · obtain ⟨before, block, after, rfl, hrec⟩ := mem_receivedEach.mp h
        obtain ⟨ho, howner⟩ := mem_received.mp hrec
        cases hindex : w.index o.address with
        | none =>
          left
          by_contra hnew
          exact hmissed ⟨before, block, after, rfl, o, ho, owner, howner, hindex, hnew⟩
        | some owner' =>
          right
          cases (grow_index (U := U) hindex before).symm.trans howner
          exact ⟨block, by simp, mem_received.mpr ⟨ho, hindex⟩⟩

/-! ## The two scanners compared -/

theorem scanEach_none (blocks : List Block) (w : Wallet) :
    scanEach U none blocks w = scanAll U blocks w := by
  induction blocks generalizing w with
  | nil => rfl
  | cons block blocks ih => exact ih _

/-- With a boundary `scan_block` stops at the first block that reaches it. -/
theorem scanEach_some (chain : Chain) (boundary n start : ℕ) (w : Wallet) :
    scanEach U (some boundary) ((List.range' start n).map chain.block) w =
      scanAll U ((List.range' start (min n (boundary - start))).map chain.block) w := by
  induction n generalizing start w with
  | zero => simp [scanEach, scanAll]
  | succ n ih =>
    rw [List.range'_succ, List.map_cons, scanEach, scanBlock]
    simp only [Option.any_some, chain.block_height, decide_eq_true_eq]
    by_cases hstop : boundary ≤ start
    · simp [hstop, scanAll]
    · have hsucc : min (n + 1) (boundary - start) = min n (boundary - (start + 1)) + 1 := by omega
      rw [if_neg hstop, hsucc, List.range'_succ, List.map_cons, scanAll, List.foldl_cons, ← scanAll]
      exact ih (start + 1) _

/-- Block by block, the blocks below the boundary are scanned. -/
theorem scanEach_eq (chain : Chain) (start stop : ℕ) (shutdownHeight : Option ℕ) (w : Wallet) :
    scanEach U shutdownHeight (chain.streamBlocks start stop) w =
      scanAll U (chain.scannable start stop shutdownHeight) w := by
  cases shutdownHeight with
  | none => exact scanEach_none _ w
  | some boundary =>
    rw [Chain.streamBlocks, scanEach_some, Chain.scannable, Chain.streamBlocks]
    have hlen : min (min stop (chain.tip + 1) - start) (boundary - start) =
        min ((Option.map (min · stop) (some boundary)).getD stop) (chain.tip + 1) - start := by
      simp only [Option.map_some, Option.getD_some]
      omega
    rw [hlen]

/-- In a batch, the same blocks are scanned. -/
theorem scanBlocks_eq (chain : Chain) (start stop : ℕ) (shutdownHeight : Option ℕ) (w : Wallet) :
    scanBlocks U chain start stop shutdownHeight w =
      putBlocks U w (scanBatch U w.index w.unspent (chain.scannable start stop shutdownHeight)) := by
  unfold scanBlocks Chain.scannable
  simp only
  generalize (shutdownHeight.map (min · stop)).getD stop = stop'
  split
  · have hnil : chain.streamBlocks start stop' = [] := by
      simp only [Chain.streamBlocks, List.map_eq_nil_iff, List.range'_eq_nil_iff]
      omega
    rw [hnil]
    rfl
  · split
    · rfl
    · have hnil : chain.streamBlocks start stop' = [] := by
        simp only [Chain.streamBlocks, List.map_eq_nil_iff, List.range'_eq_nil_iff]
        omega
      rw [hnil]
      rfl

/-- A batch finds what block-by-block scanning finds iff no block of the range pays an
    address that becomes a receiver through the blocks before it. -/
theorem batch_finds_iff (U : Upstream) (chain : Chain) (start stop : ℕ) (shutdownHeight : Option ℕ)
    (w : Wallet) :
    SameFinds (scanBlocks U chain start stop shutdownHeight w)
        (scanEach U shutdownHeight (chain.streamBlocks start stop) w) ↔
      ¬ Missed U (chain.scannable start stop shutdownHeight) w := by
  rw [scanBlocks_eq, scanEach_eq]
  have hagree := batch_agree (U := U) (chain.scannable start stop shutdownHeight) w.index
    ⟨rfl, rfl, rfl⟩ (Tracks.unspent w)
  rw [← outputs_eq_iff, ← scanAll_outputs, ← batch_outputs _ w.unspent]
  constructor
  · rintro ⟨-, houtputs, -⟩
    exact houtputs
  · intro houtputs
    exact ⟨hagree.notes, houtputs, hagree.spent, hagree.scanned⟩

/-! ## A payment beyond the gap -/

/-- The addresses of an account after one that received an output, up to a gap of
    two, without those that have an owner. -/
def afterGap (accounts : List AccountUuid) (receivers : Receivers)
    (outputs : List (TransparentOutput × Owner)) (account : AccountUuid) :
    List (TransparentAddress × Option TransparentKeyScope) :=
  (outputs.flatMap fun (o, owner) =>
    match o.address with
    | .PublicKeyHash hash =>
      if owner.1 = account then
        [(.PublicKeyHash (hash + 1), owner.2), (.PublicKeyHash (hash + 2), owner.2)]
      else []
    | .ScriptHash _ => []).filter fun (a, _) => transparentAddressIndex accounts receivers a = none

theorem filter_owned_append {accounts : List AccountUuid} {receivers new : Receivers}
    {address : TransparentAddress} (hnew : ∀ account, ∀ p ∈ new account, p.1 ≠ address) :
    (owned accounts fun account => new account ++ receivers account).filter (·.1 = address) =
      (owned accounts receivers).filter (·.1 = address) := by
  induction accounts with
  | nil => rfl
  | cons account accounts ih =>
    simp only [owned, List.flatMap_cons, List.map_append, List.filter_append] at ih ⊢
    rw [ih]
    have hnil : ((new account).map fun (a, scope) => (a, account, scope)).filter
        (·.1 = address) = [] := by
      rw [List.filter_eq_nil_iff]
      intro x hx
      obtain ⟨p, hp, rfl⟩ := List.mem_map.mp hx
      simpa using hnew account p hp
    rw [hnil, List.nil_append]

/-- Nothing is encrypted, and the account's addresses count up with a gap of two. -/
def gapOfTwo : Upstream where
  decrypt _ := none
  extend accounts receivers outputs account :=
    afterGap accounts receivers outputs account ++ receivers account
  extend_index accounts receivers outputs address owner h := by
    have hnew : ∀ account, ∀ p ∈ afterGap accounts receivers outputs account, p.1 ≠ address := by
      rintro account p hp rfl
      have hnone := (List.mem_filter.mp hp).2
      simp [h] at hnone
    rw [transparentAddressIndex, ← List.head?_filter, List.filter_reverse,
      filter_owned_append hnew, ← List.filter_reverse, List.head?_filter]
    exact h

/-- A wallet with two addresses, both within the gap. -/
def twoAddresses : Wallet where
  accounts := [1]
  receivers _ := [(.PublicKeyHash 0, some 0), (.PublicKeyHash 1, some 0)]
  notes := ∅
  outputs := ∅
  spent := ∅
  scanned := ∅

/-- The first block pays the second address, the second block the third. -/
def twoPayments : Chain where
  tip := 2
  block h := ⟨h, [], [⟨⟨BitVec.ofNat 256 h, 0⟩, .PublicKeyHash (BitVec.ofNat 160 h)⟩], []⟩
  block_height _ := rfl

/-- Block by block both payments are found, in a batch only the first. -/
theorem second_payment_missed :
    (scanEach gapOfTwo none (twoPayments.streamBlocks 1 3) twoAddresses).outputs.card = 2 ∧
      (scanBlocks gapOfTwo twoPayments 1 3 none twoAddresses).outputs.card = 1 ∧
      ¬ SameFinds (scanBlocks gapOfTwo twoPayments 1 3 none twoAddresses)
        (scanEach gapOfTwo none (twoPayments.streamBlocks 1 3) twoAddresses) := by
  have heach : (scanEach gapOfTwo none (twoPayments.streamBlocks 1 3) twoAddresses).outputs.card =
      2 := by decide +kernel
  have hbatch : (scanBlocks gapOfTwo twoPayments 1 3 none twoAddresses).outputs.card = 1 := by
    decide +kernel
  refine ⟨heach, hbatch, fun hsame => ?_⟩
  rw [hsame.2.1, heach] at hbatch
  cases hbatch

end Zallet.Sync.BatchScan
