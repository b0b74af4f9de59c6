import Zallet.Sync.BatchScan
import Zallet.Sync.Steps

/-!
# The scanners as programs (`sync/steps.rs`)

`BatchScan.scanBlocks` and `BatchScan.scanEach` are what the programs
`Sync.scanBlocks` and `Sync.scanBlock` (block by block) do to the wallet where the
chain serves every block up to its tip and the decryptor answers
(`run_scanBlocks`, `run_scanInOrder`). `Coding` says how the encodings that the
programs hand from one upstream function to another are read; every chain has one
(`Coding.exists_chain`).
-/

namespace Zallet.Sync.BatchScan

open Zallet.Effect Zallet.Chain Zallet.Wallet

variable {U : Upstream}

/-- The blocks of a chain as they are served, and what the encodings of the wallet
    crates stand for. -/
structure Coding (U : Upstream) where
  upstream : Zallet.Wallet.Upstream
  chain : Chain
  /-- The block that is served at a height. -/
  served : ℕ → Zallet.Chain.Block
  state : ℕ → ChainState
  keys : ScanningKeys
  decrypted : Zallet.Chain.Block → List DecryptedTx
  block : Zallet.Chain.Block → Block
  scanned : ScannedBlock → Scanned
  encode : Finset Nullifier → Nullifiers
  nullifiers : Nullifiers → Finset Nullifier
  block_served : ∀ height, block (served height) = chain.block height
  block_height : ∀ b, (block b).height = b.claimedHeight
  nullifiers_encode : ∀ s, nullifiers (encode s) = s
  scanBlock_eq : ∀ b n prior addresses, ∃ s,
    upstream.scanBlock b.claimedHeight b.header (decrypted b) keys n prior addresses = .ok s ∧
      scanned s = fullScanBlock U (block b) (nullifiers n) addresses
  updateWith_eq : ∀ n s,
    nullifiers (upstream.updateWith n s) = updateWith (nullifiers n) (scanned s)

namespace Coding

variable (D : Coding U)

/-- The operations of the scanners, which all succeed. -/
def answer : Handler syncSig Wallet
  | .chain (.treeStateAsOf _ height), w =>
    some (.ok (if height ≤ D.chain.tip then some (D.state height) else none), w)
  | .chain (.tip view), w => some (.ok view.tip, w)
  | .chain (.streamBlocks _ range), w =>
    some (.ok ⟨(List.range' range.start (min range.stop (D.chain.tip + 1) - range.start)).map
      D.served, none⟩, w)
  | .queueBlock b, w => some (some ⟨b⟩, w)
  | .awaitBlock reply, w =>
    some (some ⟨D.keys, reply.block.header, D.decrypted reply.block⟩, w)
  | .db .unspentNullifiers, w => some (.ok (D.encode w.unspent), w)
  | .db .getAccountIds, w => some (.ok w.accounts, w)
  | .db (.getTransparentReceivers account _ _), w =>
    some (.ok ((w.receivers account).map fun (a, scope) => (a, ⟨scope⟩)), w)
  | .db (.putBlocks _ blocks), w => some (.ok (), putBlocks U w (blocks.map D.scanned))
  | _, _ => none

def contract : Contract syncSig Wallet := fun o w r w' => D.answer o w = some (r, w')

def Answered (o : SyncOp) (w : Wallet) : Prop := ∃ r w', D.contract o w r w'

variable {D} {w w' : Wallet}

theorem contract_unique {o : SyncOp} {r r' : o.Ret} {w₁ w₂ : Wallet}
    (h : D.contract o w r w₁) (h' : D.contract o w r' w₂) : r = r' ∧ w₁ = w₂ :=
  Prod.mk.inj (Option.some.inj (h.symm.trans h'))

theorem wpE_perform_answer {o : SyncOp} {r : o.Ret} {Q : Except SyncError o.Ret → Wallet → Prop}
    (h : D.contract o w r w') (hQ : Q (.ok r) w') :
    wpE D.contract Eq D.Answered Q (perform o) w := by
  rw [wpE_perform]
  rintro w₁ rfl
  refine ⟨⟨r, w', h⟩, fun r₂ w₂ h₂ => ?_⟩
  obtain ⟨rfl, rfl⟩ := contract_unique h h₂
  exact hQ

theorem wpE_chain_answer {o : ChainOp} {a : o.Out} {Q : Except SyncError o.Out → Wallet → Prop}
    (h : D.contract (.chain o) w (.ok a) w') (hQ : Q (.ok a) w') :
    wpE D.contract Eq D.Answered Q (Sync.chain o) w := by
  rw [wpE_chain]
  rintro w₁ rfl
  refine ⟨⟨_, w', h⟩, fun r₂ w₂ h₂ => ?_⟩
  obtain ⟨rfl, rfl⟩ := contract_unique h h₂
  exact hQ

theorem wpE_db_answer {o : DbOp} {a : o.Out} {Q : Except SyncError o.Out → Wallet → Prop}
    (h : D.contract (.db o) w (.ok a) w') (hQ : Q (.ok a) w') :
    wpE D.contract Eq D.Answered Q (db o) w := by
  rw [wpE_db]
  rintro w₁ rfl
  refine ⟨⟨_, w', h⟩, fun r₂ w₂ h₂ => ?_⟩
  obtain ⟨rfl, rfl⟩ := contract_unique h h₂
  exact hQ

/-! ## The address index -/

def insertOwner (index : TransparentAddressIndex) (p : TransparentAddress × Owner) :
    TransparentAddressIndex :=
  Function.update index p.1 (some p.2)

/-- Inserting one by one, the last entry of an address wins. -/
theorem foldl_insertOwner (l : List (TransparentAddress × Owner)) (index : TransparentAddressIndex) :
    l.foldl insertOwner index =
      fun a => ((l.reverse.find? (·.1 = a)).map (·.2)).or (index a) := by
  induction l using List.reverseRecOn with
  | nil => rfl
  | append_singleton l p ih =>
    funext a
    rw [List.foldl_append, ih, List.reverse_append]
    simp only [List.foldl_cons, List.foldl_nil, List.reverse_cons, List.reverse_nil,
      List.nil_append, List.singleton_append, List.find?_cons, insertOwner, Function.update_apply]
    by_cases ha : a = p.1
    · simp [ha]
    · have hne : p.1 ≠ a := fun h => ha h.symm
      simp [ha, hne]

theorem insertReceivers_eq (account : AccountUuid)
    (receivers : List (TransparentAddress × Option TransparentKeyScope))
    (index : TransparentAddressIndex) :
    insertReceivers account (receivers.map fun (a, scope) => (a, ⟨scope⟩)) index =
      (receivers.map fun (a, scope) => (a, account, scope)).foldl insertOwner index := by
  rw [insertReceivers, List.foldl_map, List.foldl_map]
  rfl

theorem wpE_indexAccounts (accounts : List AccountUuid) (index : TransparentAddressIndex)
    {Q : Except SyncError TransparentAddressIndex → Wallet → Prop}
    (hQ : Q (.ok ((owned accounts w.receivers).foldl insertOwner index)) w) :
    wpE D.contract Eq D.Answered Q (indexAccounts accounts index) w := by
  induction accounts generalizing index with
  | nil => exact hQ
  | cons account rest ih =>
    rw [indexAccounts, wpE_bind]
    refine wpE_db_answer rfl ?_
    rw [andThen_ok, insertReceivers_eq]
    apply ih
    rw [owned, List.flatMap_cons, List.foldl_append] at hQ
    exact hQ

theorem wpE_transparentAddressIndex
    {Q : Except SyncError TransparentAddressIndex → Wallet → Prop} (hQ : Q (.ok w.index) w) :
    wpE D.contract Eq D.Answered Q Sync.transparentAddressIndex w := by
  rw [Sync.transparentAddressIndex, wpE_bind]
  refine wpE_db_answer rfl ?_
  apply wpE_indexAccounts
  rw [foldl_insertOwner]
  have hindex : w.index = fun a =>
      (((owned w.accounts w.receivers).reverse.find? (·.1 = a)).map (·.2)).or none := by
    funext a
    rw [Option.or_none]
    rfl
  rw [← hindex]
  exact hQ

/-! ## Scanning -/

theorem wpE_queueBlocks (blocks : List Zallet.Chain.Block)
    {Q : Except SyncError (List (ℕ × BlockReply)) → Wallet → Prop}
    (hQ : Q (.ok (blocks.map fun b => (b.claimedHeight, ⟨b⟩))) w) :
    wpE D.contract Eq D.Answered Q (queueBlocks blocks) w := by
  induction blocks generalizing Q with
  | nil => exact hQ
  | cons b rest ih =>
    rw [queueBlocks, wpE_bind]
    refine wpE_perform_answer rfl ?_
    show wpE D.contract Eq D.Answered Q (queueBlocks rest >>= _) w
    rw [wpE_bind]
    apply ih
    exact hQ

theorem wpE_scanReply (b : Zallet.Chain.Block) (n : Nullifiers) (prior : Option BlockMetadata)
    (addresses : TransparentAddressIndex) {Q : Except SyncError ScannedBlock → Wallet → Prop}
    (hQ : ∀ s, D.scanned s = fullScanBlock U (D.block b) (D.nullifiers n) addresses →
      Q (.ok s) w) :
    wpE D.contract Eq D.Answered Q
      (scanReply D.upstream b.claimedHeight ⟨b⟩ n prior addresses) w := by
  obtain ⟨s, hs, hscanned⟩ := D.scanBlock_eq b n prior addresses
  rw [scanReply, wpE_bind]
  refine wpE_perform_answer rfl ?_
  rw [andThen_ok, wpE_bind]
  show Q ((D.upstream.scanBlock b.claimedHeight b.header (D.decrypted b) D.keys n prior
    addresses).mapError scanBlockError) w
  rw [hs]
  exact hQ s hscanned

theorem wpE_scanBatch (blocks : List Zallet.Chain.Block) (addresses : TransparentAddressIndex)
    (n : Nullifiers) (prior : Option BlockMetadata)
    {Q : Except SyncError (List ScannedBlock) → Wallet → Prop}
    (hQ : ∀ scanned : List ScannedBlock,
      scanned.map D.scanned = scanBatch U addresses (D.nullifiers n) (blocks.map D.block) →
      Q (.ok scanned) w) :
    wpE D.contract Eq D.Answered Q
      (Sync.scanBatch D.upstream addresses (blocks.map fun b => (b.claimedHeight, ⟨b⟩)) n prior)
      w := by
  induction blocks generalizing n prior Q with
  | nil => exact hQ [] rfl
  | cons b rest ih =>
    rw [List.map_cons, Sync.scanBatch, wpE_bind]
    apply wpE_scanReply
    intro s hs
    rw [andThen_ok, wpE_bind]
    apply ih
    intro more hmore
    apply hQ (s :: more)
    rw [List.map_cons, List.map_cons, scanBatch, hmore, D.updateWith_eq, hs]

theorem map_block_served (start n : ℕ) :
    ((List.range' start n).map D.served).map D.block =
      (List.range' start n).map D.chain.block := by
  rw [List.map_map]
  exact List.map_congr_left fun height _ => D.block_served height

theorem wpE_scanFrom (view : ChainView) (range : HeightRange) (fromState : ChainState)
    {Q : Except SyncError Unit → Wallet → Prop}
    (hQ : Q (.ok ()) (putBlocks U w
      (scanBatch U w.index w.unspent (D.chain.streamBlocks range.start range.stop)))) :
    wpE D.contract Eq D.Answered Q (scanFrom D.upstream view range fromState) w := by
  rw [scanFrom, wpE_bind]
  refine wpE_chain_answer rfl ?_
  rw [andThen_ok, wpE_bind]
  apply wpE_queueBlocks
  rw [andThen_ok, wpE_bind]
  show wpE D.contract Eq D.Answered Q (db .unspentNullifiers >>= _) w
  rw [wpE_bind]
  refine wpE_db_answer rfl ?_
  rw [andThen_ok, wpE_bind]
  apply wpE_transparentAddressIndex
  rw [andThen_ok, wpE_bind]
  apply wpE_scanBatch
  intro scanned hscanned
  rw [map_block_served, D.nullifiers_encode] at hscanned
  rw [andThen_ok]
  refine wpE_db_answer rfl ?_
  rw [hscanned]
  exact hQ

/-- Where the scan of a range stops, and whether it stops at the boundary. -/
theorem clampToBoundary_eq (range : HeightRange) (shutdownHeight : Option ℕ) :
    ∃ stop, (shutdownHeight.map (min · range.stop)).getD range.stop = stop ∧
      (stop ≤ range.start ∧ clampToBoundary range shutdownHeight = .Break stop ∨
        ∃ boundary, range.start < stop ∧
          clampToBoundary range shutdownHeight = .Continue boundary ∧
          (boundary.elim range fun stop => ⟨range.start, stop⟩) = ⟨range.start, stop⟩) := by
  have hstop : (shutdownHeight.map (min · range.stop)).getD range.stop =
      shutdownHeight.elim range.stop fun h => min h range.stop := by
    cases shutdownHeight with
    | none => rfl
    | some h => rfl
  refine ⟨_, rfl, ?_⟩
  rw [hstop]
  have hle : (shutdownHeight.elim range.stop fun h => min h range.stop) ≤ range.stop := by
    cases shutdownHeight with
    | none => exact le_rfl
    | some h => exact Nat.min_le_right _ _
  unfold clampToBoundary
  generalize (shutdownHeight.elim range.stop fun h => min h range.stop) = stop at hle
  by_cases hempty : stop ≤ range.start
  · exact Or.inl ⟨hempty, if_pos hempty⟩
  · by_cases hcut : stop < range.stop
    · exact Or.inr ⟨some stop, by omega, by simp [hempty, hcut], rfl⟩
    · refine Or.inr ⟨none, by omega, by simp [hempty, hcut], ?_⟩
      rw [show stop = range.stop by omega]
      rfl

theorem wpE_scanBlocks (view : ChainView) (scanRange : ScanRange) (shutdownHeight : Option ℕ) :
    wpE D.contract Eq D.Answered
      (fun r w' => (∃ flow, r = .ok flow) ∧ w' = scanBlocks U D.chain scanRange.blockRange.start
        scanRange.blockRange.stop shutdownHeight w)
      (Sync.scanBlocks D.upstream view scanRange shutdownHeight) w := by
  obtain ⟨stop, hstop, hclamp⟩ := clampToBoundary_eq scanRange.blockRange shutdownHeight
  unfold Sync.scanBlocks scanBlocks
  rw [hstop]
  rcases hclamp with ⟨hempty, hbreak⟩ | ⟨boundary, hrange, hcontinue, hcut⟩
  · rw [hbreak, if_pos hempty]
    exact ⟨⟨_, rfl⟩, rfl⟩
  · rw [hcontinue, if_neg (by omega : ¬ stop ≤ scanRange.blockRange.start)]
    dsimp only
    rw [hcut, wpE_bind]
    refine wpE_chain_answer rfl ?_
    rw [andThen_ok]
    by_cases htip : scanRange.blockRange.start - 1 ≤ D.chain.tip
    · rw [if_pos htip, if_pos htip, wpE_bind]
      apply wpE_scanFrom
      exact ⟨⟨_, rfl⟩, rfl⟩
    · rw [if_neg htip, if_neg htip, wpE_bind]
      refine wpE_chain_answer rfl ?_
      exact ⟨⟨_, rfl⟩, rfl⟩

/-- `scan_block` goes on exactly if the block is scanned. -/
theorem wpE_scanBlock (view : ChainView) (b : Zallet.Chain.Block) (shutdownHeight : Option ℕ)
    (hb : b.claimedHeight - 1 ≤ D.chain.tip) {Q : Except SyncError (ControlFlow ℕ Unit) → Wallet → Prop}
    (hstop : scanBlock U (D.block b) shutdownHeight w = none → Q (.ok (.Break b.claimedHeight)) w)
    (hscan : ∀ w', scanBlock U (D.block b) shutdownHeight w = some w' → Q (.ok (.Continue ())) w') :
    wpE D.contract Eq D.Answered Q (Sync.scanBlock D.upstream view b shutdownHeight) w := by
  unfold Sync.scanBlock
  unfold scanBlock at hstop hscan
  rw [D.block_height] at hstop hscan
  dsimp only
  by_cases hreached : (shutdownHeight.any fun h => decide (h ≤ b.claimedHeight)) = true
  · rw [if_pos hreached]
    exact hstop (if_pos hreached)
  · rw [if_neg hreached, wpE_bind]
    refine wpE_chain_answer rfl ?_
    rw [andThen_ok, if_pos hb, wpE_bind]
    show wpE D.contract Eq D.Answered _ (perform (.queueBlock b) >>= _) w
    rw [wpE_bind]
    refine wpE_perform_answer rfl ?_
    rw [andThen_ok, wpE_bind]
    show wpE D.contract Eq D.Answered _ (db .unspentNullifiers >>= _) w
    rw [wpE_bind]
    refine wpE_db_answer rfl ?_
    rw [andThen_ok, wpE_bind]
    apply wpE_transparentAddressIndex
    rw [andThen_ok, wpE_bind]
    apply wpE_scanReply
    intro s hs
    rw [andThen_ok, wpE_bind]
    refine wpE_db_answer rfl ?_
    rw [D.nullifiers_encode] at hs
    rw [List.map_singleton, hs]
    exact hscan _ (if_neg hreached)

/-- `scan_block` on each block in order, until it stops. -/
def scanInOrder (D : Coding U) (view : ChainView) (shutdownHeight : Option ℕ) :
    List Zallet.Chain.Block → SyncM Unit
  | [] => pure ()
  | b :: rest => do
    match ← Sync.scanBlock D.upstream view b shutdownHeight with
    | .Break _ => pure ()
    | .Continue _ => scanInOrder D view shutdownHeight rest

theorem wpE_scanInOrder (view : ChainView) (blocks : List Zallet.Chain.Block)
    (shutdownHeight : Option ℕ) (hblocks : ∀ b ∈ blocks, b.claimedHeight - 1 ≤ D.chain.tip) :
    wpE D.contract Eq D.Answered
      (fun r w' => r = .ok () ∧ w' = scanEach U shutdownHeight (blocks.map D.block) w)
      (scanInOrder D view shutdownHeight blocks) w := by
  induction blocks generalizing w with
  | nil => exact ⟨rfl, rfl⟩
  | cons b rest ih =>
    obtain ⟨hb, hrest⟩ := List.forall_mem_cons.mp hblocks
    rw [scanInOrder, wpE_bind, List.map_cons, scanEach]
    refine wpE_scanBlock view b shutdownHeight hb (fun hstop => ?_) fun w' hscan => ?_
    · rw [hstop]
      exact ⟨rfl, rfl⟩
    · rw [hscan]
      exact ih hrest

/-! ## The runs -/

/-- `scan_blocks` has a run, and every run leaves the wallet that
    `BatchScan.scanBlocks` computes. -/
theorem run_scanBlocks (D : Coding U) (view : ChainView) (scanRange : ScanRange)
    (shutdownHeight : Option ℕ) (w : Wallet) :
    (∃ τ r w', Run D.contract (Sync.scanBlocks D.upstream view scanRange shutdownHeight).run
      w τ r w') ∧
    ∀ τ r w', Run D.contract (Sync.scanBlocks D.upstream view scanRange shutdownHeight).run
        w τ r w' →
      (∃ flow, r = .ok flow) ∧ w' = scanBlocks U D.chain scanRange.blockRange.start
        scanRange.blockRange.stop shutdownHeight w := by
  have hwp := wpE_scanBlocks (D := D) (w := w) view scanRange shutdownHeight
  refine ⟨wp_total hwp fun o w h => h, fun τ r w' hrun => ?_⟩
  have hres := wp_run hwp hrun
  exact hres

/-- So has `scan_block` on the blocks of a range, one by one, with `BatchScan.scanEach`. -/
theorem run_scanInOrder (D : Coding U) (view : ChainView) (start stop : ℕ)
    (shutdownHeight : Option ℕ) (w : Wallet) :
    let blocks := (List.range' start (min stop (D.chain.tip + 1) - start)).map D.served
    (∃ τ r w', Run D.contract (scanInOrder D view shutdownHeight blocks).run w τ r w') ∧
    ∀ τ r w', Run D.contract (scanInOrder D view shutdownHeight blocks).run w τ r w' →
      r = .ok () ∧ w' = scanEach U shutdownHeight (D.chain.streamBlocks start stop) w := by
  intro blocks
  have hmap : blocks.map D.block = D.chain.streamBlocks start stop := map_block_served _ _
  have hblocks : ∀ b ∈ blocks, b.claimedHeight - 1 ≤ D.chain.tip := by
    intro b hb
    obtain ⟨height, hheight, rfl⟩ := List.mem_map.mp hb
    have hserved : (D.served height).claimedHeight = height := by
      rw [← D.block_height, D.block_served, D.chain.block_height]
    obtain ⟨i, hi, rfl⟩ := List.mem_range'.mp hheight
    omega
  have hwp := wpE_scanInOrder (D := D) (w := w) view blocks shutdownHeight hblocks
  rw [hmap] at hwp
  refine ⟨wp_total hwp fun o w h => h, fun τ r w' hrun => ?_⟩
  have hres := wp_run hwp hrun
  exact hres

end Coding

/-! ## Every chain can be served -/

deriving instance Countable for Zallet.Chain.OutPoint, Zallet.Chain.TransparentAddress,
  ShieldedOutput, TransparentOutput, Block, Scanned

/-- An encoding of a type by bytes. -/
structure Bytes (α : Type) where
  encode : α → List UInt8
  decode : List UInt8 → α
  decode_encode : ∀ a, decode (encode a) = a

theorem Bytes.nonempty (α : Type) [Countable α] [Nonempty α] : Nonempty (Bytes α) := by
  obtain ⟨f, hf⟩ := exists_injective_nat α
  refine ⟨⟨fun a => List.replicate (f a) 0, fun l => Function.invFun f l.length, fun a => ?_⟩⟩
  show Function.invFun f (List.replicate (f a) 0).length = a
  rw [List.length_replicate]
  exact Function.leftInverse_invFun hf a

namespace Coding

/-- A block of a chain that carries its encoding as a transaction. -/
def ofBytes (U : Upstream) (chain : Chain) (B : Bytes Block) (S : Bytes Scanned)
    (N : Bytes (Finset Nullifier)) : Coding U where
  upstream := { Zallet.Wallet.Upstream.watchNothing with
    scanBlock := fun height header vtx _ n _ addresses =>
      .ok ⟨height, header.hash, S.encode (fullScanBlock U
        { B.decode (vtx.flatMap (·.encoding)) with height := height } (N.decode n.encoding)
        addresses)⟩
    updateWith := fun n s => ⟨N.encode (updateWith (N.decode n.encoding) (S.decode s.contents))⟩
    scanBlock_ok := by
      intro height header vtx keys n prior addresses s hs
      obtain rfl := Except.ok.inj hs
      exact ⟨rfl, rfl⟩ }
  chain := chain
  served height := ⟨height, ⟨0⟩, [⟨B.encode (chain.block height)⟩]⟩
  state height := ⟨height, 0, ⟨[], 0⟩, ⟨[], 0⟩, ⟨[], 0⟩⟩
  keys := ⟨[]⟩
  decrypted b := b.vtx.map fun tx => ⟨tx.raw⟩
  block b := { B.decode (b.vtx.flatMap (·.raw)) with height := b.claimedHeight }
  scanned s := S.decode s.contents
  encode s := ⟨N.encode s⟩
  nullifiers n := N.decode n.encoding
  block_served height := by
    simp only [List.flatMap_cons, List.flatMap_nil, List.append_nil, B.decode_encode]
    have hheight := chain.block_height height
    generalize chain.block height = block at hheight
    rw [← hheight]
  block_height b := rfl
  nullifiers_encode s := N.decode_encode s
  scanBlock_eq b n prior addresses := by
    refine ⟨_, rfl, ?_⟩
    simp only [S.decode_encode, List.flatMap_map]
  updateWith_eq n s := N.decode_encode _

theorem exists_chain (U : Upstream) (chain : Chain) : ∃ D : Coding U, D.chain = chain := by
  have hblock : Nonempty Block := ⟨⟨0, [], [], []⟩⟩
  have hscanned : Nonempty Scanned := ⟨⟨0, [], [], []⟩⟩
  obtain ⟨B⟩ := Bytes.nonempty Block
  obtain ⟨S⟩ := Bytes.nonempty Scanned
  obtain ⟨N⟩ := Bytes.nonempty (Finset Nullifier)
  exact ⟨ofBytes U chain B S N, rfl⟩

end Coding

end Zallet.Sync.BatchScan
