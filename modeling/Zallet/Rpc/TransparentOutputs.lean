import Mathlib.Data.List.Perm.Basic
import Mathlib.Data.Multiset.AddSub
import Zallet.Chain.Types

/-!
# The transparent outputs of a built transaction

`check_transparent_outputs` of
`zallet-core/src/components/json_rpc/payments.rs`, lines 1195–1275.

The keys are those of `zcash_transparent`: `TransparentKeys` has the two
functions the check calls. `transparentOutputs_iff` states the verdict over the
multisets of outputs and payments, and that the order of either does not matter.
-/

namespace Zallet.Rpc

open Zallet.Chain

/-- The greatest number of zatoshis (`MAX_MONEY`). -/
def maxMoney : ℕ := 21000000 * 100000000

structure Zatoshis where
  value : ℕ
  le_max : value ≤ maxMoney
  deriving DecidableEq

instance neZeroTwoPow31 : NeZero (2 ^ 31) := ⟨by norm_num⟩

/-- `TransparentKeyScope`: the child index of the scope. -/
structure TransparentKeyScope where
  childIndex : Fin (2 ^ 31)
  deriving DecidableEq

structure NonHardenedChildIndex where
  index : Fin (2 ^ 31)
  deriving DecidableEq

/-- `TransparentAddressSource`. -/
inductive TransparentAddressSource
  | Derived (scope : TransparentKeyScope) (addressIndex : NonHardenedChildIndex)
  | Standalone (pubkey : List UInt8)
  deriving DecidableEq

/-- What the check calls on keys. -/
structure TransparentKeys (AccountPubKey PublicKey : Type) where
  deriveAddressPubkey :
    AccountPubKey → TransparentKeyScope → NonHardenedChildIndex → Option PublicKey
  fromPubkey : PublicKey → TransparentAddress

/-- `TransparentOutputError` (lines 1195–1214). -/
inductive TransparentOutputError (E : Type)
  | UnrecognizedScript (vout : ℕ)
  | UnknownAddress (addr : TransparentAddress)
  | NotDerived (addr : TransparentAddress)
  | DerivationMismatch (addr : TransparentAddress)
  | NoTransparentKey (addr : TransparentAddress)
  | MissingPayment (addr : TransparentAddress)
  | Lookup (e : E)

/-- `Vec::swap_remove`: the last element takes the place of the removed one. -/
def swapRemove {α : Type} (l : List α) (index : ℕ) : List α :=
  match l.getLast? with
  | none => []
  | some last => (l.set index last).dropLast

section

variable {AccountPubKey PublicKey E : Type} (keys : TransparentKeys AccountPubKey PublicKey)
  (accountPubkey : Option AccountPubKey)
  (addressSource : TransparentAddress → Except E (Option TransparentAddressSource))

/-- The check of an output that no payment vouches for (lines 1247–1267). -/
def checkDerived (addr : TransparentAddress) : Except (TransparentOutputError E) Unit :=
  match addressSource addr with
  | .error e => .error (.Lookup e)
  | .ok none => .error (.UnknownAddress addr)
  | .ok (some (.Derived scope addressIndex)) =>
    match accountPubkey with
    | none => .error (.NoTransparentKey addr)
    | some key =>
      match keys.deriveAddressPubkey key scope addressIndex with
      | none => .error (.DerivationMismatch addr)
      | some derived =>
        if keys.fromPubkey derived ≠ addr then .error (.DerivationMismatch addr) else .ok ()
  | .ok (some (.Standalone _)) => .error (.NotDerived addr)

/-- The loop of `check_transparent_outputs` (lines 1234–1268): the payments that
    are left when every output was checked. -/
def checkOutputs : ℕ → List (Option TransparentAddress × Zatoshis) →
    List (TransparentAddress × Zatoshis) →
    Except (TransparentOutputError E) (List (TransparentAddress × Zatoshis))
  | _, [], expectedPayments => .ok expectedPayments
  | vout, (none, _) :: _, _ => .error (.UnrecognizedScript vout)
  | vout, (some addr, value) :: rest, expectedPayments =>
    match expectedPayments.findIdx? fun expected => expected.1 = addr ∧ expected.2 = value with
    | some index => checkOutputs (vout + 1) rest (swapRemove expectedPayments index)
    | none =>
      match checkDerived keys accountPubkey addressSource addr with
      | .error e => .error e
      | .ok () => checkOutputs (vout + 1) rest expectedPayments

/-- `check_transparent_outputs` (lines 1228–1275). -/
def checkTransparentOutputs (outputs : List (Option TransparentAddress × Zatoshis))
    (expectedPayments : List (TransparentAddress × Zatoshis)) :
    Except (TransparentOutputError E) Unit :=
  match checkOutputs keys accountPubkey addressSource 0 outputs expectedPayments with
  | .error e => .error e
  | .ok [] => .ok ()
  | .ok ((addr, _) :: _) => .error (.MissingPayment addr)

/-- The wallet records a derivation for the address, and the account key derives
    the address there. -/
def Rederives (addr : TransparentAddress) : Prop :=
  ∃ scope addressIndex key derived,
    addressSource addr = .ok (some (.Derived scope addressIndex)) ∧ accountPubkey = some key ∧
      keys.deriveAddressPubkey key scope addressIndex = some derived ∧
      keys.fromPubkey derived = addr

/-- What the check is for: every output is recognised, the payments are among the
    outputs, and the account key derives every other output. -/
def Accounted (outputs : List (Option TransparentAddress × Zatoshis))
    (expectedPayments : List (TransparentAddress × Zatoshis)) : Prop :=
  ∃ pairs : List (TransparentAddress × Zatoshis),
    outputs = pairs.map (fun pair => (some pair.1, pair.2)) ∧
      (expectedPayments : Multiset (TransparentAddress × Zatoshis)) ≤ pairs ∧
      ∀ pair ∈ (pairs : Multiset (TransparentAddress × Zatoshis)) - expectedPayments,
        Rederives keys accountPubkey addressSource pair.1

end

/-! ## Consuming a payment -/

theorem coe_swapRemove {α : Type} [DecidableEq α] (l : List α) {index : ℕ}
    (h : index < l.length) :
    (swapRemove l index : Multiset α) = (l : Multiset α).erase l[index] := by
  have hperm : l.Perm (l[index] :: swapRemove l index) := by
    rcases List.eq_nil_or_concat' l with rfl | ⟨init, last, rfl⟩
    · simp at h
    have hremove : swapRemove (init ++ [last]) index = ((init ++ [last]).set index last).dropLast := by
      simp [swapRemove]
    rw [hremove]
    rcases Nat.lt_or_ge index init.length with hlt | hge
    · rw [List.set_append_left _ _ hlt, List.dropLast_concat, List.getElem_append_left hlt]
      have hset := List.set_perm_cons_eraseIdx hlt last
      have hget := (List.getElem_cons_eraseIdx_perm hlt).symm
      calc init ++ [last]
        List.Perm _ (last :: init) := List.perm_append_singleton _ _
        List.Perm _ (last :: init[index] :: init.eraseIdx index) := hget.cons _
        List.Perm _ (init[index] :: last :: init.eraseIdx index) := List.Perm.swap _ _ _
        List.Perm _ (init[index] :: init.set index last) := hset.symm.cons _
    · have hindex : index = init.length := by
        rw [List.length_append, List.length_singleton] at h
        omega
      subst hindex
      simp
  rw [Multiset.coe_eq_coe.mpr hperm, ← Multiset.cons_coe, Multiset.erase_cons_head]

variable {AccountPubKey PublicKey E : Type} {keys : TransparentKeys AccountPubKey PublicKey}
  {accountPubkey : Option AccountPubKey}
  {addressSource : TransparentAddress → Except E (Option TransparentAddressSource)}

theorem checkDerived_ok (addr : TransparentAddress) :
    checkDerived keys accountPubkey addressSource addr = .ok () ↔
      Rederives keys accountPubkey addressSource addr := by
  unfold checkDerived Rederives
  split
  · simp_all
  · simp_all
  · split
    · simp_all
    · split <;> simp_all
  · simp_all

/-- The index found is one of the payment itself. -/
theorem findIdx?_payment {expected : List (TransparentAddress × Zatoshis)}
    {addr : TransparentAddress} {value : Zatoshis} {index : ℕ}
    (h : expected.findIdx? (fun e => e.1 = addr ∧ e.2 = value) = some index) :
    ∃ hlt : index < expected.length, expected[index] = (addr, value) := by
  obtain ⟨hlt, heq, -⟩ := List.findIdx?_eq_some_iff_getElem.mp h
  rw [decide_eq_true_eq] at heq
  exact ⟨hlt, Prod.ext heq.1 heq.2⟩

theorem not_mem_of_findIdx?_payment {expected : List (TransparentAddress × Zatoshis)}
    {addr : TransparentAddress} {value : Zatoshis}
    (h : expected.findIdx? (fun e => e.1 = addr ∧ e.2 = value) = none) :
    (addr, value) ∉ expected := by
  intro hmem
  have hne := List.findIdx?_eq_none_iff.mp h _ hmem
  simp at hne

/-! ## The verdict -/

/-- An output that a payment vouches for consumes it. -/
theorem accounted_cons_of_mem {addr : TransparentAddress} {value : Zatoshis}
    {rest : List (Option TransparentAddress × Zatoshis)}
    {expected left : List (TransparentAddress × Zatoshis)} (hmem : (addr, value) ∈ expected)
    (hleft : (left : Multiset (TransparentAddress × Zatoshis)) =
      (expected : Multiset (TransparentAddress × Zatoshis)).erase (addr, value)) :
    Accounted keys accountPubkey addressSource ((some addr, value) :: rest) expected ↔
      Accounted keys accountPubkey addressSource rest left := by
  have hcons : (expected : Multiset (TransparentAddress × Zatoshis)) =
      (addr, value) ::ₘ (left : Multiset (TransparentAddress × Zatoshis)) := by
    rw [hleft, Multiset.cons_erase hmem]
  have hdiff (pairs : List (TransparentAddress × Zatoshis)) :
      (((addr, value) :: pairs : List _) : Multiset (TransparentAddress × Zatoshis)) - expected =
        pairs - left := by
    rw [hcons, ← Multiset.cons_coe, Multiset.sub_cons, Multiset.erase_cons_head]
  have hle (pairs : List (TransparentAddress × Zatoshis)) :
      (expected : Multiset (TransparentAddress × Zatoshis)) ≤ ((addr, value) :: pairs : List _) ↔
        (left : Multiset (TransparentAddress × Zatoshis)) ≤ pairs := by
    rw [hcons, ← Multiset.cons_coe, Multiset.cons_le_cons_iff]
  constructor
  · rintro ⟨pairs, hout, hsub, hder⟩
    obtain ⟨pair, pairs, rfl, hpair, hrest⟩ := List.map_eq_cons_iff.mp hout.symm
    obtain ⟨rfl, rfl⟩ : pair.1 = addr ∧ pair.2 = value := by simpa using hpair
    exact ⟨pairs, hrest.symm, (hle pairs).mp hsub, by rwa [hdiff] at hder⟩
  · rintro ⟨pairs, rfl, hsub, hder⟩
    exact ⟨(addr, value) :: pairs, rfl, (hle pairs).mpr hsub, by rwa [hdiff]⟩

/-- An output that no payment vouches for has to be derived. -/
theorem accounted_cons_of_notMem {addr : TransparentAddress} {value : Zatoshis}
    {rest : List (Option TransparentAddress × Zatoshis)}
    {expected : List (TransparentAddress × Zatoshis)} (hmem : (addr, value) ∉ expected) :
    Accounted keys accountPubkey addressSource ((some addr, value) :: rest) expected ↔
      Rederives keys accountPubkey addressSource addr ∧
        Accounted keys accountPubkey addressSource rest expected := by
  have hle (pairs : List (TransparentAddress × Zatoshis)) :
      (expected : Multiset (TransparentAddress × Zatoshis)) ≤ ((addr, value) :: pairs : List _) ↔
        (expected : Multiset (TransparentAddress × Zatoshis)) ≤ pairs := by
    rw [← Multiset.cons_coe, Multiset.le_cons_of_notMem (by simpa using hmem)]
  have hdiff (pairs : List (TransparentAddress × Zatoshis))
      (hsub : (expected : Multiset (TransparentAddress × Zatoshis)) ≤ pairs) :
      (((addr, value) :: pairs : List _) : Multiset (TransparentAddress × Zatoshis)) - expected =
        (addr, value) ::ₘ (pairs - expected) := by
    rw [← Multiset.cons_coe, Multiset.cons_sub_of_le _ hsub]
  constructor
  · rintro ⟨pairs, hout, hsub, hder⟩
    obtain ⟨pair, pairs, rfl, hpair, hrest⟩ := List.map_eq_cons_iff.mp hout.symm
    obtain ⟨rfl, rfl⟩ : pair.1 = addr ∧ pair.2 = value := by simpa using hpair
    have hsub := (hle pairs).mp hsub
    rw [hdiff pairs hsub, Multiset.forall_mem_cons] at hder
    exact ⟨hder.1, pairs, hrest.symm, hsub, hder.2⟩
  · rintro ⟨haddr, pairs, rfl, hsub, hder⟩
    refine ⟨(addr, value) :: pairs, rfl, (hle pairs).mpr hsub, ?_⟩
    rw [hdiff pairs hsub, Multiset.forall_mem_cons]
    exact ⟨haddr, hder⟩

theorem checkOutputs_ok (vout : ℕ) (outputs : List (Option TransparentAddress × Zatoshis))
    (expected : List (TransparentAddress × Zatoshis)) :
    checkOutputs keys accountPubkey addressSource vout outputs expected = .ok [] ↔
      Accounted keys accountPubkey addressSource outputs expected := by
  induction outputs generalizing vout expected with
  | nil =>
    rw [checkOutputs]
    constructor
    · intro h
      obtain rfl : expected = [] := Except.ok.inj h
      exact ⟨[], rfl, le_rfl, by simp⟩
    · rintro ⟨pairs, hout, hsub, -⟩
      obtain rfl : pairs = [] := List.map_eq_nil_iff.mp hout.symm
      have hnil : expected = [] := by simpa using hsub
      rw [hnil]
  | cons output rest ih =>
    obtain ⟨addr, value⟩ := output
    cases addr with
    | none =>
      rw [checkOutputs]
      constructor
      · intro h
        cases h
      · rintro ⟨pairs, hout, -⟩
        obtain ⟨pair, pairs, rfl, hpair, -⟩ := List.map_eq_cons_iff.mp hout.symm
        simp at hpair
    | some addr =>
      rw [checkOutputs]
      split
      · rename_i index hindex
        obtain ⟨hlt, hget⟩ := findIdx?_payment hindex
        have hmem : (addr, value) ∈ expected := hget ▸ List.getElem_mem hlt
        rw [ih, accounted_cons_of_mem hmem (by rw [coe_swapRemove expected hlt, hget])]
      · rename_i hindex
        rw [accounted_cons_of_notMem (not_mem_of_findIdx?_payment hindex), ← checkDerived_ok,
          ← ih (vout + 1)]
        split
        · rename_i e he
          simp [he]
        · rename_i hok
          simp [hok]

theorem checkTransparentOutputs_ok (outputs : List (Option TransparentAddress × Zatoshis))
    (expected : List (TransparentAddress × Zatoshis)) :
    checkTransparentOutputs keys accountPubkey addressSource outputs expected = .ok () ↔
      Accounted keys accountPubkey addressSource outputs expected := by
  rw [← checkOutputs_ok 0, checkTransparentOutputs]
  split
  · rename_i e he
    simp [he]
  · rename_i hok
    simp [hok]
  · rename_i hok
    simp [hok]

theorem pair_injective :
    Function.Injective (fun pair : TransparentAddress × Zatoshis => (some pair.1, pair.2)) := by
  intro a b hab
  simpa [Prod.ext_iff] using hab

theorem Accounted.perm {outputs outputs' : List (Option TransparentAddress × Zatoshis)}
    {expected expected' : List (TransparentAddress × Zatoshis)} (hout : outputs.Perm outputs')
    (hexp : expected.Perm expected')
    (h : Accounted keys accountPubkey addressSource outputs expected) :
    Accounted keys accountPubkey addressSource outputs' expected' := by
  obtain ⟨pairs, rfl, hsub, hder⟩ := h
  obtain ⟨pairs', rfl⟩ : outputs' ∈ Set.range
      (List.map fun pair : TransparentAddress × Zatoshis => (some pair.1, pair.2)) := by
    rw [Set.range_list_map]
    intro output hmem
    obtain ⟨pair, -, hpair⟩ := List.mem_map.mp (hout.mem_iff.mpr hmem)
    exact ⟨pair, hpair⟩
  have hperm : pairs.Perm pairs' := (List.map_perm_map_iff pair_injective).mp hout
  rw [Multiset.coe_eq_coe.mpr hperm, Multiset.coe_eq_coe.mpr hexp] at hsub hder
  exact ⟨pairs', rfl, hsub, hder⟩

/-- Outputs that the account key does not derive are as many as the payments that
    ask for them. -/
theorem Accounted.count_eq {outputs : List (Option TransparentAddress × Zatoshis)}
    {expected : List (TransparentAddress × Zatoshis)} {addr : TransparentAddress}
    {value : Zatoshis} (h : Accounted keys accountPubkey addressSource outputs expected)
    (hnot : ¬ Rederives keys accountPubkey addressSource addr) :
    Multiset.count (some addr, value) (outputs : Multiset (Option TransparentAddress × Zatoshis)) =
      Multiset.count (addr, value) (expected : Multiset (TransparentAddress × Zatoshis)) := by
  obtain ⟨pairs, rfl, hsub, hder⟩ := h
  rw [← Multiset.map_coe, Multiset.count_map_eq_count' _ _ pair_injective (addr, value)]
  have hle := Multiset.count_le_of_le (addr, value) hsub
  have hzero : Multiset.count (addr, value)
      ((pairs : Multiset (TransparentAddress × Zatoshis)) - expected) = 0 :=
    Multiset.count_eq_zero.mpr fun hmem => hnot (hder _ hmem)
  rw [Multiset.count_sub] at hzero
  omega

/-- The check accepts exactly the outputs that are accounted for, in any order of
    the outputs and of the payments; and outputs the account key does not derive
    are as many as the payments that ask for them. -/
theorem transparentOutputs_iff {AccountPubKey PublicKey E : Type}
    (keys : TransparentKeys AccountPubKey PublicKey) (accountPubkey : Option AccountPubKey)
    (addressSource : TransparentAddress → Except E (Option TransparentAddressSource))
    (outputs : List (Option TransparentAddress × Zatoshis))
    (expectedPayments : List (TransparentAddress × Zatoshis)) :
    (checkTransparentOutputs keys accountPubkey addressSource outputs expectedPayments = .ok () ↔
      ∃ pairs : List (TransparentAddress × Zatoshis),
        outputs = pairs.map (fun pair => (some pair.1, pair.2)) ∧
          (expectedPayments : Multiset (TransparentAddress × Zatoshis)) ≤ pairs ∧
          ∀ pair ∈ (pairs : Multiset (TransparentAddress × Zatoshis)) - expectedPayments,
            Rederives keys accountPubkey addressSource pair.1) ∧
      (∀ outputs' expectedPayments', outputs'.Perm outputs →
        expectedPayments'.Perm expectedPayments →
        (checkTransparentOutputs keys accountPubkey addressSource outputs' expectedPayments' = .ok ()
          ↔ checkTransparentOutputs keys accountPubkey addressSource outputs expectedPayments
            = .ok ())) ∧
      (checkTransparentOutputs keys accountPubkey addressSource outputs expectedPayments = .ok () →
        ∀ addr value, ¬ Rederives keys accountPubkey addressSource addr →
          Multiset.count (some addr, value)
              (outputs : Multiset (Option TransparentAddress × Zatoshis)) =
            Multiset.count (addr, value)
              (expectedPayments : Multiset (TransparentAddress × Zatoshis))) := by
  refine ⟨checkTransparentOutputs_ok outputs expectedPayments, ?_, ?_⟩
  · intro outputs' expectedPayments' hout hexp
    rw [checkTransparentOutputs_ok, checkTransparentOutputs_ok]
    exact ⟨Accounted.perm hout hexp, Accounted.perm hout.symm hexp.symm⟩
  · intro hok addr value hnot
    exact ((checkTransparentOutputs_ok _ _).mp hok).count_eq hnot

end Zallet.Rpc
