import Bundler.DataModel

/-!
Choosing the signer of a bundle transaction. The scan looks at the remembered
transactions one by one and takes the signer of the first that is not
pending, so the signer it hands out is idle only if none of that signer's
other transactions is pending.
-/
namespace Bundler.ReadySigners

open KeyedRecords DataModel

variable {Receipt Error : Type}

/-- A transaction without a receipt is pending; one whose receipt cannot be
read is taken not to be. -/
def isTransactionPending (getTransactionReceipt : String → Except Error (Option Receipt))
    (txHash : String) : Bool :=
  match getTransactionReceipt txHash with
  | .ok receipt => receipt.isNone
  | .error _ => false

def getReadySigner (getTransactionReceipt : String → Except Error (Option Receipt))
    (bundleTxs : BundleTxs) : ℤ :=
  if bundleTxs.values = [] then 0
  else
    let pendingStatuses := bundleTxs.values.map fun tx =>
      (tx.signerIndex, isTransactionPending getTransactionReceipt tx.txHash)
    match pendingStatuses.find? (fun status => !status.2) with
    | some availableSigner => availableSigner.1
    | none => -1

section Scan

variable (getTransactionReceipt : String → Except Error (Option Receipt)) (bundleTxs : BundleTxs)

/-- The transactions of a record whose receipt is still missing. -/
def Pending (tx : PendingTxDetails) : Prop :=
  isTransactionPending getTransactionReceipt tx.txHash = true

/-- The transaction is the first of the record that is not pending, with
before and after standing around it. -/
structure FirstNotPending (before : List PendingTxDetails) (tx : PendingTxDetails)
    (after : List PendingTxDetails) : Prop where
  values : bundleTxs.values = before ++ tx :: after
  before : ∀ t ∈ before, Pending getTransactionReceipt t
  notPending : ¬Pending getTransactionReceipt tx

/-- Either everything in the record is pending, or the record splits at the
first transaction that is not. -/
theorem pending_or_firstNotPending :
    (∀ tx ∈ bundleTxs.values, Pending getTransactionReceipt tx) ∨
      ∃ before tx after, FirstNotPending getTransactionReceipt bundleTxs before tx after := by
  by_cases h : ∀ tx ∈ bundleTxs.values, Pending getTransactionReceipt tx
  · exact .inl h
  · have hfound : (bundleTxs.values.find? fun tx =>
        !isTransactionPending getTransactionReceipt tx.txHash).isSome := by
      rw [List.find?_isSome]
      simpa [Pending] using h
    obtain ⟨tx, htx⟩ := Option.isSome_iff_exists.mp hfound
    obtain ⟨hnot, before, after, hvalues, hbefore⟩ := List.find?_eq_some_iff_append.mp htx
    refine .inr ⟨before, tx, after, hvalues, ?_, ?_⟩
    · intro t ht
      simpa [Pending] using hbefore t ht
    · simpa [Pending] using hnot

variable {getTransactionReceipt bundleTxs}

/-- The scan for a signer is one of the transactions themselves. -/
theorem getReadySigner_of_ne (hne : bundleTxs.values ≠ []) :
    getReadySigner getTransactionReceipt bundleTxs =
      ((bundleTxs.values.find? fun tx =>
        !isTransactionPending getTransactionReceipt tx.txHash).map
          fun tx => (tx.signerIndex : ℤ)).getD (-1) := by
  unfold getReadySigner
  rw [if_neg hne]
  dsimp only
  rw [List.find?_map]
  unfold Function.comp
  cases bundleTxs.values.find? fun tx =>
      !isTransactionPending getTransactionReceipt tx.txHash with
  | none => rfl
  | some tx => rfl

theorem getReadySigner_of_pending (hne : bundleTxs.values ≠ [])
    (h : ∀ tx ∈ bundleTxs.values, Pending getTransactionReceipt tx) :
    getReadySigner getTransactionReceipt bundleTxs = -1 := by
  have hnone : bundleTxs.values.find? (fun tx =>
      !isTransactionPending getTransactionReceipt tx.txHash) = none := by
    rw [List.find?_eq_none]
    intro tx htx
    simpa [Pending] using h tx htx
  rw [getReadySigner_of_ne hne, hnone]
  rfl

theorem FirstNotPending.getReadySigner {before after : List PendingTxDetails}
    {tx : PendingTxDetails} (h : FirstNotPending getTransactionReceipt bundleTxs before tx after) :
    getReadySigner getTransactionReceipt bundleTxs = tx.signerIndex := by
  have hne : bundleTxs.values ≠ [] := by simp [h.values]
  have hfound : bundleTxs.values.find? (fun tx =>
      !isTransactionPending getTransactionReceipt tx.txHash) = some tx := by
    rw [List.find?_eq_some_iff_append]
    refine ⟨by simpa [Pending] using h.notPending, before, after, h.values, ?_⟩
    intro t ht
    simpa [Pending] using h.before t ht
  rw [getReadySigner_of_ne hne, hfound]
  rfl

end Scan

section Idle

variable (getTransactionReceipt : String → Except Error (Option Receipt)) (bundleTxs : BundleTxs)

/-- No remembered transaction of the signer is pending. -/
def Idle (signerIndex : ℕ) : Prop :=
  ∀ tx ∈ bundleTxs.values, tx.signerIndex = signerIndex → ¬Pending getTransactionReceipt tx

/-- A signer that is handed out is idle, and none is only if each signer that
occurs has a pending transaction. -/
def ReadySignerIdle : Prop :=
  (∀ i : ℕ, getReadySigner getTransactionReceipt bundleTxs = i →
    Idle getTransactionReceipt bundleTxs i) ∧
  (getReadySigner getTransactionReceipt bundleTxs = -1 →
    ∀ tx ∈ bundleTxs.values, ∃ t ∈ bundleTxs.values,
      t.signerIndex = tx.signerIndex ∧ Pending getTransactionReceipt t)

/-- The signer handed out is idle just if the signer of the first transaction
that is not pending has no pending one, earlier or later in the record. -/
theorem ready_signer_idle_iff :
    ReadySignerIdle getTransactionReceipt bundleTxs ↔
      ∀ before tx after, FirstNotPending getTransactionReceipt bundleTxs before tx after →
        ∀ t ∈ before ++ after, t.signerIndex = tx.signerIndex →
          ¬Pending getTransactionReceipt t := by
  constructor
  · intro hidle before tx after hfirst t ht hsigner
    have hmem : t ∈ bundleTxs.values := by
      rw [hfirst.values]
      simp at ht ⊢
      tauto
    exact hidle.1 tx.signerIndex hfirst.getReadySigner t hmem hsigner
  · intro h
    constructor
    · intro i hready t ht hsigner
      rcases pending_or_firstNotPending getTransactionReceipt bundleTxs with
        hall | ⟨before, tx, after, hfirst⟩
      · have hne : bundleTxs.values ≠ [] := List.ne_nil_of_mem ht
        rw [getReadySigner_of_pending hne hall] at hready
        omega
      · have hi : tx.signerIndex = i := by
          have := hfirst.getReadySigner
          omega
        rw [hfirst.values] at ht
        by_cases htx : t = tx
        · rw [htx]
          exact hfirst.notPending
        · exact h before tx after hfirst t (by simp at ht ⊢; tauto) (by omega)
    · intro hready tx htx
      rcases pending_or_firstNotPending getTransactionReceipt bundleTxs with
        hall | ⟨before, first, after, hfirst⟩
      · exact ⟨tx, htx, rfl, hall tx htx⟩
      · have := hfirst.getReadySigner
        omega

/-- One signer has sent two transactions, and only the first is mined. -/
def minedThenPending : BundleTxs where
  values := [⟨"0xaa", 0, .pending⟩, ⟨"0xbb", 0, .pending⟩]
  nodup := by decide

def onlyFirstMined (txHash : String) : Except Unit (Option Unit) :=
  .ok (if txHash = "0xaa" then some () else none)

theorem busy_signer_handed_out :
    getReadySigner onlyFirstMined minedThenPending = 0 ∧
      ¬ReadySignerIdle onlyFirstMined minedThenPending := by
  have hready : getReadySigner onlyFirstMined minedThenPending = 0 := by decide
  refine ⟨hready, ?_⟩
  intro hidle
  exact hidle.1 0 hready ⟨"0xbb", 0, .pending⟩ (by simp [minedThenPending]) rfl
    (by simp [Pending, isTransactionPending, onlyFirstMined])

end Idle

end Bundler.ReadySigners
