import Bundler.BundleBuilder
import Bundler.Runs

/-!
What becomes of the entries a bundle is built from. Each step of the build
lists its entry once: in the bundle, among the entries to postpone or among
those to remove. So the three lists together are the entries, each of them
in the order of the entries. The storage map is merged from those of the
bundled operations, none of which touches the sender of another one.
-/
namespace Bundler.BundleContents

open KeyedRecords DataModel ReputationManager DepositManager Validation BundleBuilder Runs

section Lists

/-- The entry with the result of its re-validation, if it had one. -/
def validated (step : MempoolEntry × Answers) : Option Included :=
  match step.2.validateUserOp with
  | .ok (.ok res) => some (step.1, res)
  | _ => none

def bundledEntries (ready : BundleReadyToSend) : List MempoolEntry :=
  ready.included.map Prod.fst

def markedHashes (ready : BundleReadyToSend) : List String :=
  ready.markedToRemoveUserOpsHashes.map RemoveUserOpDetails.userOpHash

/-- How often a hash is listed. -/
def listedCount (ready : BundleReadyToSend) (userOpHash : String) : ℕ :=
  ((bundledEntries ready).map MempoolEntry.userOpHash).count userOpHash +
    ready.notIncludedUserOpsHashes.count userOpHash + (markedHashes ready).count userOpHash

/-- Each list consists of entries in their order, and each entry is in one. -/
structure Partitioned (entries : List MempoolEntry) (ready : BundleReadyToSend) : Prop where
  bundled : (bundledEntries ready).Sublist entries
  notIncluded : ready.notIncludedUserOpsHashes.Sublist (entries.map MempoolEntry.userOpHash)
  marked : (markedHashes ready).Sublist (entries.map MempoolEntry.userOpHash)
  once : ∀ entry ∈ entries, listedCount ready entry.userOpHash = 1

end Lists

section Steps

variable {maxBundleGas : ℤ} {knownSenders : List String} {acc acc' : BundleAcc}
  {step : MempoolEntry × Answers} {done : List (MempoolEntry × Answers)}

theorem validated_of_reValidate {res : ValidateUserOpResult}
    (h : reValidate (step.2.builder maxBundleGas) step.1 = .ok res) :
    validated step = some (step.1, res) := by
  unfold reValidate Answers.builder at h
  unfold validated
  cases hvalidate : step.2.validateUserOp with
  | error e =>
    rw [hvalidate] at h
    cases h
  | ok outcome =>
    rw [hvalidate] at h
    have houtcome : outcome = .ok res := h
    rw [houtcome]

/-- The bundled operations are entries with the results of their re-validation. -/
theorem validated_step (hsub : acc.included.Sublist (done.filterMap validated))
    (h : addAnswered maxBundleGas knownSenders acc step = .ok acc') :
    acc'.included.Sublist ((done ++ [step]).filterMap validated) := by
  rw [List.filterMap_append]
  rcases addEntry_outcome h with ⟨_, haside⟩ | ⟨res, hscreen, _, hadded⟩
  · rw [haside.included]
    exact hsub.trans (List.sublist_append_left _ _)
  · have hvalidated := validated_of_reValidate ((screen_eq_fits_iff res).mp hscreen).validates
    rw [hadded.included, List.filterMap_cons, hvalidated]
    exact hsub.append (List.Sublist.refl _)

/-- A step lists its entry once. -/
theorem lists_step (h : addAnswered maxBundleGas knownSenders acc step = .ok acc') :
    (bundledEntries acc'.ready = bundledEntries acc.ready ++ [step.1] ∧
        acc'.ready.notIncludedUserOpsHashes = acc.ready.notIncludedUserOpsHashes ∧
        markedHashes acc'.ready = markedHashes acc.ready) ∨
      (bundledEntries acc'.ready = bundledEntries acc.ready ∧
        acc'.ready.notIncludedUserOpsHashes =
          acc.ready.notIncludedUserOpsHashes ++ [step.1.userOpHash] ∧
        markedHashes acc'.ready = markedHashes acc.ready) ∨
      bundledEntries acc'.ready = bundledEntries acc.ready ∧
        acc'.ready.notIncludedUserOpsHashes = acc.ready.notIncludedUserOpsHashes ∧
        markedHashes acc'.ready = markedHashes acc.ready ++ [step.1.userOpHash] := by
  unfold bundledEntries markedHashes BundleAcc.ready
  rcases addEntry_outcome h with ⟨_, haside⟩ | ⟨res, _, _, hadded⟩
  · rcases haside.listed with ⟨hpostponed, hmarked⟩ | ⟨err, hpostponed, hmarked⟩
    · exact Or.inr (Or.inl ⟨by rw [haside.included], hpostponed, by rw [hmarked]⟩)
    · exact Or.inr (Or.inr ⟨by rw [haside.included], hpostponed, by simp [hmarked]⟩)
  · exact Or.inl ⟨by simp [hadded.included], hadded.notIncluded, by rw [hadded.marked]⟩

/-- The lists made from the entries gone through so far. -/
structure ListsKept (entries : List MempoolEntry) (ready : BundleReadyToSend) : Prop where
  bundled : (bundledEntries ready).Sublist entries
  notIncluded : ready.notIncludedUserOpsHashes.Sublist (entries.map MempoolEntry.userOpHash)
  marked : (markedHashes ready).Sublist (entries.map MempoolEntry.userOpHash)
  counts : ∀ userOpHash, listedCount ready userOpHash =
    (entries.map MempoolEntry.userOpHash).count userOpHash

theorem sublist_step {α : Type} {kept kept' all : List α} {last : α} (hsub : kept.Sublist all)
    (hkept : kept' = kept ∨ kept' = kept ++ [last]) : kept'.Sublist (all ++ [last]) := by
  rcases hkept with rfl | rfl
  · exact hsub.trans (List.sublist_append_left _ _)
  · exact hsub.append (List.Sublist.refl _)

theorem listsKept_step (hkept : ListsKept (done.map Prod.fst) acc.ready)
    (h : addAnswered maxBundleGas knownSenders acc step = .ok acc') :
    ListsKept ((done ++ [step]).map Prod.fst) acc'.ready := by
  have hlists := lists_step h
  rw [List.map_append, List.map_singleton]
  refine ⟨sublist_step hkept.bundled ?_, ?_, ?_, ?_⟩
  · tauto
  · rw [List.map_append, List.map_singleton]
    exact sublist_step hkept.notIncluded (by tauto)
  · rw [List.map_append, List.map_singleton]
    exact sublist_step hkept.marked (by tauto)
  · intro userOpHash
    have hcount := hkept.counts userOpHash
    unfold listedCount at hcount ⊢
    rw [List.map_append, List.map_singleton, List.count_append]
    rcases hlists with ⟨hb, hn, hm⟩ | ⟨hb, hn, hm⟩ | ⟨hb, hn, hm⟩
    · rw [hb, hn, hm, List.map_append, List.map_singleton, List.count_append]
      omega
    · rw [hb, hn, hm, List.count_append]
      omega
    · rw [hb, hn, hm, List.count_append]
      omega

theorem addAnswered_total (maxBundleGas : ℤ) (knownSenders : List String) {balance : ℕ}
    (hread : step.2.balanceOf = .ok balance) (acc : BundleAcc) :
    ∃ acc', addAnswered maxBundleGas knownSenders acc step = .ok acc' := by
  refine addEntry_total ?_
  intro res paymaster _ _
  unfold availableDeposit Answers.builder
  rw [hread]
  split
  · split
    · exact ⟨_, rfl⟩
    · exact ⟨_, rfl⟩
  · exact ⟨_, rfl⟩

end Steps

variable {maxBundleGas : ℤ} {knownSenders : List String}
  {answered : List (MempoolEntry × Answers)} {ready : BundleReadyToSend}

theorem listsKept_of_ready
    (hready : createBundleFrom maxBundleGas knownSenders answered = .ok ready) :
    ListsKept (answered.map Prod.fst) ready := by
  obtain ⟨acc, hfold, rfl⟩ := createBundleFrom_eq_ok_iff.mp hready
  have hinitial : ListsKept [] BundleAcc.initial.ready :=
    ⟨List.Sublist.refl _, List.Sublist.refl _, List.Sublist.refl _, fun _ => rfl⟩
  exact foldlM_induction (addAnswered maxBundleGas knownSenders)
    (I := fun done acc => ListsKept (done.map Prod.fst) acc.ready)
    (fun _ _ _ _ _ hkept hstep => listsKept_step hkept hstep) hinitial hfold

/-- A build lists every entry once and nothing else, and it resolves if no
deposit read rejects. -/
theorem bundle_partitions (maxBundleGas : ℤ) (knownSenders : List String)
    (hhashes : (answered.map fun step => step.1.userOpHash).Nodup) :
    (∀ ready, createBundleFrom maxBundleGas knownSenders answered = .ok ready →
        Partitioned (answered.map Prod.fst) ready) ∧
      ((∀ step ∈ answered, ∃ balance, step.2.balanceOf = .ok balance) →
        ∃ ready, createBundleFrom maxBundleGas knownSenders answered = .ok ready) := by
  constructor
  · intro ready hready
    have hkept := listsKept_of_ready hready
    refine ⟨hkept.bundled, hkept.notIncluded, hkept.marked, ?_⟩
    intro entry hentry
    rw [hkept.counts, List.map_map]
    have hmem : entry.userOpHash ∈ answered.map fun step => step.1.userOpHash := by
      obtain ⟨step, hstep, rfl⟩ := List.mem_map.mp hentry
      exact List.mem_map.mpr ⟨step, hstep, rfl⟩
    exact List.count_eq_one_of_mem hhashes hmem
  · intro hreads
    have hstep : ∀ acc, True → ∀ step ∈ answered, ∃ acc',
        addAnswered maxBundleGas knownSenders acc step = .ok acc' ∧ True := by
      intro acc _ step hstep
      obtain ⟨balance, hread⟩ := hreads step hstep
      obtain ⟨acc', hadded⟩ := addAnswered_total maxBundleGas knownSenders hread acc
      exact ⟨acc', hadded, trivial⟩
    obtain ⟨acc, hfold, _⟩ := foldlM_total (addAnswered maxBundleGas knownSenders) hstep
      (b := BundleAcc.initial) trivial
    exact ⟨acc.ready, createBundleFrom_eq_ok_iff.mpr ⟨acc, hfold, rfl⟩⟩

section Storage

/-- Of the bundled operations none touches the sender of another one, and
their storage maps, in order, make up that of the bundle. -/
structure Isolated (answered : List (MempoolEntry × Answers)) (ready : BundleReadyToSend) :
    Prop where
  validated : ready.included.Sublist (answered.filterMap validated)
  apart : ∀ a ∈ ready.included, ∀ b ∈ ready.included,
    toLowerCase a.1.userOp.sender ≠ toLowerCase b.1.userOp.sender →
      ∀ addr ∈ a.2.storageMap.keys, toLowerCase addr ≠ toLowerCase b.1.userOp.sender
  merged : ready.storageMap =
    (ready.included.map fun included => included.2.storageMap).foldl mergeStorageMap .empty

theorem accessesOtherSenders_eq_false_iff (storageMap : StorageMap) (sender : String)
    (knownSenders : List String) :
    accessesOtherSenders storageMap sender knownSenders = false ↔
      ∀ addr ∈ storageMap.keys, toLowerCase addr ∈ knownSenders →
        toLowerCase addr = toLowerCase sender := by
  unfold accessesOtherSenders
  rw [List.any_eq_false]
  apply forall₂_congr
  intro addr _
  simp
  tauto

/-- What is kept of the storage maps, for the steps gone through so far. -/
structure StorageKept (knownSenders : List String) (done : List (MempoolEntry × Answers))
    (acc : BundleAcc) : Prop where
  validated : acc.included.Sublist (done.filterMap validated)
  isolated : ∀ included ∈ acc.included, ∀ addr ∈ included.2.storageMap.keys,
    toLowerCase addr ∈ knownSenders → toLowerCase addr = toLowerCase included.1.userOp.sender
  merged : acc.storageMap =
    (acc.included.map fun included => included.2.storageMap).foldl mergeStorageMap .empty

theorem storageKept_step {acc acc' : BundleAcc} {step : MempoolEntry × Answers}
    {done : List (MempoolEntry × Answers)} (hkept : StorageKept knownSenders done acc)
    (h : addAnswered maxBundleGas knownSenders acc step = .ok acc') :
    StorageKept knownSenders (done ++ [step]) acc' := by
  have hvalidated := validated_step hkept.validated h
  rcases addEntry_outcome h with ⟨_, haside⟩ | ⟨res, hscreen, _, hadded⟩
  · refine ⟨hvalidated, ?_, ?_⟩
    · rw [haside.included]
      exact hkept.isolated
    · rw [haside.storageMap, haside.included]
      exact hkept.merged
  · have hisolated := ((screen_eq_fits_iff res).mp hscreen).isolated
    rw [accessesOtherSenders_eq_false_iff] at hisolated
    refine ⟨hvalidated, ?_, ?_⟩
    · intro included hincluded
      rw [hadded.included, List.mem_append, List.mem_singleton] at hincluded
      rcases hincluded with hincluded | rfl
      · exact hkept.isolated included hincluded
      · exact hisolated
    · rw [hadded.storageMap, hadded.included, hkept.merged, List.map_append, List.foldl_append]
      rfl

theorem validated_eq_some {step : MempoolEntry × Answers} {included : Included}
    (h : validated step = some included) : included.1 = step.1 := by
  unfold validated at h
  split at h
  · cases h
    rfl
  · cases h

/-- The senders of all entries being known, no bundled operation touches the
sender of another one, and only bundled operations enter the storage map. -/
theorem bundle_isolated (maxBundleGas : ℤ) (knownSenders : List String)
    (hknown : ∀ step ∈ answered, toLowerCase step.1.userOp.sender ∈ knownSenders)
    (hready : createBundleFrom maxBundleGas knownSenders answered = .ok ready) :
    Isolated answered ready := by
  obtain ⟨acc, hfold, rfl⟩ := createBundleFrom_eq_ok_iff.mp hready
  have hinitial : StorageKept knownSenders [] BundleAcc.initial :=
    ⟨List.Sublist.refl _, fun _ hincluded => absurd hincluded List.not_mem_nil, rfl⟩
  have hkept : StorageKept knownSenders answered acc :=
    foldlM_induction (addAnswered maxBundleGas knownSenders)
      (fun _ _ _ _ _ hkept hstep => storageKept_step hkept hstep) hinitial hfold
  refine ⟨hkept.validated, ?_, hkept.merged⟩
  intro a ha b hb hsenders addr haddr hsame
  obtain ⟨step, hstep, hvalidated⟩ := List.mem_filterMap.mp (hkept.validated.subset hb)
  have hsender : toLowerCase b.1.userOp.sender ∈ knownSenders := by
    rw [validated_eq_some hvalidated]
    exact hknown step hstep
  rw [← hsame] at hsender hsenders
  exact hsenders (hkept.isolated a ha addr haddr hsender).symm

end Storage

section Concrete

/-- The validation of an operation that reads one slot of the address. -/
def touching (addr : String) : Answers :=
  { plainAnswers with
    validateUserOp := .ok (.ok { plainResult with
      storageMap := Record.assign .empty addr (.slots (Record.assign .empty "0x0" "0x1")) }) }

/-- Operations of three senders, the last of which touches the first one. -/
def touchingFirst : List (MempoolEntry × Answers) :=
  [(plainEntry (plainOp account 1 10 none none) hash₁, touching account),
    (plainEntry (plainOp otherAccount 1 10 none none) hash₂, touching otherAccount),
    (plainEntry (plainOp sponsor 1 10 none none) (hashOf "3"), touching account)]

theorem touchingFirst_isolated :
    ∃ ready, createBundleFrom 5000000 [account, otherAccount, sponsor] touchingFirst = .ok ready ∧
      Isolated touchingFirst ready :=
  ⟨_, rfl, bundle_isolated 5000000 [account, otherAccount, sponsor] (by decide) rfl⟩

theorem touchingFirst_partitioned :
    (∀ ready, createBundleFrom 5000000 [account, otherAccount, sponsor] touchingFirst = .ok ready →
        Partitioned (touchingFirst.map Prod.fst) ready) ∧
      ((∀ step ∈ touchingFirst, ∃ balance, step.2.balanceOf = .ok balance) →
        ∃ ready,
          createBundleFrom 5000000 [account, otherAccount, sponsor] touchingFirst = .ok ready) :=
  bundle_partitions 5000000 [account, otherAccount, sponsor] (by decide)

end Concrete

end Bundler.BundleContents
