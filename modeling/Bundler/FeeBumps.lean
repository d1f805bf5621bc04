import Bundler.Operations

/-!
The fees along a chain of replacements, with the doubles of the fee tests read
as exact rationals. Each replacement multiplies both fees by eleven tenths at
least. From zero this asks for nothing, so the fees rise strictly exactly as
long as no operation with a zero fee replaces another.
-/
namespace Bundler.FeeBumps

open KeyedRecords AsyncPrograms DataModel StateService ReputationManager DepositManager
  MempoolHelper MempoolManager Operations Runs

/-- A call of addUserOp: the deposits it would read, and its parameter. -/
abbrev Call := BalanceOf × RelayUserOpParam

section Replacements

/-- The fee test without the rounding. -/
def exactlyBumped : FeeTest := fun oldFee newFee => newFee * 10 ≥ oldFee * 11

variable (config : StakeConfig)

/-- One call, run alone. -/
def perform (s : State) (call : Call) : State :=
  (runAlone (addUserOpBy exactlyBumped config call.1 call.2) s).1

def isAccepted (s : State) (call : Call) : Bool :=
  match (runAlone (addUserOpBy exactlyBumped config call.1 call.2) s).2 with
  | .ok (.ok _) => true
  | _ => false

/-- The entry pooled for a sender and nonce. -/
def entryAt (key : String × ℤ) (s : State) : Option MempoolEntry :=
  s.standardPool.values.find? fun entry => slot entry.userOp = key

/-- The entry that the call replaces, if it is accepted as a replacement. -/
def replaced (s : State) (call : Call) : Option MempoolEntry :=
  if isAccepted config s call then entryAt (slot call.2.userOp) s else none

/-- The number of accepted replacements in a run. -/
def replacements : State → List Call → ℕ
  | _, [] => 0
  | s, call :: calls =>
      (if (replaced config s call).isSome then 1 else 0) +
        replacements (perform config s call) calls

/-- Both fees of the second operation are above those of the first, and are
eleven tenths of them at least. -/
structure RisesStrictly (old new : UserOperation) : Prop where
  fee : old.maxFeePerGas < new.maxFeePerGas
  priorityFee : old.maxPriorityFeePerGas < new.maxPriorityFeePerGas
  feeTenths : (11 / 10 : ℚ) * old.maxFeePerGas ≤ new.maxFeePerGas
  priorityFeeTenths : (11 / 10 : ℚ) * old.maxPriorityFeePerGas ≤ new.maxPriorityFeePerGas

/-- What the fees have become after some replacements. -/
structure RisenBy (k : ℕ) (first last : UserOperation) : Prop where
  fee : (11 / 10 : ℚ) ^ k * first.maxFeePerGas ≤ last.maxFeePerGas
  priorityFee : (11 / 10 : ℚ) ^ k * first.maxPriorityFeePerGas ≤ last.maxPriorityFeePerGas
  strict : 1 ≤ k → first.maxFeePerGas < last.maxFeePerGas ∧
    first.maxPriorityFeePerGas < last.maxPriorityFeePerGas

/-- If the call replaces an entry, it is by an operation with higher fees. -/
def ReplacesStrictly (s : State) (call : Call) : Prop :=
  ∀ old ∈ replaced config s call, RisesStrictly old.userOp call.2.userOp

/-- From any moment of the run on, the fees of the entry have risen with each replacement. -/
def ChainRises (key : String × ℤ) (s : State) (calls : List Call) : Prop :=
  ∀ before after, calls = before ++ after → ∀ first,
    entryAt key (run (perform config) s before) = some first →
      ∃ last, entryAt key (run (perform config) s calls) = some last ∧
        RisenBy (replacements config (run (perform config) s before) after) first.userOp last.userOp

/-- A call whose deposit suffices and whose fees pass the tests against the entry
of its slot has both fees above zero. -/
def BumpsWithFees (s : State) (call : Call) : Prop :=
  ∀ old ∈ entryAt (slot call.2.userOp) s, FeesBumpedBy exactlyBumped old.userOp call.2.userOp →
    DepositSuffices call.1 call.2 s →
      0 < call.2.userOp.maxFeePerGas ∧ 0 < call.2.userOp.maxPriorityFeePerGas

def Unsigned (userOp : UserOperation) : Prop :=
  0 ≤ userOp.maxFeePerGas ∧ 0 ≤ userOp.maxPriorityFeePerGas

/-- At most one entry is pooled for the sender and nonce, with unsigned fees. -/
structure SlotHeld (key : String × ℤ) (s : State) : Prop where
  single : ∀ entry ∈ s.standardPool.values, ∀ other ∈ s.standardPool.values,
    slot entry.userOp = key → slot other.userOp = key → entry = other
  unsigned : ∀ entry ∈ s.standardPool.values, slot entry.userOp = key → Unsigned entry.userOp

end Replacements

section Steps

variable {config : StakeConfig} {s : State} {call : Call}

theorem isAccepted_iff :
    isAccepted config s call ↔ ∃ userOpHash,
      (runAlone (addUserOpBy exactlyBumped config call.1 call.2) s).2 = .ok (.ok userOpHash) := by
  unfold isAccepted
  cases (runAlone (addUserOpBy exactlyBumped config call.1 call.2) s).2 with
  | error e => simp
  | ok res =>
    cases res with
    | error e => simp
    | ok userOpHash => simp

/-- An accepted call passed every check, and did what an admission does. -/
theorem isAccepted_iff_admitted :
    isAccepted config s call ↔ DepositSuffices call.1 call.2 s ∧
      ∃ old, AdmittedBy config call.2 exactlyBumped s old ∧
        perform config s call = afterAdmission call.2 s old := by
  rw [isAccepted_iff]
  constructor
  · rintro ⟨userOpHash, hok⟩
    exact ((addUserOpBy_ok_iff config call.1 call.2 s _ userOpHash).mp (Prod.ext rfl hok)).2
  · intro h
    exact ⟨_, congrArg Prod.snd ((addUserOpBy_ok_iff config call.1 call.2 s _ _).mpr ⟨rfl, h⟩)⟩

theorem perform_of_rejected (h : ¬isAccepted config s call) : perform config s call = s := by
  rw [isAccepted_iff] at h
  refine addUserOpBy_rejected config call.1 call.2 s ?_
  intro userOpHash hok
  exact h ⟨userOpHash, hok⟩

theorem entryAt_eq_some {key : String × ℤ} {entry : MempoolEntry} (h : entryAt key s = some entry) :
    entry ∈ s.standardPool.values ∧ slot entry.userOp = key :=
  ⟨List.mem_of_find?_eq_some h, by simpa using List.find?_some h⟩

/-- The one entry of the slot is the one that is found. -/
theorem SlotHeld.entryAt_eq {key : String × ℤ} (h : SlotHeld key s) {entry : MempoolEntry}
    (hmem : entry ∈ s.standardPool.values) (hslot : slot entry.userOp = key) :
    entryAt key s = some entry := by
  cases hfound : entryAt key s with
  | none =>
    have hnone := List.find?_eq_none.mp hfound entry hmem
    simp [hslot] at hnone
  | some other =>
    obtain ⟨hother, hslot'⟩ := entryAt_eq_some hfound
    rw [h.single entry hmem other hother hslot hslot']

/-- An accepted call replaces the entry of its slot, or there is none. -/
theorem of_isAccepted (h : isAccepted config s call) :
    ∃ old, entryAt (slot call.2.userOp) s = old ∧
      (∀ entry ∈ old, FeesBumpedBy exactlyBumped entry.userOp call.2.userOp) ∧
      perform config s call = afterAdmission call.2 s old := by
  obtain ⟨_, old, hadmitted, hafter⟩ := isAccepted_iff_admitted.mp h
  refine ⟨old, ?_, ?_, hafter⟩
  · cases old with
    | none => exact hadmitted.1
    | some old => exact hadmitted.1
  · intro entry hentry
    rw [Option.mem_def] at hentry
    rw [hentry] at hadmitted
    exact hadmitted.2

variable {key : String × ℤ}

/-- After an acceptance the new entry is the only one of its slot. -/
theorem eq_newEntry (hs : SlotHeld key s) (hkey : slot call.2.userOp = key)
    (haccepted : isAccepted config s call) {entry : MempoolEntry}
    (hentry : entry ∈ (perform config s call).standardPool.values)
    (hslot : slot entry.userOp = key) : entry = newEntry call.2 := by
  obtain ⟨old, hfound, _, hafter⟩ := of_isAccepted haccepted
  rw [hafter, afterAdmission_standardPool] at hentry
  rw [hkey] at hfound
  cases old with
  | none =>
    rcases (s.standardPool.mem_insert _ _).mp hentry with hnew | ⟨hpooled, _⟩
    · exact hnew
    · rw [hs.entryAt_eq hpooled hslot] at hfound
      cases hfound
  | some old =>
    rcases ((s.standardPool.delete old.userOpHash).mem_insert _ _).mp hentry with
      hnew | ⟨hpooled, _⟩
    · exact hnew
    · obtain ⟨hpooled, hhash⟩ := (s.standardPool.mem_delete _ _).mp hpooled
      rw [hs.entryAt_eq hpooled hslot] at hfound
      rw [Option.some.inj hfound] at hhash
      exact absurd rfl hhash

theorem newEntry_mem (haccepted : isAccepted config s call) :
    newEntry call.2 ∈ (perform config s call).standardPool.values := by
  obtain ⟨old, _, _, hafter⟩ := of_isAccepted haccepted
  rw [hafter, afterAdmission_standardPool]
  cases old with
  | none => exact (s.standardPool.mem_insert _ _).mpr (.inl rfl)
  | some old => exact ((s.standardPool.delete old.userOpHash).mem_insert _ _).mpr (.inl rfl)

/-- A call for the slot keeps at most one entry in it. -/
theorem slotHeld_perform (hs : SlotHeld key s) (hkey : slot call.2.userOp = key)
    (hunsigned : Unsigned call.2.userOp) : SlotHeld key (perform config s call) := by
  by_cases haccepted : isAccepted config s call
  · constructor
    · intro entry hentry other hother hslot hslot'
      rw [eq_newEntry hs hkey haccepted hentry hslot, eq_newEntry hs hkey haccepted hother hslot']
    · intro entry hentry hslot
      rw [eq_newEntry hs hkey haccepted hentry hslot]
      exact hunsigned
  · rw [perform_of_rejected haccepted]
    exact hs

theorem entryAt_of_accepted (hs : SlotHeld key s) (hkey : slot call.2.userOp = key)
    (hunsigned : Unsigned call.2.userOp) (haccepted : isAccepted config s call) :
    entryAt key (perform config s call) = some (newEntry call.2) :=
  (slotHeld_perform hs hkey hunsigned).entryAt_eq (newEntry_mem haccepted) hkey

/-- A call replaces the entry of its slot just if its deposit suffices and its
fees pass the tests against that entry. -/
theorem replaced_eq_some_iff {old : MempoolEntry} :
    replaced config s call = some old ↔ entryAt (slot call.2.userOp) s = some old ∧
      FeesBumpedBy exactlyBumped old.userOp call.2.userOp ∧ DepositSuffices call.1 call.2 s := by
  unfold replaced
  constructor
  · intro h
    by_cases haccepted : isAccepted config s call
    · rw [if_pos haccepted] at h
      obtain ⟨_, hfound, hbumped, _⟩ := of_isAccepted haccepted
      have hdeposit := (isAccepted_iff_admitted.mp haccepted).1
      exact ⟨h, hbumped old (hfound.symm.trans h), hdeposit⟩
    · rw [if_neg haccepted] at h
      cases h
  · intro h
    obtain ⟨hfound, hbumped, hdeposit⟩ := h
    have hadmitted : AdmittedBy config call.2 exactlyBumped s (some old) := ⟨hfound, hbumped⟩
    have hrun := (addUserOpBy_ok_iff config call.1 call.2 s _ call.2.userOpHash).mpr
      ⟨rfl, hdeposit, some old, hadmitted, rfl⟩
    have haccepted : isAccepted config s call := isAccepted_iff.mpr ⟨_, congrArg Prod.snd hrun⟩
    rw [if_pos haccepted]
    exact hfound

theorem tenths_of_exactlyBumped {oldFee newFee : ℤ} (h : exactlyBumped oldFee newFee) :
    (11 / 10 : ℚ) * oldFee ≤ newFee := by
  have htenths : oldFee * 11 ≤ newFee * 10 := of_decide_eq_true h
  have hcast : (oldFee : ℚ) * 11 ≤ newFee * 10 := by exact_mod_cast htenths
  linarith

/-- With an unsigned old fee, a bumped fee is higher just if it is not zero. -/
theorem lt_iff_pos_of_exactlyBumped {oldFee newFee : ℤ} (h : exactlyBumped oldFee newFee)
    (hold : 0 ≤ oldFee) : oldFee < newFee ↔ 0 < newFee := by
  have htenths : oldFee * 11 ≤ newFee * 10 := of_decide_eq_true h
  omega

/-- A replacement is strict just if both of its fees are above zero. -/
theorem replacesStrictly_iff (hs : SlotHeld key s) (hkey : slot call.2.userOp = key) :
    ReplacesStrictly config s call ↔ BumpsWithFees s call := by
  have hstrict {old : MempoolEntry} (hfound : entryAt (slot call.2.userOp) s = some old)
      (hbumped : FeesBumpedBy exactlyBumped old.userOp call.2.userOp) :
      RisesStrictly old.userOp call.2.userOp ↔
        0 < call.2.userOp.maxFeePerGas ∧ 0 < call.2.userOp.maxPriorityFeePerGas := by
    obtain ⟨hpriority, hfee⟩ := hbumped
    rw [hkey] at hfound
    obtain ⟨hpooled, hslot⟩ := entryAt_eq_some hfound
    obtain ⟨hold, hold'⟩ := hs.unsigned old hpooled hslot
    rw [← lt_iff_pos_of_exactlyBumped hfee hold, ← lt_iff_pos_of_exactlyBumped hpriority hold']
    constructor
    · intro h
      exact ⟨h.fee, h.priorityFee⟩
    · intro h
      exact ⟨h.1, h.2, tenths_of_exactlyBumped hfee, tenths_of_exactlyBumped hpriority⟩
  constructor
  · intro h old hfound hbumped hdeposit
    exact (hstrict hfound hbumped).mp
      (h old (replaced_eq_some_iff.mpr ⟨hfound, hbumped, hdeposit⟩))
  · intro h old hreplaced
    obtain ⟨hfound, hbumped, hdeposit⟩ := replaced_eq_some_iff.mp hreplaced
    exact (hstrict hfound hbumped).mpr (h old hfound hbumped hdeposit)

end Steps

section Chains

variable {config : StakeConfig} {key : String × ℤ}

theorem risenBy_zero (userOp : UserOperation) : RisenBy 0 userOp userOp where
  fee := by simp
  priorityFee := by simp
  strict h := absurd h (by omega)

/-- A strict replacement before a chain makes it one longer. -/
theorem RisenBy.cons {k : ℕ} {first next last : UserOperation} (hnext : RisesStrictly first next)
    (h : RisenBy k next last) : RisenBy (k + 1) first last := by
  have hpow : (0 : ℚ) ≤ (11 / 10) ^ k := by positivity
  have hone : (1 : ℚ) ≤ (11 / 10) ^ k := one_le_pow₀ (by norm_num)
  constructor
  · have hmul := mul_le_mul_of_nonneg_left hnext.feeTenths hpow
    have hlast := h.fee
    rw [pow_succ]
    linarith
  · have hmul := mul_le_mul_of_nonneg_left hnext.priorityFeeTenths hpow
    have hlast := h.priorityFee
    rw [pow_succ]
    linarith
  · intro _
    by_cases hk : 1 ≤ k
    · have hlast := h.strict hk
      exact ⟨hnext.fee.trans hlast.1, hnext.priorityFee.trans hlast.2⟩
    · have hzero : k = 0 := by omega
      have hfee := h.fee
      have hpriority := h.priorityFee
      rw [hzero, pow_zero, one_mul] at hfee hpriority
      exact ⟨hnext.fee.trans_le (by exact_mod_cast hfee),
        hnext.priorityFee.trans_le (by exact_mod_cast hpriority)⟩

/-- The calls are for the slot, with unsigned fees. -/
def ForSlot (key : String × ℤ) (calls : List Call) : Prop :=
  ∀ call ∈ calls, slot call.2.userOp = key ∧ Unsigned call.2.userOp

/-- The fees of the entry rise along a run whose replacements are strict. -/
theorem risenBy_run {s : State} {calls : List Call} {first : MempoolEntry}
    (hs : SlotHeld key s) (hcalls : ForSlot key calls)
    (hstrict : AllSteps (perform config) (ReplacesStrictly config) s calls)
    (hfirst : entryAt key s = some first) :
    ∃ last, entryAt key (run (perform config) s calls) = some last ∧
      RisenBy (replacements config s calls) first.userOp last.userOp := by
  induction calls generalizing s first with
  | nil => exact ⟨first, hfirst, risenBy_zero first.userOp⟩
  | cons call calls ih =>
    obtain ⟨⟨hkey, hunsigned⟩, hrest⟩ := List.forall_mem_cons.mp hcalls
    have hnext : SlotHeld key (perform config s call) := slotHeld_perform hs hkey hunsigned
    rw [run_cons]
    unfold replacements
    by_cases haccepted : isAccepted config s call
    · have hreplaced : replaced config s call = some first := by
        unfold replaced
        rw [if_pos haccepted, hkey, hfirst]
      obtain ⟨last, hlast, hrisen⟩ := ih hnext hrest hstrict.2
        (entryAt_of_accepted hs hkey hunsigned haccepted)
      refine ⟨last, hlast, ?_⟩
      rw [hreplaced, Option.isSome_some, if_pos rfl, Nat.add_comm]
      exact hrisen.cons (hstrict.1 first hreplaced)
    · have hreplaced : replaced config s call = none := if_neg haccepted
      have hsame := perform_of_rejected haccepted
      rw [hsame] at hnext ⊢
      obtain ⟨last, hlast, hrisen⟩ := ih hs hrest (hsame ▸ hstrict.2) hfirst
      refine ⟨last, hlast, ?_⟩
      rw [hreplaced, Option.isSome_none, if_neg Bool.false_ne_true, Nat.zero_add]
      exact hrisen

theorem slotHeld_run {s : State} {calls : List Call} (hs : SlotHeld key s)
    (hcalls : ForSlot key calls) : SlotHeld key (run (perform config) s calls) := by
  induction calls generalizing s with
  | nil => exact hs
  | cons call calls ih =>
    obtain ⟨⟨hkey, hunsigned⟩, hrest⟩ := List.forall_mem_cons.mp hcalls
    exact ih (slotHeld_perform hs hkey hunsigned) hrest

theorem chainRises_of_strict {s : State} {calls : List Call} (hs : SlotHeld key s)
    (hcalls : ForSlot key calls)
    (hstrict : AllSteps (perform config) (ReplacesStrictly config) s calls) :
    ChainRises config key s calls := by
  intro before after hsplit first hfirst
  rw [hsplit] at hcalls hstrict ⊢
  have hbefore : ForSlot key before := fun call hcall => hcalls call (by simp [hcall])
  have hafter : ForSlot key after := fun call hcall => hcalls call (by simp [hcall])
  rw [run_append]
  exact risenBy_run (slotHeld_run hs hbefore) hafter
    ((allSteps_append _ _ _ _ _).mp hstrict).2 hfirst

theorem allSteps_strict_iff {s : State} {calls : List Call} (hs : SlotHeld key s)
    (hcalls : ForSlot key calls) :
    AllSteps (perform config) (ReplacesStrictly config) s calls ↔
      AllSteps (perform config) BumpsWithFees s calls := by
  induction calls generalizing s with
  | nil => exact Iff.rfl
  | cons call calls ih =>
    obtain ⟨⟨hkey, hunsigned⟩, hrest⟩ := List.forall_mem_cons.mp hcalls
    exact and_congr (replacesStrictly_iff hs hkey) (ih (slotHeld_perform hs hkey hunsigned) hrest)

/-- In a run of calls for one slot every replacement is strict, and the fees
rise by a tenth each time, exactly when no zero fee passes the fee tests. -/
theorem fees_rise_iff (config : StakeConfig) (key : String × ℤ) (s : State) (calls : List Call)
    (hs : SlotHeld key s) (hcalls : ForSlot key calls) :
    (AllSteps (perform config) (ReplacesStrictly config) s calls ∧
        ChainRises config key s calls) ↔
      AllSteps (perform config) BumpsWithFees s calls := by
  rw [← allSteps_strict_iff hs hcalls]
  constructor
  · exact And.left
  · intro hstrict
    exact ⟨hstrict, chainRises_of_strict hs hcalls hstrict⟩

end Chains

section Concrete

theorem slotHeld_initial (key : String × ℤ) (whiteList blackList : List String) :
    SlotHeld key (State.initial whiteList blackList) where
  single _ hentry := absurd hentry List.not_mem_nil
  unsigned _ hentry := absurd hentry List.not_mem_nil

/-- An operation of the account with this fee, and its hash. -/
def bid (fee : ℤ) (digit : String) : Call :=
  (richDeposits, plainParam (plainOp account 1 fee none none) (hashOf digit))

theorem forSlot_bids {b : List (ℤ × String)} (h : ∀ fee ∈ b.map Prod.fst, 0 ≤ fee) :
    ForSlot (account, 1) (b.map fun offer => bid offer.1 offer.2) := by
  intro call hcall
  obtain ⟨offer, hoffer, hcall⟩ := List.mem_map.mp hcall
  have hfee := h offer.1 (List.mem_map_of_mem hoffer)
  have haccount : toLowerCase account = account := by decide
  rw [← hcall]
  exact ⟨Prod.ext haccount rfl, hfee, hfee⟩

theorem fees_rise_from_ten :
    AllSteps (perform plainConfig) (ReplacesStrictly plainConfig) (State.initial [] [])
        [bid 10 "1", bid 11 "2", bid 20 "3"] ∧
      ChainRises plainConfig (account, 1) (State.initial [] [])
        [bid 10 "1", bid 11 "2", bid 20 "3"] :=
  (fees_rise_iff plainConfig (account, 1) (State.initial [] []) _ (slotHeld_initial _ [] [])
    (forSlot_bids (b := [(10, "1"), (11, "2"), (20, "3")]) (by decide))).mpr
    ⟨fun _ _ _ _ => by decide, fun _ _ _ _ => by decide, fun _ _ _ _ => by decide, trivial⟩

/-- An operation without fees is replaced by another one without fees. -/
theorem replaced_for_free :
    ¬AllSteps (perform plainConfig) (ReplacesStrictly plainConfig) (State.initial [] [])
      [bid 0 "1", bid 0 "2"] := by
  intro h
  have hreplaced : replaced plainConfig (perform plainConfig (State.initial [] []) (bid 0 "1"))
      (bid 0 "2") = some (newEntry (bid 0 "1").2) := by decide
  exact absurd (h.2.1 _ hreplaced).fee (by decide)

end Concrete

end Bundler.FeeBumps
