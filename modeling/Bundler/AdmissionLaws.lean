import Bundler.Operations

/-!
Who gets into the mempool. The entities of an operation are its sender and
whatever it names as paymaster, factory and aggregator; validation describes
each of them with its stake. A new operation is admitted only with every
entity in good standing. A replacement has none of its entities looked at,
so the rule that banned entities stay out holds of an admission exactly
when it does not replace an entry on behalf of a banned one.
-/
namespace Bundler.AdmissionLaws

open KeyedRecords AsyncPrograms DataModel StateService ReputationManager DepositManager
  MempoolHelper MempoolManager Operations Runs

/-- The zero address names no entity. -/
def entity (addr : Option String) : Option String := addr.filter (fun a => a ≠ zeroAddress)

/-- The stake infos are those of the operation's own entities. -/
structure DescribesEntities (param : RelayUserOpParam) : Prop where
  sender : param.senderInfo.addr = param.userOp.sender
  paymaster : param.paymasterInfo.map StakeInfo.addr = entity param.userOp.paymaster
  factory : param.factoryInfo.map StakeInfo.addr = entity param.userOp.factory

instance (param : RelayUserOpParam) : Decidable (DescribesEntities param) :=
  decidable_of_iff (param.senderInfo.addr = param.userOp.sender ∧
      param.paymasterInfo.map StakeInfo.addr = entity param.userOp.paymaster ∧
      param.factoryInfo.map StakeInfo.addr = entity param.userOp.factory)
    ⟨fun h => ⟨h.1, h.2.1, h.2.2⟩, fun h => ⟨h.sender, h.paymaster, h.factory⟩⟩

def entities (param : RelayUserOpParam) : List String :=
  param.userOp.sender :: [entity param.userOp.paymaster, entity param.userOp.factory,
    param.aggregatorInfo.map StakeInfo.addr].filterMap id

def NoEntityBanned (s : State) (param : RelayUserOpParam) : Prop :=
  ∀ addr ∈ entities param, statusIn s addr ≠ .banned

section Admission

variable {config : StakeConfig} {balanceOf : BalanceOf} {param : RelayUserOpParam} {s : State}

theorem mem_entities_iff (hdescribes : DescribesEntities param) (addr : String) :
    addr ∈ entities param ↔
      addr = param.senderInfo.addr ∨
        ∃ infos ∈ [param.paymasterInfo, param.factoryInfo, param.aggregatorInfo],
          ∃ info ∈ infos, addr = info.addr := by
  unfold entities
  rw [← hdescribes.sender, ← hdescribes.paymaster, ← hdescribes.factory]
  simp [eq_comm, or_and_right, exists_or]

/-- The reputation check of a new operation lets no banned entity pass. -/
theorem noEntityBanned_of_new (hdescribes : DescribesEntities param)
    (hadmitted : Admitted config param s none) : NoEntityBanned s param := by
  obtain ⟨_, ⟨hsender, hothers⟩, _⟩ := hadmitted
  intro addr haddr
  rcases (mem_entities_iff hdescribes addr).mp haddr with rfl | ⟨infos, hinfos, info, hinfo, rfl⟩
  · exact hsender.1
  · exact (hothers infos hinfos info hinfo).1

/-- An admission keeps banned entities out exactly when it is not the
replacement of a pooled entry by an operation with a banned entity. -/
theorem banned_stay_out_iff (hdescribes : DescribesEntities param) :
    (Accepted config balanceOf param s → NoEntityBanned s param) ↔
      ¬(DepositSuffices balanceOf param s ∧ (∃ old, Admitted config param s (some old)) ∧
        ¬NoEntityBanned s param) := by
  constructor
  · rintro hout ⟨hdeposit, ⟨old, hadmitted⟩, hbanned⟩
    have haccepted := (accepted_iff config balanceOf param s).mpr ⟨hdeposit, some old, hadmitted⟩
    exact hbanned (hout haccepted)
  · intro hreplacement haccepted
    obtain ⟨hdeposit, old, hadmitted⟩ := (accepted_iff config balanceOf param s).mp haccepted
    by_contra hbanned
    cases old with
    | none => exact hbanned (noEntityBanned_of_new hdescribes hadmitted)
    | some old => exact hreplacement ⟨hdeposit, ⟨old, hadmitted⟩, hbanned⟩

end Admission

section Concrete

/-- An operation without a paymaster, then a ban of an address. -/
def poolThenBan : List Operation :=
  [.mempool (.addUserOp richDeposits (plainParam (plainOp account 1 10 none none) hash₁)),
    .reputation (.addBlacklist [sponsor])]

def bannedReplacement : RelayUserOpParam :=
  plainParam (plainOp account 1 20 (some sponsor) none) hash₂

theorem banned_stay_out_initially :
    (Accepted plainConfig richDeposits bannedReplacement (State.initial [] [sponsor]) →
        NoEntityBanned (State.initial [] [sponsor]) bannedReplacement) ↔
      ¬(DepositSuffices richDeposits bannedReplacement (State.initial [] [sponsor]) ∧
        (∃ old, Admitted plainConfig bannedReplacement (State.initial [] [sponsor]) (some old)) ∧
        ¬NoEntityBanned (State.initial [] [sponsor]) bannedReplacement) :=
  banned_stay_out_iff (by decide)

/-- A replacement brings a banned paymaster into the pool. -/
theorem banned_paymaster_gets_in :
    ¬∀ (config : StakeConfig) (balanceOf : BalanceOf) (bundleSize : ℕ) (ops : List Operation)
      (param : RelayUserOpParam), DescribesEntities param →
      Accepted config balanceOf param
        (run (Operation.perform config bundleSize) (State.initial [] []) ops) →
      NoEntityBanned (run (Operation.perform config bundleSize) (State.initial [] []) ops)
        param := by
  intro h
  have hout := h plainConfig richDeposits 5 poolThenBan bannedReplacement (by decide)
    ⟨hash₂, by decide⟩
  exact hout sponsor (by decide) (by decide)

end Concrete

end Bundler.AdmissionLaws
