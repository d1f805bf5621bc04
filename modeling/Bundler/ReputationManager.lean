import Bundler.StateService

/-!
The reputation manager: statuses from the seen and included counters, the
three checks made at admission, and the updates other managers ask for.
Every check reads the state at its own access and updates nothing. The
counters are integers, so Math.floor is integer division.
-/
namespace Bundler.ReputationManager

open AsyncPrograms DataModel StateService

/-- The part of the configuration the reputation manager is created with. -/
structure StakeConfig where
  minStake : BigNumberish
  minUnstakeDelay : BigNumberish
  deriving DecidableEq, Repr

inductive Title
  | account
  | paymaster
  | aggregator
  | deployer
  deriving DecidableEq, Repr

def Title.text : Title → String
  | .account => "account"
  | .paymaster => "paymaster"
  | .aggregator => "aggregator"
  | .deployer => "deployer"

def minInclusionDenominator : ℤ := 10
def throttlingSlack : ℤ := 10
def banSlack : ℤ := 50

/-- The status computed from one pair of counters. -/
def entryStatus (entry : ReputationEntry) : ReputationStatus :=
  let minExpectedIncluded := entry.opsSeen / minInclusionDenominator
  if minExpectedIncluded ≤ entry.opsIncluded + throttlingSlack then .ok
  else if minExpectedIncluded ≤ entry.opsIncluded + banSlack then .throttled
  else .banned

/-- What getStatus answers in a given state. -/
def statusIn (s : State) (addr : Option String) : ReputationStatus :=
  match addr.map toLowerCase with
  | none => .ok
  | some addr =>
      if addr ∈ s.whiteList then .ok
      else if addr ∈ s.blackList then .banned
      else match s.reputationEntries.get addr with
        | some entry => entryStatus entry
        | none => .ok

theorem statusIn_congr {addr addr' : String} (h : toLowerCase addr = toLowerCase addr')
    (s : State) : statusIn s addr = statusIn s addr' := by
  unfold statusIn
  rw [Option.map_some, Option.map_some, h]

theorem entryStatus_eq_ok_iff (entry : ReputationEntry) :
    entryStatus entry = .ok ↔
      entry.opsSeen / minInclusionDenominator ≤ entry.opsIncluded + throttlingSlack := by
  unfold entryStatus
  dsimp only
  split
  · rename_i h
    exact iff_of_true rfl h
  · rename_i h
    split
    · exact iff_of_false (by decide) h
    · exact iff_of_false (by decide) h

theorem entryStatus_eq_banned_iff (entry : ReputationEntry) :
    entryStatus entry = .banned ↔
      entry.opsIncluded + banSlack < entry.opsSeen / minInclusionDenominator := by
  have hslack : throttlingSlack ≤ banSlack := by decide
  unfold entryStatus
  dsimp only
  split
  · exact iff_of_false (by decide) (by omega)
  · split
    · rename_i h
      exact iff_of_false (by decide) (Int.not_lt.mpr h)
    · rename_i h
      exact iff_of_true rfl (Int.not_le.mp h)

/-- A status that is ok: white-listed, or not black-listed and within the slack. -/
theorem statusIn_eq_ok_iff (s : State) (addr : String) :
    statusIn s addr = .ok ↔ toLowerCase addr ∈ s.whiteList ∨
      (toLowerCase addr ∉ s.blackList ∧
        ∀ entry ∈ s.reputationEntries.get (toLowerCase addr), entryStatus entry = .ok) := by
  unfold statusIn
  dsimp only [Option.map_some]
  by_cases hwhite : toLowerCase addr ∈ s.whiteList
  · simp [hwhite]
  · by_cases hblack : toLowerCase addr ∈ s.blackList
    · simp [hwhite, hblack]
    · rw [if_neg hwhite, if_neg hblack]
      cases s.reputationEntries.get (toLowerCase addr) with
      | none => simp [hblack]
      | some entry => simp [hwhite, hblack]

theorem statusIn_eq_banned_iff (s : State) (addr : String) :
    statusIn s addr = .banned ↔ toLowerCase addr ∉ s.whiteList ∧
      (toLowerCase addr ∈ s.blackList ∨
        ∃ entry ∈ s.reputationEntries.get (toLowerCase addr), entryStatus entry = .banned) := by
  unfold statusIn
  dsimp only [Option.map_some]
  by_cases hwhite : toLowerCase addr ∈ s.whiteList
  · simp [hwhite]
  · by_cases hblack : toLowerCase addr ∈ s.blackList
    · simp [hwhite, hblack]
    · rw [if_neg hwhite, if_neg hblack]
      cases s.reputationEntries.get (toLowerCase addr) with
      | none => simp [hblack]
      | some entry => simp [hwhite, hblack]

def getStatus (addr : Option String) : Async ReputationStatus := do
  let s ← getState
  pure (statusIn s addr)

def requireCond (cond : Prop) [Decidable cond] (error : RpcError) : Async PUnit :=
  if cond then pure ⟨⟩ else throw (.rpcError error)

def bannedError (title : Title) (info : StakeInfo) : RpcError where
  message := title.text ++ " " ++ info.addr ++ " is banned"
  code := ValidationErrors.reputation.code
  data := some (title.text, info.addr)

def checkBanned (title : Title) (info : StakeInfo) : Async PUnit := do
  let status ← getStatus info.addr
  requireCond (status ≠ .banned) (bannedError title info)

def checkThrottled (title : Title) (info : StakeInfo) : Async PUnit := do
  let status ← getStatus info.addr
  requireCond (status ≠ .throttled)
    { message := title.text ++ " " ++ info.addr ++ " is throttled"
      code := ValidationErrors.reputation.code
      data := some (title.text, info.addr) }

/-- The status test comes first, so a banned address fails here whatever its stake. -/
def checkStake (config : StakeConfig) (title : Title) (info : StakeInfo) : Async PUnit := do
  let status ← getStatus info.addr
  requireCond (status ≠ .banned) (bannedError title info)
  requireCond (config.minStake ≤ info.stake)
    { message := title.text ++ " " ++ info.addr ++ " stake " ++ toString info.stake ++
        " is too low (min=" ++ toString config.minStake ++ ")"
      code := ValidationErrors.insufficientStake.code }
  requireCond (config.minUnstakeDelay ≤ info.unstakeDelaySec)
    { message := title.text ++ " " ++ info.addr ++ " unstake delay " ++
        toString info.unstakeDelaySec ++ " is too low (min=" ++
        toString config.minUnstakeDelay ++ ")"
      code := ValidationErrors.insufficientStake.code }

def SAME_UNSTAKED_ENTITY_MEMPOOL_COUNT : ℤ := 10
def INCLUSION_RATE_FACTOR : ℤ := 10

/-- The limit in a given state. The inclusion rate is taken as the exact
quotient, and as zero when nothing was seen. -/
def maxAllowedMempoolOpsUnstaked (s : State) (entity : String) : ℤ :=
  match s.reputationEntries.get (toLowerCase entity) with
  | none => SAME_UNSTAKED_ENTITY_MEMPOOL_COUNT
  | some entry =>
      let rate := if entry.opsSeen = 0 then 0
        else (entry.opsIncluded * INCLUSION_RATE_FACTOR).fdiv entry.opsSeen
      SAME_UNSTAKED_ENTITY_MEMPOOL_COUNT + rate + min entry.opsIncluded 10000

def calculateMaxAllowedMempoolOpsUnstaked (entity : String) : Async ℤ := do
  let s ← getState
  pure (maxAllowedMempoolOpsUnstaked s entity)

/-- An absent or empty address is skipped. -/
def updateSeenStatus (addr : Option String) (action : SeenAction) : Async PUnit :=
  match truthy addr with
  | some addr => updateState (.reputation (.updateSeenStatus addr action))
  | none => pure ⟨⟩

def updateSeenStatusBatch (addrs : List String) : Async PUnit :=
  if addrs = [] then pure ⟨⟩ else updateState (.reputation (.updateSeenStatusBatch addrs))

def updateIncludedStatus (addr : String) : Async PUnit :=
  updateState (.reputation (.updateIncludedStatus addr))

def crashedHandleOps (addr : String) : Async PUnit :=
  updateState (.reputation (.crashedHandleOps addr))

/-- What the stake manager contract answers about the deposit of an address. -/
structure DepositInfo where
  stake : BigNumberish
  unstakeDelaySec : BigNumberish
  deriving DecidableEq, Repr

structure StakeStatus where
  stakeInfo : StakeInfo
  isStaked : Bool
  deriving DecidableEq, Repr

def isStaked (config : StakeConfig) (info : DepositInfo) : Bool :=
  config.minStake ≤ info.stake && config.minUnstakeDelay ≤ info.unstakeDelaySec

def getStakeStatus (config : StakeConfig) (getDepositInfo : String → Except JsError DepositInfo)
    (address : String) : Except JsError StakeStatus := do
  let info ← getDepositInfo address
  pure ⟨⟨address, info.stake, info.unstakeDelaySec⟩, isStaked config info⟩

section Checks

variable (config : StakeConfig) (title : Title) (info : StakeInfo)

theorem requireCond_readOnly (cond : Prop) [Decidable cond] (error : RpcError) :
    (requireCond cond error).ReadOnly := by
  unfold requireCond
  split
  · exact trivial
  · exact trivial

theorem getStatus_readOnly (addr : Option String) : (getStatus addr).ReadOnly :=
  fun _ _ => trivial

theorem checkBanned_readOnly : (checkBanned title info).ReadOnly :=
  (getStatus_readOnly _).bind fun _ => requireCond_readOnly _ _

theorem checkThrottled_readOnly : (checkThrottled title info).ReadOnly :=
  (getStatus_readOnly _).bind fun _ => requireCond_readOnly _ _

theorem checkStake_readOnly : (checkStake config title info).ReadOnly :=
  (getStatus_readOnly _).bind fun _ =>
    (requireCond_readOnly _ _).bind fun _ =>
      (requireCond_readOnly _ _).bind fun _ => requireCond_readOnly _ _

theorem requireCond_passesIff (cond : Prop) [Decidable cond] (error : RpcError) :
    PassesIff (requireCond cond error) fun _ => cond := by
  intro s s'
  unfold requireCond
  split
  · rename_i h
    simp [h, eq_comm]
  · rename_i h
    simp [h]

theorem checkBanned_passesIff :
    PassesIff (checkBanned title info) fun s => statusIn s info.addr ≠ .banned :=
  .read_bind fun _ => requireCond_passesIff _ _

theorem checkThrottled_passesIff :
    PassesIff (checkThrottled title info) fun s => statusIn s info.addr ≠ .throttled :=
  .read_bind fun _ => requireCond_passesIff _ _

theorem checkStake_passesIff :
    PassesIff (checkStake config title info) fun s =>
      statusIn s info.addr ≠ .banned ∧ config.minStake ≤ info.stake ∧
        config.minUnstakeDelay ≤ info.unstakeDelaySec :=
  .read_bind fun _ => (requireCond_passesIff _ _).seq
    ((requireCond_passesIff _ _).seq (requireCond_passesIff _ _))

end Checks

end Bundler.ReputationManager
