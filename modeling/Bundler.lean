import Bundler.KeyedRecords
import Bundler.Runs
import Bundler.AsyncPrograms
import Bundler.Interleavings
import Bundler.DataModel
import Bundler.StateService
import Bundler.ReputationManager
import Bundler.DepositManager
import Bundler.MempoolHelper
import Bundler.MempoolManager
import Bundler.Operations
import Bundler.AdmissionLaws
import Bundler.AdmissionEffect
import Bundler.RoleExclusivity
import Bundler.PoolCounts
import Bundler.MempoolLimits
import Bundler.ThrottledEntities
import Bundler.SlotUniqueness
import Bundler.RemovedOperations
import Bundler.FailedHandOut
import Bundler.ByteStrings
import Bundler.Validation
import Bundler.BundleBuilder
import Bundler.BundleSenders
import Bundler.BundleContents
import Bundler.BundleLimits
import Bundler.PaymasterBudget
import Bundler.BundleManager
import Bundler.StrandedOperations
import Bundler.EmptyBundles
import Bundler.HandOut
import Bundler.BannedAddresses
import Bundler.BanEnforcement
import Bundler.FailedOperations
import Bundler.BlamedOperations
import Bundler.EventManager
import Bundler.PastLogs
import Bundler.MissedLogs
import Bundler.InclusionCredit
import Bundler.OperationLogs
import Bundler.CounterTotals
import Bundler.ForgivenPaymasters
import Bundler.HourlyDecay
import Bundler.ListedAddresses
import Bundler.AggregatorAttribution
import Bundler.LastingBans
import Bundler.CriticalSections
import Bundler.StateStore
import Bundler.UpdateFootprints
import Bundler.DeepHexlify
import Bundler.RpcHandler
import Bundler.HexStrings
import Bundler.BigIntText
import Bundler.AbiEncoding
import Bundler.Ethers
import Bundler.Packing
import Bundler.PreVerificationGas
import Bundler.CallStack
import Bundler.TracerResultParser
import Bundler.CallRules
import Bundler.StorageRules
import Bundler.GasRule
import Bundler.InputParameters
import Bundler.PackedCollisions
import Bundler.ReadySigners
import Bundler.SeenBatches
import Bundler.BannedOperations
import Bundler.ValidityWindows
import Bundler.MergedStorage
import Bundler.ExtractedStorage
import Bundler.CallDataCosts
import Bundler.FeeBumps
import Bundler.HexlifiedValues
import Bundler.AccessMaps
import Bundler.AnsweredSteps
import Bundler.StorageAccesses
import Bundler.PendingQueue
import Bundler.BundleProcessor
import Bundler.Accountability
import Bundler.DebugApi
import Bundler.SubmittedOperations
import Bundler.OperationLookup
import Bundler.Credits
import Bundler.EarnedSanctions
import Bundler.AutoBundling
import Bundler.LookUps
