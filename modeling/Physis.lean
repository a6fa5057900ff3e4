import Physis.Library.MixedRadix
import Physis.Library.RowMajor
import Physis.Library.Segments
import Physis.Library.Runs
import Physis.Library.FallibleMaps
import Physis.Library.StridedLoops
import Physis.Library.Channels
import Physis.Library.Transfers
import Physis.Runtime.IntegerArray
import Physis.Runtime.GridSpace
import Physis.Runtime.GridUtil
import Physis.Runtime.GridMPI
import Physis.Runtime.HaloPacking
import Physis.Runtime.Neighbors
import Physis.Runtime.ExchangeBoundaries
import Physis.Runtime.ExchangeScript
import Physis.Runtime.ExchangeMatching
import Physis.Runtime.ExchangeProgress
import Physis.Runtime.ExchangeContents
import Physis.Runtime.ExchangeDelivery
import Physis.Runtime.ExchangeOccupancy
import Physis.Runtime.HaloIterations
import Physis.Runtime.HaloSends
import Physis.Runtime.HaloSendRuns
import Physis.Library.ServiceRounds
import Physis.Library.ServiceSteps
import Physis.Library.ServiceRuns
import Physis.Library.Networks
import Physis.Runtime.FetchInfo
import Physis.Runtime.LoadSubgrid
import Physis.Runtime.LoadRounds
import Physis.Runtime.LoadSteps
import Physis.Runtime.ArrayOrder
import Physis.Runtime.Domain
import Physis.Runtime.DomainCoverage
import Physis.Runtime.GridRegistry
import Physis.Runtime.GridNew
import Physis.Runtime.GridLockstep
import Physis.Runtime.DomainBoundary
import Physis.Runtime.OverlapSchedule
import Physis.Runtime.OverlapCoverage
import Physis.Translator.StencilRange
import Physis.Runtime.LoadSubgridRegion
import Physis.Runtime.LoadNeighbor
import Physis.Library.Reductions
import Physis.Runtime.ReduceGrid
import Physis.Runtime.Initialization
import Physis.Library.Determinacy
import Physis.Library.Conversations
import Physis.Runtime.GridCopy
import Physis.Runtime.LoadContents
import Physis.Runtime.LoadRuns
import Physis.Runtime.GridAccess
import Physis.Runtime.GridAccessRuns
import Physis.Runtime.ReplyBuffers
import Physis.Runtime.FetchPartition
import Physis.Runtime.SubgridBytes
import Physis.Runtime.GridAddressing
import Physis.Runtime.HaloAddressing
import Physis.Runtime.HaloAddressingRuns
import Physis.Runtime.Buffer
import Physis.Runtime.GridDev
import Physis.Translator.GetKernel
import Physis.Library.Stores
import Physis.Runtime.GridMPICUDA
import Physis.Translator.HaloFreeKernels
import Physis.Library.Commuting
import Physis.Runtime.StagedExchange
import Physis.Runtime.LoadReuse
import Physis.Runtime.ExchangeFrame
import Physis.Translator.RemoteRegions
import Physis.Library.MachineIntegers
import Physis.Runtime.AddressArithmetic
import Physis.Runtime.PeriodicOffsets
import Physis.Runtime.ReduceGridPitch
import Physis.Translator.StencilAnalysis
import Physis.Library.GrowingLoops
import Physis.Translator.GridVars
import Physis.Translator.KernelSummaries
import Physis.Translator.NeighborRange
import Physis.Translator.LoopPeeling
import Physis.Translator.DeadConditions
import Physis.Translator.CommonTerms
import Physis.Runtime.HaloElements
import Physis.Translator.GridRangeEmission
import Physis.Translator.OffsetExpressions
import Physis.Translator.OffsetCse
import Physis.Translator.OffsetSpatialCse
import Physis.Translator.RegisterBlocking
import Physis.Translator.RegisterLines
import Physis.Translator.RegisterValues
import Physis.Translator.RegisterLoads
import Physis.Translator.AliasAnalysis
import Physis.Translator.LoopInvariants
import Physis.Translator.DeadCode
import Physis.Translator.DeadCodeRuns
import Physis.Translator.ConditionalGets
import Physis.Translator.ConditionalGetRuns
import Physis.Library.Talks
import Physis.Runtime.ReferenceRuntime
import Physis.Runtime.RpcTalks
import Physis.Runtime.RpcAgreement
import Physis.Runtime.RpcRuns
import Physis.Runtime.RpcSession
import Physis.Library.IntegerTypes
import Physis.Library.NetworkProgress
import Physis.Runtime.LoadProgress
import Physis.Runtime.AccessSessions
import Physis.Runtime.AccessRuns
import Physis.Library.Precedence
import Physis.Runtime.SendOrder
import Physis.Runtime.SendOrderRuns
import Physis.Runtime.LoadEntry
import Physis.Runtime.ExchangeEntry
import Physis.Runtime.StencilRuns
import Physis.Runtime.WholeGrids
import Physis.Runtime.RunInvariants
import Physis.Runtime.RunSteps
import Physis.Runtime.RemoteCopies
import Physis.Runtime.RunBodies
