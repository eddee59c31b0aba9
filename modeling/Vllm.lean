import Vllm.Core.AutoFit
import Vllm.Core.EagleHits
import Vllm.Core.EncoderSupply
import Vllm.Core.EvictionOrder
import Vllm.Core.FirstComeRuns
import Vllm.Core.FreeQueueCalls
import Vllm.Core.GroupPartition
import Vllm.Core.HashIsolation
import Vllm.Core.MambaAdmission
import Vllm.Core.PrefixExtents
import Vllm.Core.PriorityRuns
import Vllm.Core.RecyclingBound
import Vllm.Core.SparseRetention
import Vllm.Core.StaleOutputs
import Vllm.Core.StepOutcome
import Vllm.Engine.CollectorRuns
import Vllm.Engine.ParallelRuns
import Vllm.Engine.StreamInterval
import Vllm.Eplb.ReplicateExperts
import Vllm.Kernels.GemvM
import Vllm.Parser.ContentStreams
import Vllm.Parser.Gemma4Args
import Vllm.Parser.MaximalMunch
import Vllm.Parser.ReasoningStreams
import Vllm.Parser.ToolIndices
import Vllm.Rocblas.ShimFailures
import Vllm.Sample.TargetLaw
import Vllm.SpecDecode.NgramAgreement
import Vllm.StructuredOutput.AdvanceRuns
import Vllm.StructuredOutput.GrammarTransparency
import Vllm.Worker.SlotMapping
