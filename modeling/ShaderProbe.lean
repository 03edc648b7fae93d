import ShaderProbe.Probe
import ShaderProbe.Proofs.FunctionLoops
import ShaderProbe.Proofs.CapEffect
import ShaderProbe.Proofs.CapNumbers
import ShaderProbe.Proofs.StrayBraces
import ShaderProbe.Proofs.CopiedHeader
import ShaderProbe.Proofs.TypeScope
import ShaderProbe.Proofs.CopyReturns
import ShaderProbe.Proofs.ElseBranch
import ShaderProbe.Proofs.CapturedReturn
import ShaderProbe.Proofs.ReadInScope
import ShaderProbe.Proofs.StatementSpans
import ShaderProbe.Proofs.OutlineOrder
import ShaderProbe.Proofs.LoopRecords
import ShaderProbe.Proofs.PassedArguments
import ShaderProbe.Proofs.ParameterLists
import ShaderProbe.Proofs.Comparisons
import ShaderProbe.Proofs.PostProcessing
import ShaderProbe.Proofs.NearestLine
import ShaderProbe.Proofs.CommentReading
import ShaderProbe.Proofs.ClosedBlocks
import ShaderProbe.Proofs.DeclaredParameters
import ShaderProbe.Proofs.OffsetPlaces
