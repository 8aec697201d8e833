import ShaderInterface.Named

/-!
# System values

The meanings that a signature element can have for the pipeline.
-/

namespace ShaderInterface

/-- What the pipeline uses a signature element for. -/
inductive SystemValue where
  | undefined
  | position
  | clipDistance
  | cullDistance
  | renderTargetArrayIndex
  | viewportArrayIndex
  | vertexId
  | primitiveId
  | instanceId
  | isFrontFace
  | sampleIndex
  | finalQuadEdgeTessFactor
  | finalQuadInsideTessFactor
  | finalTriEdgeTessFactor
  | finalTriInsideTessFactor
  | finalLineDetailTessFactor
  | finalLineDensityTessFactor
  | target
  | depth
  | coverage
  | depthGreaterEqual
  | depthLessEqual
  | stencilRef
  | innerCoverage
deriving DecidableEq, Repr

namespace SystemValue

/-- The values numbered from 0 on. -/
def pipelineValues : List SystemValue :=
  [undefined, position, clipDistance, cullDistance, renderTargetArrayIndex, viewportArrayIndex,
    vertexId, primitiveId, instanceId, isFrontFace, sampleIndex, finalQuadEdgeTessFactor,
    finalQuadInsideTessFactor, finalTriEdgeTessFactor, finalTriInsideTessFactor,
    finalLineDetailTessFactor, finalLineDensityTessFactor]

/-- The values of pixel outputs, numbered from 64 on. -/
def pixelOutputs : List SystemValue :=
  [target, depth, coverage, depthGreaterEqual, depthLessEqual, stencilRef, innerCoverage]

instance : Named SystemValue where
  values := pipelineValues ++ pixelOutputs
  name
    | undefined => "Undefined"
    | position => "Position"
    | clipDistance => "ClipDistance"
    | cullDistance => "CullDistance"
    | renderTargetArrayIndex => "RenderTargetArrayIndex"
    | viewportArrayIndex => "ViewportArrayIndex"
    | vertexId => "VertexId"
    | primitiveId => "PrimitiveId"
    | instanceId => "InstanceId"
    | isFrontFace => "IsFrontFace"
    | sampleIndex => "SampleIndex"
    | finalQuadEdgeTessFactor => "FinalQuadEdgeTessFactor"
    | finalQuadInsideTessFactor => "FinalQuadInsideTessFactor"
    | finalTriEdgeTessFactor => "FinalTriEdgeTessFactor"
    | finalTriInsideTessFactor => "FinalTriInsideTessFactor"
    | finalLineDetailTessFactor => "FinalLineDetailTessFactor"
    | finalLineDensityTessFactor => "FinalLineDensityTessFactor"
    | target => "Target"
    | depth => "Depth"
    | coverage => "Coverage"
    | depthGreaterEqual => "DepthGreaterEqual"
    | depthLessEqual => "DepthLessEqual"
    | stencilRef => "StencilRef"
    | innerCoverage => "InnerCoverage"

/-- The system value with a number in a bytecode container. -/
def ofCode? (code : UInt32) : Option SystemValue :=
  if code < 64 then pipelineValues[code.toNat]? else pixelOutputs[code.toNat - 64]?

end SystemValue
end ShaderInterface
