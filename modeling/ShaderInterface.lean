import ShaderInterface.Proofs.BoundBuffers
import ShaderInterface.Proofs.Buffer.DeclarationOrder
import ShaderInterface.Proofs.Buffer.DeclaredRange
import ShaderInterface.Proofs.Buffer.DistinctNames
import ShaderInterface.Proofs.Buffer.DynamicIndex
import ShaderInterface.Proofs.Buffer.ExactResolution
import ShaderInterface.Proofs.Buffer.Growth
import ShaderInterface.Proofs.Buffer.Outline
import ShaderInterface.Proofs.Buffer.Rebase
import ShaderInterface.Proofs.Buffer.ResolutionTrace
import ShaderInterface.Proofs.Buffer.SafeResolution
import ShaderInterface.Proofs.Buffer.Substitution
import ShaderInterface.Proofs.Buffer.TypeTable
import ShaderInterface.Proofs.Layout.StructIndex
import ShaderInterface.Proofs.Resource.AnnotationRun
import ShaderInterface.Proofs.Resource.BindingRanges
import ShaderInterface.Proofs.Resource.HintHistory
import ShaderInterface.Proofs.Signature.Locality
import ShaderInterface.Proofs.Signature.MaskedLookup
import ShaderInterface.Shader
