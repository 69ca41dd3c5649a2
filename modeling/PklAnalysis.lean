import PklAnalysis.Editor.Completion
import PklAnalysis.Editor.Definition
import PklAnalysis.Editor.Hover
import PklAnalysis.Node.Code
import PklAnalysis.Node.Parts
import PklAnalysis.Proofs.Analysis.Calls
import PklAnalysis.Proofs.Analysis.Commas
import PklAnalysis.Proofs.Analysis.Defaults
import PklAnalysis.Proofs.Analysis.Delimiters
import PklAnalysis.Proofs.Document.Listing
import PklAnalysis.Proofs.Editor.Completion
import PklAnalysis.Proofs.Editor.Offset
import PklAnalysis.Proofs.Grammar.Balance
import PklAnalysis.Proofs.Grammar.BindingPower
import PklAnalysis.Proofs.Grammar.ErrorNode
import PklAnalysis.Proofs.Grammar.ErrorOrder
import PklAnalysis.Proofs.Grammar.Followed
import PklAnalysis.Proofs.Grammar.LeadingToken
import PklAnalysis.Proofs.Grammar.Machine
import PklAnalysis.Proofs.Grammar.NewLine
import PklAnalysis.Proofs.Grammar.ObjectElements
import PklAnalysis.Proofs.Grammar.OperatorParse
import PklAnalysis.Proofs.Grammar.Termination
import PklAnalysis.Proofs.Inference.Access
import PklAnalysis.Proofs.Inference.ClassWalk
import PklAnalysis.Proofs.Inference.Finality
import PklAnalysis.Proofs.Inference.Generator
import PklAnalysis.Proofs.Inference.Join
import PklAnalysis.Proofs.Inference.LostWalk
import PklAnalysis.Proofs.Inference.ModuleChain
import PklAnalysis.Proofs.Inference.Nullability
import PklAnalysis.Proofs.Inference.Substitution
import PklAnalysis.Proofs.Inference.Subtype
import PklAnalysis.Proofs.Inference.Termination
import PklAnalysis.Proofs.Lookup.Let
import PklAnalysis.Proofs.Lookup.Locality
import PklAnalysis.Proofs.Messages
import PklAnalysis.Proofs.Node.Required
import PklAnalysis.Proofs.Node.StringValue
import PklAnalysis.Proofs.Node.TypeParts
import PklAnalysis.Proofs.Text.Lines
import PklAnalysis.Proofs.Ty.Composition
import PklAnalysis.Proofs.Uri
import PklAnalysis.Proofs.Workspace.Arrival
import PklAnalysis.Proofs.Workspace.Cancellation
import PklAnalysis.Proofs.Workspace.Coherence
import PklAnalysis.Workspace.Directory
