import ShaderGraph.Main
import ShaderGraph.Session
import ShaderGraph.Proofs.Graph.Editing
import ShaderGraph.Proofs.Generation.Calls
import ShaderGraph.Proofs.Generation.Detachment
import ShaderGraph.Proofs.Graph.Numbering
import ShaderGraph.Proofs.Generation.Accounting
import ShaderGraph.Proofs.Generation.Cone
import ShaderGraph.Proofs.Generation.Preview
import ShaderGraph.Proofs.Generation.Constants
import ShaderGraph.Proofs.Generation.Declarations
import ShaderGraph.Proofs.Generation.Renaming
import ShaderGraph.Proofs.Graph.Loading
import ShaderGraph.Proofs.CommandLine
import ShaderGraph.Proofs.SettingsDocument
import ShaderGraph.Proofs.TypeResolution.Solution
import ShaderGraph.Proofs.Graph.Configuring
import ShaderGraph.Proofs.Graph.Revalidation
import ShaderGraph.Proofs.Graph.Rules
import ShaderGraph.Proofs.Generation.Appending
import ShaderGraph.Proofs.Generation.FragmentInput
