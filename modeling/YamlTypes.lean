import YamlTypes.Command.Run
import YamlTypes.Declaration
import YamlTypes.Discovery
import YamlTypes.Generation
import YamlTypes.Include.Expansion
import YamlTypes.Inference
import YamlTypes.Main
import YamlTypes.ModuleBody
import YamlTypes.Options
import YamlTypes.Transform
import YamlTypes.Yaml.Decode
import YamlTypes.Proofs.Include.Derivation
import YamlTypes.Proofs.Include.Emission
import YamlTypes.Proofs.Include.Cycle
import YamlTypes.Proofs.Include.Termination
import YamlTypes.Proofs.Include.Agreement
import YamlTypes.Proofs.Include.Unguarded
import YamlTypes.Proofs.Include.Position
import YamlTypes.Proofs.Include.Preorder
import YamlTypes.Proofs.Path.Names
import YamlTypes.Proofs.Workspace.Expansion
import YamlTypes.Proofs.Workspace.Watch
import YamlTypes.Proofs.Include.Join
import YamlTypes.Proofs.Fields
import YamlTypes.Proofs.Types.Unambiguous
import YamlTypes.Proofs.Yaml.Decoded
import YamlTypes.Proofs.Types.Inferred
import YamlTypes.Proofs.Include.OwnChain
import YamlTypes.Proofs.Include.Grammar
import YamlTypes.Proofs.Workspace.GivenByPath
import YamlTypes.Proofs.Workspace.Writing
import YamlTypes.Proofs.Path.Steps
import YamlTypes.Proofs.Discovery.Found
import YamlTypes.Proofs.Command.Declarations
import YamlTypes.Proofs.Yaml.Tree
import YamlTypes.Proofs.Yaml.Merging
import YamlTypes.Proofs.Yaml.KeyNames
import YamlTypes.Proofs.Yaml.MergeKeys
import YamlTypes.Proofs.Yaml.MergeRule
import YamlTypes.Proofs.Yaml.MergedFields
import YamlTypes.Proofs.Yaml.Secrecy
import YamlTypes.Proofs.Yaml.KeyOrder
import YamlTypes.Proofs.Discovery.Order
import YamlTypes.Proofs.Workspace.Frame
import YamlTypes.Proofs.Workspace.Place
import YamlTypes.Proofs.Command.Generation
import YamlTypes.Proofs.Discovery.Unseen
import YamlTypes.Proofs.Command.Repetition
import YamlTypes.Proofs.Text.Lines
import YamlTypes.Proofs.Text.Utf8
import YamlTypes.Proofs.Include.Encodings
import YamlTypes.Proofs.Types.Variants
import YamlTypes.Proofs.Types.Indents
import YamlTypes.Proofs.Types.Texts
import YamlTypes.Proofs.Types.Unions
import YamlTypes.Proofs.Include.Splices
import YamlTypes.Proofs.Yaml.RepeatedKeys
import YamlTypes.Proofs.Yaml.Emptiness
import YamlTypes.Proofs.Path.Canonical
import YamlTypes.Proofs.Include.Targets
import YamlTypes.Proofs.Command.Effects
import YamlTypes.Proofs.Discovery.Reached
import YamlTypes.Proofs.Discovery.Exact
import YamlTypes.Proofs.Workspace.Following
import YamlTypes.Proofs.Discovery.Spelling
import YamlTypes.Proofs.Json.Reading
import YamlTypes.Proofs.Number.Literals
import YamlTypes.Proofs.Json.Erasure
import YamlTypes.Proofs.Include.Placement
import YamlTypes.Proofs.Include.Expression
import YamlTypes.Proofs.Include.Scan
import YamlTypes.Proofs.Json.Compact
import YamlTypes.Proofs.Options
import YamlTypes.Proofs.Number.Places
import YamlTypes.Proofs.Number.Shortest
import YamlTypes.Proofs.Number.Denotation
import YamlTypes.Proofs.Number.Integers
import YamlTypes.Proofs.Number.Printed
