import OperatorChart.BlankRuns
import OperatorChart.Block
import OperatorChart.CertificateGuard
import OperatorChart.CommandLine
import OperatorChart.CommandLine.Argument
import OperatorChart.CommandLine.Request
import OperatorChart.Condition
import OperatorChart.Container
import OperatorChart.Directive
import OperatorChart.Failure
import OperatorChart.FileTree
import OperatorChart.Line
import OperatorChart.Main
import OperatorChart.Manifest
import OperatorChart.Naming
import OperatorChart.Outcome
import OperatorChart.Pass
import OperatorChart.Path
import OperatorChart.Probe
import OperatorChart.Project
import OperatorChart.Proofs.AddedLines
import OperatorChart.Proofs.ArgsEdit
import OperatorChart.Proofs.ArgsPass
import OperatorChart.Proofs.BlankRuns
import OperatorChart.Proofs.Blocks
import OperatorChart.Proofs.BuildNames
import OperatorChart.Proofs.CertificateGuards
import OperatorChart.Proofs.CertificatePaths
import OperatorChart.Proofs.Decorations
import OperatorChart.Proofs.DeploymentIdempotence
import OperatorChart.Proofs.DeploymentRuns
import OperatorChart.Proofs.DocumentLines
import OperatorChart.Proofs.DocumentPlaces
import OperatorChart.Proofs.DocumentRuns
import OperatorChart.Proofs.FieldEdits
import OperatorChart.Proofs.FieldFrames
import OperatorChart.Proofs.FieldIdempotence
import OperatorChart.Proofs.FieldLines
import OperatorChart.Proofs.FieldMoves
import OperatorChart.Proofs.FieldOrder
import OperatorChart.Proofs.FieldSteps
import OperatorChart.Proofs.FileWrites
import OperatorChart.Proofs.FlowArguments
import OperatorChart.Proofs.Groups
import OperatorChart.Proofs.GuardLines
import OperatorChart.Proofs.GuardMoves
import OperatorChart.Proofs.GuardNesting
import OperatorChart.Proofs.GuardPasses
import OperatorChart.Proofs.GuardSteps
import OperatorChart.Proofs.GuardedDocuments
import OperatorChart.Proofs.GuardedTwice
import OperatorChart.Proofs.Idempotence
import OperatorChart.Proofs.ImageEdit
import OperatorChart.Proofs.ImageKeys
import OperatorChart.Proofs.ImagePass
import OperatorChart.Proofs.IndentedEdits
import OperatorChart.Proofs.IndentedTexts
import OperatorChart.Proofs.IssuerOverlap
import OperatorChart.Proofs.IssuerReferences
import OperatorChart.Proofs.ItemNesting
import OperatorChart.Proofs.ItemScopes
import OperatorChart.Proofs.KeyEdits
import OperatorChart.Proofs.KeyPrefix
import OperatorChart.Proofs.LineEndPasses
import OperatorChart.Proofs.LineEndRuns
import OperatorChart.Proofs.LineEndTexts
import OperatorChart.Proofs.LineEnds
import OperatorChart.Proofs.LineOperations
import OperatorChart.Proofs.LineShape
import OperatorChart.Proofs.ListKeys
import OperatorChart.Proofs.LocatedBlocks
import OperatorChart.Proofs.LowerCasePaths
import OperatorChart.Proofs.ManagerEdits
import OperatorChart.Proofs.ManagerKeys
import OperatorChart.Proofs.ManagerPlaces
import OperatorChart.Proofs.ManagerSwaps
import OperatorChart.Proofs.Managers
import OperatorChart.Proofs.MonitorNames
import OperatorChart.Proofs.MonitorNesting
import OperatorChart.Proofs.Moves
import OperatorChart.Proofs.NamedItemEdits
import OperatorChart.Proofs.NamedItems
import OperatorChart.Proofs.NamedLines
import OperatorChart.Proofs.Naming
import OperatorChart.Proofs.NamingNesting
import OperatorChart.Proofs.NamingShape
import OperatorChart.Proofs.NamingStability
import OperatorChart.Proofs.Nesting
import OperatorChart.Proofs.OuterItems
import OperatorChart.Proofs.PathResolution
import OperatorChart.Proofs.Plans
import OperatorChart.Proofs.PodContexts
import OperatorChart.Proofs.PodEdits
import OperatorChart.Proofs.RebuiltArguments
import OperatorChart.Proofs.Rejections
import OperatorChart.Proofs.RemovedRuns
import OperatorChart.Proofs.RenderedLines
import OperatorChart.Proofs.ReplacedValues
import OperatorChart.Proofs.Replacement
import OperatorChart.Proofs.RunResults
import OperatorChart.Proofs.Runs
import OperatorChart.Proofs.Sections
import OperatorChart.Proofs.SettledValues
import OperatorChart.Proofs.Steps
import OperatorChart.Proofs.Swaps
import OperatorChart.Proofs.TargetFiles
import OperatorChart.Proofs.Targets
import OperatorChart.Proofs.TemplatesDirectory
import OperatorChart.Proofs.Trim
import OperatorChart.Proofs.ValuePasses
import OperatorChart.Proofs.WrapNesting
import OperatorChart.Proofs.WrapStability
import OperatorChart.Proofs.WrittenLines
import OperatorChart.Rendering
import OperatorChart.Resource
import OperatorChart.Run
import OperatorChart.Target
import OperatorChart.Templater
import OperatorChart.Text.Basic
import OperatorChart.Text.Lines
import OperatorChart.Text.LowerCase
import OperatorChart.Text.Quoted
import OperatorChart.Unicode.CaseIgnorable
import OperatorChart.Unicode.Cased
import OperatorChart.Unicode.GraphemeExtend
import OperatorChart.Unicode.LowerCase
import OperatorChart.Unicode.Ranges
import OperatorChart.Unicode.Unprintable
import OperatorChart.Unicode.WhiteSpace
import OperatorChart.Values.Args
import OperatorChart.Values.Field
import OperatorChart.Values.Image
import OperatorChart.Workspace
import OperatorChart.Wrap
import OperatorChart.Yaml.Node
import OperatorChart.Yaml.Node.Reader
import OperatorChart.Yaml.Record
import OperatorChart.Yaml.Scalar
import OperatorChart.Yaml.Source
import OperatorChart.Yaml.Token
import OperatorChart.Yaml.Token.Lexer
import OperatorChart.Yaml.Token.Tag
