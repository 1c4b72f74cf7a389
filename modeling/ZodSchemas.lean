import ZodSchemas.Assembly.Composite
import ZodSchemas.Assembly.Field
import ZodSchemas.Assembly.HostType
import ZodSchemas.Assembly.Operation
import ZodSchemas.Assembly.Plan
import ZodSchemas.Assembly.Projection
import ZodSchemas.Check.Finding
import ZodSchemas.Check.Given
import ZodSchemas.Check.Metadata
import ZodSchemas.Check.Reference
import ZodSchemas.Check.Settings
import ZodSchemas.CommandLine.Arguments
import ZodSchemas.CommandLine.Command
import ZodSchemas.CommandLine.Option
import ZodSchemas.CommandLine.Word
import ZodSchemas.Data.Moment
import ZodSchemas.Data.Value
import ZodSchemas.Decode.Assignment
import ZodSchemas.Decode.Decoded
import ZodSchemas.Decode.File
import ZodSchemas.Decode.Issue
import ZodSchemas.Decode.Metadata
import ZodSchemas.Decode.Plain
import ZodSchemas.Decode.Record
import ZodSchemas.Decode.Settings
import ZodSchemas.Decode.Summary
import ZodSchemas.Encode.Context
import ZodSchemas.Encode.Expr
import ZodSchemas.Encode.File
import ZodSchemas.Encode.Holder
import ZodSchemas.Encode.Metadata
import ZodSchemas.Encode.SchemaUnit
import ZodSchemas.Encode.Settings
import ZodSchemas.Export.Exporter
import ZodSchemas.Export.Manifest
import ZodSchemas.Export.Session
import ZodSchemas.Expr.Basic
import ZodSchemas.Expr.Render
import ZodSchemas.FilePath
import ZodSchemas.FileTree.Basic
import ZodSchemas.FileTree.Change
import ZodSchemas.FileTree.Fault
import ZodSchemas.Generation.Report
import ZodSchemas.Generation.Run
import ZodSchemas.Generation.Summary
import ZodSchemas.Json.Error
import ZodSchemas.Json.Printer
import ZodSchemas.Json.Reader
import ZodSchemas.Main
import ZodSchemas.Metadata.Document
import ZodSchemas.Metadata.Vocabulary
import ZodSchemas.Number.Double
import ZodSchemas.Number.Numeral
import ZodSchemas.Number.Shortest
import ZodSchemas.Path
import ZodSchemas.Proofs.Tables
import ZodSchemas.Question
import ZodSchemas.SchemaUnit.Basic
import ZodSchemas.SchemaUnit.Import
import ZodSchemas.SchemaUnit.Render
import ZodSchemas.Settings.Basic
import ZodSchemas.Source.Document
import ZodSchemas.Source.Fault
import ZodSchemas.Source.Input
import ZodSchemas.Source.Layout
import ZodSchemas.Source.Load
import ZodSchemas.Source.Override
import ZodSchemas.Text.Base64
import ZodSchemas.Text.CamelCase
import ZodSchemas.Text.Case
import ZodSchemas.Text.CaseTable
import ZodSchemas.Text.CharClass
import ZodSchemas.Text.CodePoint
import ZodSchemas.Text.Digest
import ZodSchemas.Text.Identifier
import ZodSchemas.Text.Layout
import ZodSchemas.Text.Literal
import ZodSchemas.Text.Parts
import ZodSchemas.Text.Utf8
import ZodSchemas.Yaml.Block
import ZodSchemas.Yaml.Cursor
import ZodSchemas.Yaml.Document
import ZodSchemas.Yaml.Fault
import ZodSchemas.Yaml.Lexer
import ZodSchemas.Yaml.Merge
import ZodSchemas.Yaml.Node
import ZodSchemas.Yaml.Number
import ZodSchemas.Yaml.Object
import ZodSchemas.Yaml.Plain
import ZodSchemas.Yaml.Property
import ZodSchemas.Yaml.Quoted
import ZodSchemas.Yaml.Scalar
import ZodSchemas.Yaml.Tag
import ZodSchemas.Yaml.Timestamp
import ZodSchemas.Yaml.Token
import ZodSchemas.Yaml.Value
import ZodSchemas.Proofs.UnitNames
import ZodSchemas.Proofs.PlannedUnits
import ZodSchemas.Proofs.Projections
import ZodSchemas.Proofs.EagerReferences
import ZodSchemas.Proofs.EvaluationOrder
import ZodSchemas.Proofs.DanglingReferences
import ZodSchemas.Proofs.Rendering
import ZodSchemas.Proofs.References
import ZodSchemas.Proofs.UnitCollisions
import ZodSchemas.Proofs.ImportClosure
import ZodSchemas.Proofs.FieldForms
import ZodSchemas.Proofs.ModuleImports
import ZodSchemas.Proofs.Confinement
import ZodSchemas.Proofs.SecondReading
import ZodSchemas.Proofs.ProjectionClosure
import ZodSchemas.Proofs.TaskRuns
import ZodSchemas.Proofs.UnknownModels
import ZodSchemas.Proofs.InputReading
import ZodSchemas.Proofs.ProviderOverrides
import ZodSchemas.Proofs.DistinctKeys
import ZodSchemas.Proofs.SettingsSpelling
import ZodSchemas.Proofs.CommandModes
import ZodSchemas.Proofs.SectionReading
import ZodSchemas.Proofs.KeySpellings
import ZodSchemas.Proofs.SectionLayouts
import ZodSchemas.Proofs.CompiledFiles
import ZodSchemas.Proofs.IndexLines
import ZodSchemas.Proofs.ContextFrames
import ZodSchemas.Proofs.DerivedTables
import ZodSchemas.Proofs.Rearrangement
import ZodSchemas.Proofs.CodePoints
import ZodSchemas.Proofs.PlainTrees
import ZodSchemas.Proofs.Changes
import ZodSchemas.Proofs.Directories
import ZodSchemas.Proofs.Cleaning
import ZodSchemas.Proofs.FileWriting
import ZodSchemas.Proofs.WholeTexts
import ZodSchemas.Proofs.ExportRuns
import ZodSchemas.Proofs.OutputDirectories
import ZodSchemas.Proofs.RepeatedExports
import ZodSchemas.Proofs.OrdinaryPlaces
import ZodSchemas.Proofs.ExportOutcomes
import ZodSchemas.Proofs.ExportRecords
import ZodSchemas.Proofs.UnfinishedRuns
import ZodSchemas.Proofs.Formats
import ZodSchemas.Proofs.UnknownKeys
import ZodSchemas.Proofs.SelfReferences
import ZodSchemas.Proofs.RelativeSpecifiers
import ZodSchemas.Proofs.HostModules
import ZodSchemas.Proofs.SchemasDirectory
import ZodSchemas.Proofs.QuotedStrings
import ZodSchemas.Proofs.TextReading
import ZodSchemas.Proofs.ExpressionReading
import ZodSchemas.Proofs.UnambiguousTexts
import ZodSchemas.Proofs.OmittedFields
import ZodSchemas.Proofs.BulkQueries
import ZodSchemas.Proofs.ExpressionNodes
import ZodSchemas.Proofs.ObjectKeys
import ZodSchemas.Proofs.BoundNames
import ZodSchemas.Proofs.ModuleReferences
import ZodSchemas.Proofs.ModuleScopes
import ZodSchemas.Proofs.AggregateFields
import ZodSchemas.Proofs.Interruptions
import ZodSchemas.Proofs.WellShapedSections
import ZodSchemas.Proofs.ReportedFaults
import ZodSchemas.Proofs.ExitCodes
import ZodSchemas.Proofs.SettingsOverrides
import ZodSchemas.Proofs.FlatSections
import ZodSchemas.Proofs.PropertyNames
import ZodSchemas.Proofs.OpenPlaces
import ZodSchemas.Proofs.RepeatedEnums
import ZodSchemas.Proofs.OperationSets
import ZodSchemas.Proofs.MappingEntries
import ZodSchemas.Proofs.ProjectionNames
import ZodSchemas.Proofs.FollowedPaths
import ZodSchemas.Proofs.LinkedEntries
import ZodSchemas.Proofs.ClosedTexts
import ZodSchemas.Proofs.ReusedExporters
import ZodSchemas.Proofs.Traversals
