import ClassSchema.Decimal.Layout
import ClassSchema.Decimal.Reading
import ClassSchema.Text.Quoted
import ClassSchema.Text.Casing
import ClassSchema.Text.Blank
import ClassSchema.Json.Printer
import ClassSchema.Json.Parser
import ClassSchema.Yaml.Cursor
import ClassSchema.Yaml.Token
import ClassSchema.Yaml.Scalar
import ClassSchema.Yaml.Lexer
import ClassSchema.Yaml.Node
import ClassSchema.Yaml.Tree
import ClassSchema.Yaml.Plain
import ClassSchema.Yaml.Expansion
import ClassSchema.Yaml.AsJson
import ClassSchema.Naming
import ClassSchema.Ident
import ClassSchema.SlotType
import ClassSchema.SlotType.Codec
import ClassSchema.Scope
import ClassSchema.SchemaError
import ClassSchema.Document
import ClassSchema.Options
import ClassSchema.Accessor
import ClassSchema.Descriptor
import ClassSchema.SlotType.Reading
import ClassSchema.Inheritance
import ClassSchema.Compilation
import ClassSchema.Manifest
import ClassSchema.Store.Key
import ClassSchema.Store.Collection
import ClassSchema.Class
import ClassSchema.Store.Error
import ClassSchema.Registry
import ClassSchema.Store.Value
import ClassSchema.Store.Instance
import ClassSchema.Source
import ClassSchema.CommandLine.FileSystem
import ClassSchema.CommandLine.Arguments
import ClassSchema.CommandLine.Commands
import ClassSchema.Main
import ClassSchema.Proofs.Store.Action
import ClassSchema.Proofs.Ident
import ClassSchema.Proofs.Outcome
import ClassSchema.Proofs.Blank
import ClassSchema.Proofs.TypeToken
import ClassSchema.Proofs.TokenLayers
import ClassSchema.Proofs.Json.Keyed
import ClassSchema.Proofs.Document
import ClassSchema.Proofs.Compilation
import ClassSchema.Proofs.Acceptance
import ClassSchema.Proofs.Store.Key
import ClassSchema.Proofs.Entries
import ClassSchema.Proofs.Store.Collection
import ClassSchema.Proofs.ParentChain
import ClassSchema.Proofs.Linking
import ClassSchema.Proofs.CycleCheck
import ClassSchema.Proofs.Flattening
import ClassSchema.Proofs.Naming
import ClassSchema.Proofs.AccessorTable
import ClassSchema.Proofs.Store.ArraySlot
import ClassSchema.Proofs.Store.Atomicity
import ClassSchema.Proofs.AccessorName
import ClassSchema.Proofs.Ancestor
import ClassSchema.Proofs.Store.NamedAccess
import ClassSchema.Proofs.Store.SlotLocality
import ClassSchema.Proofs.Qualification.Descriptors
import ClassSchema.Proofs.Qualification.Classes
import ClassSchema.Proofs.Qualification.Store
import ClassSchema.Proofs.Qualification.Program
import ClassSchema.Proofs.Store.Bag
import ClassSchema.Proofs.Decimal.Finite
import ClassSchema.Proofs.Json.NormalForm
import ClassSchema.Proofs.References
import ClassSchema.Proofs.Store.ClosedClass
import ClassSchema.Proofs.Store.Decoding
import ClassSchema.Proofs.DeclarationOrder
import ClassSchema.Proofs.Metadata
import ClassSchema.Proofs.Decimal.Shortest
import ClassSchema.Proofs.Decimal.Layout
import ClassSchema.Proofs.Yaml.Tree
import ClassSchema.Proofs.Yaml.Reading
import ClassSchema.Proofs.Yaml.Key
import ClassSchema.Proofs.Yaml.AsJson
import ClassSchema.Proofs.CommandLine.Disk
import ClassSchema.Proofs.CommandLine.ManifestFiles
import ClassSchema.Proofs.TokenGrammar
import ClassSchema.Proofs.FailingToken
import ClassSchema.Proofs.LinkingCycle
import ClassSchema.Proofs.Store.Refusal
import ClassSchema.Proofs.Store.Frame
import ClassSchema.Proofs.Store.FullRendering
import ClassSchema.Proofs.Store.ArrayForm
import ClassSchema.Proofs.Store.Equality
import ClassSchema.Proofs.NameGrammar
import ClassSchema.Proofs.NameDefect
import ClassSchema.Proofs.PascalCase
import ClassSchema.Proofs.AccessorGrammar
import ClassSchema.Proofs.AccessorList
import ClassSchema.Proofs.Store.Mismatch
import ClassSchema.Proofs.Yaml.Image
import ClassSchema.Proofs.TypeCodec
import ClassSchema.Proofs.TypeRendering
