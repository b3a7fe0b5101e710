import StructInventory.CommandLine.Arguments
import StructInventory.CommandLine.LogFilter
import StructInventory.CommandLine.Run
import StructInventory.Comment.Group
import StructInventory.Comment.Piece
import StructInventory.Comment.Search
import StructInventory.Condition
import StructInventory.Descriptor
import StructInventory.Destination
import StructInventory.Document
import StructInventory.FileScan
import StructInventory.FileTree
import StructInventory.Generation
import StructInventory.Grammar.Attribute
import StructInventory.Grammar.Bound
import StructInventory.Grammar.Cursor
import StructInventory.Grammar.Expr
import StructInventory.Grammar.Field
import StructInventory.Grammar.File
import StructInventory.Grammar.Item
import StructInventory.Grammar.Member
import StructInventory.Grammar.Nonterminal
import StructInventory.Grammar.Path
import StructInventory.Grammar.Pattern
import StructInventory.Grammar.Reader
import StructInventory.Grammar.Signature
import StructInventory.Grammar.Statement
import StructInventory.Grammar.Type
import StructInventory.Json
import StructInventory.Loader
import StructInventory.Main
import StructInventory.Naming
import StructInventory.OptionWord
import StructInventory.Package
import StructInventory.PathText
import StructInventory.Pattern.CharSet
import StructInventory.Pattern.Property
import StructInventory.Pattern.Reader
import StructInventory.Pattern.Regex
import StructInventory.Rendering
import StructInventory.Resolution
import StructInventory.Scope
import StructInventory.Settings.Layer
import StructInventory.Settings.NameFilter
import StructInventory.Settings.Resolve
import StructInventory.SortedMap
import StructInventory.Sorting
import StructInventory.SourceFile
import StructInventory.Text.CaseMap
import StructInventory.Text.Category
import StructInventory.Text.Escaped
import StructInventory.Text.Lowercase
import StructInventory.Text.Pos
import StructInventory.Text.Property
import StructInventory.Text.RangeSet
import StructInventory.Text.Respacing
import StructInventory.Text.Script
import StructInventory.Token.Basic
import StructInventory.Token.Lexer
import StructInventory.Token.Literal
import StructInventory.Token.Print
import StructInventory.Token.TextValue
import StructInventory.Token.Word
import StructInventory.Toml.Reader
import StructInventory.Toml.Value
import StructInventory.TypeDesc
import StructInventory.TypeExpr
import StructInventory.Walk
import StructInventory.Proofs.BuildCondition
import StructInventory.Proofs.SortedMap
import StructInventory.Proofs.PackageScope
import StructInventory.Proofs.ErasedPackage
import StructInventory.Proofs.FieldChain
import StructInventory.Proofs.FlatDocument
import StructInventory.Proofs.NestedDocument
import StructInventory.Proofs.DepthBound
import StructInventory.Proofs.CharClass
import StructInventory.Proofs.LexicalElement
import StructInventory.Proofs.CommentGroup
import StructInventory.Proofs.LoaderRun
import StructInventory.Proofs.EntryPath
import StructInventory.Proofs.DirectoryListing
import StructInventory.Proofs.FailedLoad
import StructInventory.Proofs.DirectoryStructs
import StructInventory.Proofs.Position
import StructInventory.Proofs.CommentSearch
import StructInventory.Proofs.TokenOrder
import StructInventory.Proofs.ReaderRun
import StructInventory.Proofs.AttributeRun
import StructInventory.Proofs.ItemReader
import StructInventory.Proofs.DeclarationRun
import StructInventory.Proofs.DeclarationOrder
import StructInventory.Proofs.DeclarationSite
import StructInventory.Proofs.DocComment
import StructInventory.Proofs.FieldCycle
import StructInventory.Proofs.HiddenMember
import StructInventory.Proofs.WalkRun
import StructInventory.Proofs.PathBelow
import StructInventory.Proofs.StructName
import StructInventory.Proofs.LoadedStruct
import StructInventory.Proofs.WalkedStruct
import StructInventory.Proofs.DestinationPath
import StructInventory.Proofs.SeveralDirectories
import StructInventory.Proofs.UnmentionedFeature
import StructInventory.Proofs.QualifiedName
import StructInventory.Proofs.PrintedType
import StructInventory.Proofs.TokenLayout
import StructInventory.Proofs.ForwardRun
import StructInventory.Proofs.PathRun
import StructInventory.Proofs.TypeGrammar
import StructInventory.Proofs.ArgumentRun
import StructInventory.Proofs.BoundRun
import StructInventory.Proofs.ProperTokens
import StructInventory.Proofs.RespacedText
import StructInventory.Proofs.TypeSpacing
import StructInventory.Proofs.AcceptedType
import StructInventory.Proofs.TypeText
import StructInventory.Proofs.PositionalSearch
import StructInventory.Proofs.AliasChain
import StructInventory.Proofs.AcceptedItem
import StructInventory.Proofs.FieldStruct
import StructInventory.Proofs.SelfType
import StructInventory.Proofs.GroupPlacement
import StructInventory.Proofs.ByteOrder
import StructInventory.Proofs.CommentText
import StructInventory.Proofs.VisibleDirectory
import StructInventory.Proofs.ShownFile
import StructInventory.Proofs.LiteralPattern
import StructInventory.Proofs.CheckedSettings
import StructInventory.Proofs.SnakeCase
import StructInventory.Proofs.StructOrder
import StructInventory.Proofs.ListingOrder
import StructInventory.Proofs.QuestionCount
import StructInventory.Proofs.ScopeHistory
