import Scaffold.Annotation
import Scaffold.Build
import Scaffold.Manifest
import Scaffold.Code
import Scaffold.Command
import Scaffold.CommandLine
import Scaffold.CommandLine.Argument
import Scaffold.CompileError
import Scaffold.Compiler
import Scaffold.Config
import Scaffold.Data
import Scaffold.Diagnostic
import Scaffold.Dialect
import Scaffold.FileTree
import Scaffold.HttpMethod
import Scaffold.ImportTable
import Scaffold.Lowering
import Scaffold.Main
import Scaffold.Markup
import Scaffold.Markup.Parser
import Scaffold.Model.Basic
import Scaffold.Model.Encoding
import Scaffold.Model.Term
import Scaffold.Naming
import Scaffold.Number.Binary64
import Scaffold.Number.Format
import Scaffold.Number.Reading
import Scaffold.Operator
import Scaffold.Output
import Scaffold.Path
import Scaffold.Platform
import Scaffold.Position
import Scaffold.Primitive
import Scaffold.Project
import Scaffold.Prompt
import Scaffold.Proofs.FileTree
import Scaffold.Proofs.Output
import Scaffold.Proofs.Path
import Scaffold.Proofs.Reading
import Scaffold.Proofs.SymbolTable
import Scaffold.Reply
import Scaffold.Session
import Scaffold.Source.Binding
import Scaffold.Source.Document
import Scaffold.Source.Name
import Scaffold.Source.Parser.Basic
import Scaffold.Source.Parser.Decl
import Scaffold.Source.Parser.Term
import Scaffold.Source.Shape
import Scaffold.Sql.Parameter
import Scaffold.Sql.Select
import Scaffold.Symbol
import Scaffold.Target.CSharp
import Scaffold.Target.Cpp
import Scaffold.Target.Dart
import Scaffold.Target.Go
import Scaffold.Target.Java
import Scaffold.Target.JavaScript
import Scaffold.Target.Kotlin
import Scaffold.Target.Python
import Scaffold.Target.Rust
import Scaffold.Target.Web
import Scaffold.Text.Basic
import Scaffold.Text.Letter
import Scaffold.Text.Case
import Scaffold.Text.Visible
import Scaffold.Text.Span
import Scaffold.Token
import Scaffold.Token.Lexer
import Scaffold.Url
import Scaffold.Yaml.Character
import Scaffold.Yaml.Cursor
import Scaffold.Yaml.Decoder
import Scaffold.Yaml.SyntaxFault
import Scaffold.Yaml.Node
import Scaffold.Yaml.Parser
import Scaffold.Yaml.Printer
import Scaffold.Yaml.ReadError
import Scaffold.Yaml.Scalar.Block
import Scaffold.Yaml.Scalar.Plain
import Scaffold.Yaml.Scalar.Quoted
import Scaffold.Yaml.Scalar.Value
import Scaffold.Yaml.Token
import Scaffold.Yaml.Token.Lexer
import Scaffold.Yaml.Token.Property
import Scaffold.Proofs.Binding
import Scaffold.Proofs.Compilation
import Scaffold.Proofs.Lowering
import Scaffold.Proofs.FileTree.Access
import Scaffold.Proofs.FileTree.Canonical
import Scaffold.Proofs.Output.Step
import Scaffold.Proofs.Output.Ownership
import Scaffold.Proofs.Output.Key
import Scaffold.Proofs.Output.Again
import Scaffold.Proofs.Parser.Apart
import Scaffold.Proofs.Parser.Apart.File
import Scaffold.Proofs.ImportOrder
import Scaffold.Proofs.Loading
import Scaffold.Proofs.Restoring
import Scaffold.Proofs.Build
import Scaffold.Proofs.Token.Lexing
import Scaffold.Proofs.Parser.Taking
import Scaffold.Proofs.Parser.Phrase
import Scaffold.Proofs.Parser.Derivation
import Scaffold.Proofs.Parser.Sentence
import Scaffold.Proofs.Printing
import Scaffold.Proofs.Rendering
import Scaffold.Proofs.Numbering
import Scaffold.Proofs.Lowering.Contents
import Scaffold.Proofs.Rebinding
import Scaffold.Proofs.Retargeting
import Scaffold.Proofs.Likeness
import Scaffold.Proofs.Parser.Agreement
import Scaffold.Proofs.Parser.Agreement.Decl
import Scaffold.Proofs.Answers
import Scaffold.Proofs.RowReading
import Scaffold.Proofs.Naming
import Scaffold.Proofs.FileNames
import Scaffold.Proofs.InStep
import Scaffold.Proofs.Binding.Agreement
import Scaffold.Proofs.Completion.Agreement
import Scaffold.Proofs.History
import Scaffold.Proofs.Lowering.Routes
import Scaffold.Proofs.Sql.Parameter
import Scaffold.Proofs.Sql.Part
import Scaffold.Proofs.Sql.OneLine
import Scaffold.Proofs.Sql.Select
import Scaffold.Proofs.Parser.Placement
import Scaffold.Proofs.Shape
import Scaffold.Proofs.Shape.Declared
import Scaffold.Proofs.Parser.Formed
import Scaffold.Proofs.Lowering.Records
import Scaffold.Proofs.Url
import Scaffold.Proofs.Token.Place
import Scaffold.Proofs.Token.RawBlock
import Scaffold.Proofs.Documents
import Scaffold.Proofs.Words
import Scaffold.Proofs.Lowering.Templates
import Scaffold.Proofs.Markup.Reading
import Scaffold.Proofs.Markup.Printing
import Scaffold.Proofs.Markup.Lowered
import Scaffold.Proofs.Markup.Template
import Scaffold.Proofs.Text.Lines
import Scaffold.Proofs.Replies
import Scaffold.Proofs.Token.Lexeme
import Scaffold.Proofs.Token.Tiling
import Scaffold.Proofs.Token.Annotation
import Scaffold.Proofs.Target.Quoting
import Scaffold.Proofs.Target.PythonOperators
import Scaffold.Proofs.Target.PrintedArguments
import Scaffold.Proofs.MissingFile
import Scaffold.Proofs.Lowering.Domains
import Scaffold.Proofs.Lowering.Faults
import Scaffold.Proofs.Target.PythonLines
import Scaffold.Proofs.Token.Literal
import Scaffold.Proofs.Parser.Moves
import Scaffold.Proofs.Parser.Progress
import Scaffold.Proofs.Markup.Progress
import Scaffold.Proofs.Parser.Totality
import Scaffold.Proofs.SymbolTable.Arena
import Scaffold.Proofs.Arena
import Scaffold.Proofs.Indexed.Scan
import Scaffold.Proofs.Indexed.Lexer
import Scaffold.Proofs.Indexed.Markup
import Scaffold.Proofs.Indexed.Sql
import Scaffold.Proofs.Indexed
import Scaffold.Proofs.Naming.Resplitting
import Scaffold.Proofs.Erasure.Lowering
