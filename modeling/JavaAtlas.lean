import JavaAtlas.Archive.Bits
import JavaAtlas.Archive.Bunzip
import JavaAtlas.Archive.Checksum
import JavaAtlas.Archive.Inflate
import JavaAtlas.Archive.Pack
import JavaAtlas.Archive.Zip
import JavaAtlas.Archive.Zip.Basic
import JavaAtlas.Archive.Zip.Directory
import JavaAtlas.Archive.Zstd.Basic
import JavaAtlas.Archive.Zstd.Frame
import JavaAtlas.Archive.Zstd.Hash
import JavaAtlas.Archive.Zstd.Literals
import JavaAtlas.Archive.Zstd.Sequences
import JavaAtlas.Archive.Zstd.Transition
import JavaAtlas.Callers
import JavaAtlas.Check
import JavaAtlas.Check.Harvest
import JavaAtlas.Check.Scripted
import JavaAtlas.Check.Settling
import JavaAtlas.ClassFile.Constants
import JavaAtlas.ClassFile.Decode
import JavaAtlas.ClassFile.Descriptor
import JavaAtlas.ClassFile.Reader
import JavaAtlas.Classpath
import JavaAtlas.CommandLine.Args
import JavaAtlas.CommandLine.Commands
import JavaAtlas.CommandLine.Help
import JavaAtlas.CommandLine.Run
import JavaAtlas.Config
import JavaAtlas.Describe
import JavaAtlas.Disk
import JavaAtlas.Engine
import JavaAtlas.Failure
import JavaAtlas.Grammar.Automaton
import JavaAtlas.Grammar.Grouping
import JavaAtlas.Grammar.Item
import JavaAtlas.Grammar.Keywords
import JavaAtlas.Grammar.Lexicon
import JavaAtlas.Grammar.Overlap
import JavaAtlas.Grammar.Production
import JavaAtlas.Grammar.Rule
import JavaAtlas.Grammar.Scanner
import JavaAtlas.Grammar.States
import JavaAtlas.Host
import JavaAtlas.Ignore.Glob
import JavaAtlas.Ignore.Rules
import JavaAtlas.Index.Basic
import JavaAtlas.Index.References
import JavaAtlas.Index.Supertypes
import JavaAtlas.Index.View
import JavaAtlas.Indexer
import JavaAtlas.Java.Diagnostics
import JavaAtlas.Java.Extract
import JavaAtlas.Java.Grammar
import JavaAtlas.Java.Names
import JavaAtlas.Java.Receiver
import JavaAtlas.Java.References
import JavaAtlas.Java.Source
import JavaAtlas.Java.Syntax
import JavaAtlas.Java.TypeText
import JavaAtlas.Json.Basic
import JavaAtlas.Json.Binary64
import JavaAtlas.Json.Parser
import JavaAtlas.Json.Printer
import JavaAtlas.Json.Skip
import JavaAtlas.Main
import JavaAtlas.Model.Decode
import JavaAtlas.Model.Encode
import JavaAtlas.Model.Kinds
import JavaAtlas.Model.Reports
import JavaAtlas.Model.Symbols
import JavaAtlas.Parse.Choice
import JavaAtlas.Parse.Machine
import JavaAtlas.Parse.Stack
import JavaAtlas.Parse.Subtree
import JavaAtlas.Parse.Token
import JavaAtlas.Path
import JavaAtlas.Project
import JavaAtlas.Proofs.Changes
import JavaAtlas.Proofs.ClassFile.Attributes
import JavaAtlas.Proofs.ClassFile.Descriptor
import JavaAtlas.Proofs.ClassFile.Encoding
import JavaAtlas.Proofs.ClassFile.Reading
import JavaAtlas.Proofs.ClassFile.RoundTrip
import JavaAtlas.Proofs.Disk
import JavaAtlas.Proofs.Index.Convergence
import JavaAtlas.Proofs.Index.Entries
import JavaAtlas.Proofs.Index.History
import JavaAtlas.Proofs.Index.Reindex
import JavaAtlas.Proofs.Index.Renaming
import JavaAtlas.Proofs.Index.Representation
import JavaAtlas.Proofs.Index.Stale
import JavaAtlas.Proofs.Index.Sync
import JavaAtlas.Proofs.Java.Owners
import JavaAtlas.Proofs.Outcome
import JavaAtlas.Proofs.Path
import JavaAtlas.Proofs.Scan
import JavaAtlas.Proofs.Text.Utf8
import JavaAtlas.Reads
import JavaAtlas.Report.Text
import JavaAtlas.Request.Call
import JavaAtlas.Request.Dispatch
import JavaAtlas.Request.Line
import JavaAtlas.Request.Methods
import JavaAtlas.Request.Params
import JavaAtlas.Resolve
import JavaAtlas.Resolve.Traced
import JavaAtlas.Scan
import JavaAtlas.Service
import JavaAtlas.Text.Blank
import JavaAtlas.Text.CodeRanges
import JavaAtlas.Text.Excerpt
import JavaAtlas.Text.IdentifierChars
import JavaAtlas.Text.Letters
import JavaAtlas.Text.Lowercase
import JavaAtlas.Text.Quoted
import JavaAtlas.Text.Utf8
import JavaAtlas.Tree
import JavaAtlas.Watch
import JavaAtlas.Watch.Batch
import JavaAtlas.Watch.Filter
import JavaAtlas.Proofs.ClassFile.Truncation
import JavaAtlas.Proofs.Index.Sorted
import JavaAtlas.Proofs.Resolve.Stages
import JavaAtlas.Proofs.Index.ReferenceSearch
import JavaAtlas.Proofs.Java.Nesting
import JavaAtlas.Proofs.Java.Walk
import JavaAtlas.Proofs.Index.Enclosing
import JavaAtlas.Proofs.Engine.Acts
import JavaAtlas.Proofs.Engine.Edits
import JavaAtlas.Proofs.Engine.Building
import JavaAtlas.Proofs.Index.Markers
import JavaAtlas.Proofs.Engine.Visible
import JavaAtlas.Proofs.Check.Harvest
import JavaAtlas.Proofs.Java.Spots
import JavaAtlas.Proofs.Java.Stacks
import JavaAtlas.Proofs.Java.WellFormed
import JavaAtlas.Proofs.Watch.Batch
import JavaAtlas.Proofs.Watch.Filter
import JavaAtlas.Proofs.Index.Linked
import JavaAtlas.Proofs.Index.Transactions
import JavaAtlas.Proofs.Java.Visits
import JavaAtlas.Proofs.Java.CallSites
import JavaAtlas.Proofs.Index.Reading
import JavaAtlas.Proofs.Index.Supertypes
import JavaAtlas.Proofs.Check.Requests
import JavaAtlas.Proofs.Reads
import JavaAtlas.Proofs.Index.Forms
import JavaAtlas.Proofs.Index.Columns
import JavaAtlas.Proofs.Index.Tables
import JavaAtlas.Proofs.Index.Stored
import JavaAtlas.Proofs.ClassFile.LongerPool
import JavaAtlas.Proofs.ClassFile.PoolTexts
import JavaAtlas.Proofs.Java.TypeText
import JavaAtlas.Proofs.Java.WrittenType
import JavaAtlas.Proofs.Java.Presentable
import JavaAtlas.Proofs.Java.Duplicates
import JavaAtlas.Proofs.Index.FieldOwners
import JavaAtlas.Proofs.Java.LambdaScope
import JavaAtlas.Proofs.Text.Lowercase
import JavaAtlas.Proofs.Resolve.Lookups
import JavaAtlas.Proofs.Resolve.Qualified
import JavaAtlas.Proofs.Resolve.Offered
import JavaAtlas.Proofs.Index.WrittenReceiver
import JavaAtlas.Proofs.Java.LocalScope
import JavaAtlas.Proofs.Text.Joined
import JavaAtlas.Proofs.Classpath.Candidates
import JavaAtlas.Proofs.Classpath.Search
import JavaAtlas.Proofs.Descent
import JavaAtlas.Proofs.Classpath.Containment
import JavaAtlas.Proofs.Packages
import JavaAtlas.Proofs.Java.SyntaxErrors
import JavaAtlas.Proofs.StoredPaths
import JavaAtlas.Proofs.Engine.Refused
import JavaAtlas.Proofs.Text.Excerpt
import JavaAtlas.Proofs.Check.Errors
import JavaAtlas.Proofs.Index.Sighting
import JavaAtlas.Proofs.Index.Held
import JavaAtlas.Proofs.Index.SyncBatch
import JavaAtlas.Proofs.Engine.SyncBatch
import JavaAtlas.Proofs.ClassFile.ElementValues
import JavaAtlas.Proofs.Java.KnownTypes
import JavaAtlas.Proofs.Java.Receivers
