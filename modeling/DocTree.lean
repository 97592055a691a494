import DocTree.Command
import DocTree.Main
import DocTree.Proofs.Command.Agreement
import DocTree.Proofs.Command.Ending
import DocTree.Proofs.Command.Run
import DocTree.Proofs.Command.Verbosity
import DocTree.Proofs.Config
import DocTree.Proofs.Derived
import DocTree.Proofs.Digest
import DocTree.Proofs.Entries
import DocTree.Proofs.Extract
import DocTree.Proofs.Extract.Body
import DocTree.Proofs.Extract.Mappings
import DocTree.Proofs.Extract.Written
import DocTree.Proofs.FileSystem.Removal
import DocTree.Proofs.FileSystem.Resolve
import DocTree.Proofs.FrontMatter
import DocTree.Proofs.FrontMatter.LastLine
import DocTree.Proofs.Index.Agreement
import DocTree.Proofs.Index.Completion
import DocTree.Proofs.Index.Contents
import DocTree.Proofs.Index.Files
import DocTree.Proofs.Index.Pages
import DocTree.Proofs.Index.Partial
import DocTree.Proofs.Index.RelativePaths
import DocTree.Proofs.Index.Scan
import DocTree.Proofs.Index.Splice
import DocTree.Proofs.Index.Structure
import DocTree.Proofs.Index.Trace
import DocTree.Proofs.Index.Unseen
import DocTree.Proofs.ItemType
import DocTree.Proofs.ItemType.Letters
import DocTree.Proofs.Json.Reading
import DocTree.Proofs.Json.Written
import DocTree.Proofs.Path.Normal
import DocTree.Proofs.Population.LineEnds
import DocTree.Proofs.Population.Names
import DocTree.Proofs.RenderedPath
import DocTree.Proofs.RenderedPath.Relative
import DocTree.Proofs.Report
import DocTree.Proofs.Report.Hashes
import DocTree.Proofs.Report.Planted
import DocTree.Proofs.Settings
import DocTree.Proofs.Settings.IgnoredNames
import DocTree.Proofs.SourceFile.Listing
import DocTree.Proofs.Status
import DocTree.Proofs.Store
import DocTree.Proofs.Store.Blocks
import DocTree.Proofs.Store.FirstWins
import DocTree.Proofs.Store.Standard
import DocTree.Proofs.Store.Traversal
import DocTree.Proofs.Value
import DocTree.Proofs.Yaml.Mapping
import DocTree.Proofs.Yaml.Quoted
import DocTree.Proofs.Yaml.QuotedLines
import DocTree.Snapshot
import DocTree.SourceFile
