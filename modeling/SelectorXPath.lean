import SelectorXPath.CommandLine.Help
import SelectorXPath.CommandLine.Options
import SelectorXPath.CommandLine.Run
import SelectorXPath.Config.Basic
import SelectorXPath.Config.Store
import SelectorXPath.FileTree
import SelectorXPath.Gzip.Bits
import SelectorXPath.Gzip.BlockCodes
import SelectorXPath.Gzip.Crc32
import SelectorXPath.Gzip.Huffman
import SelectorXPath.Gzip.Inflate
import SelectorXPath.Gzip.Member
import SelectorXPath.Gzip.Symbols
import SelectorXPath.Json.Value
import SelectorXPath.Main
import SelectorXPath.Proofs.Characters
import SelectorXPath.Proofs.RuleChoice
import SelectorXPath.Proofs.Spelling
import SelectorXPath.Report.Conversion
import SelectorXPath.Report.Explanation
import SelectorXPath.Selector.Combinator
import SelectorXPath.Selector.Error
import SelectorXPath.Selector.Fragment
import SelectorXPath.Selector.Grammar
import SelectorXPath.Selector.Scan
import SelectorXPath.SelectorList.Lines
import SelectorXPath.SelectorList.Source
import SelectorXPath.Text.Basic
import SelectorXPath.Text.Blank
import SelectorXPath.Text.Utf8
import SelectorXPath.Text.Word
import SelectorXPath.Toml.Document
import SelectorXPath.Toml.Layout
import SelectorXPath.Toml.Moments
import SelectorXPath.Toml.Numbers
import SelectorXPath.Toml.Strings
import SelectorXPath.Toml.Value
import SelectorXPath.XPath.Anchor
import SelectorXPath.XPath.Literal
import SelectorXPath.XPath.OfSelector
import SelectorXPath.XPath.PathTree
import SelectorXPath.XPath.Predicate
import SelectorXPath.Proofs.ScanCompleteness
import SelectorXPath.Proofs.ScanSoundness
import SelectorXPath.Proofs.Compilation
import SelectorXPath.Proofs.Branches
import SelectorXPath.Proofs.FirstFault
import SelectorXPath.Proofs.BuiltTrees
import SelectorXPath.Proofs.Locality
import SelectorXPath.Proofs.Unions
import SelectorXPath.Proofs.BitLocality
import SelectorXPath.Proofs.EncodedText
import SelectorXPath.Proofs.MemberEnds
import SelectorXPath.Proofs.CompressedLists
import SelectorXPath.Proofs.RunOutcomes
import SelectorXPath.Proofs.PlainLists
import SelectorXPath.Proofs.InputRoutes
import SelectorXPath.Proofs.EarlyStops
import SelectorXPath.Proofs.OneLine
import SelectorXPath.Proofs.StoredMembers
import SelectorXPath.Proofs.OutputLines
import SelectorXPath.Proofs.ListEntries
import SelectorXPath.Proofs.Markers
import SelectorXPath.Proofs.OpenQuotes
import SelectorXPath.Proofs.JsonGrammar
import SelectorXPath.Proofs.JsonReports
import SelectorXPath.Proofs.StringValues
import SelectorXPath.Proofs.StringFunctions
import SelectorXPath.Proofs.ClassTokens
import SelectorXPath.Proofs.UnreadablePlaces
import SelectorXPath.Proofs.CommandLines
import SelectorXPath.Proofs.SettingLines
import SelectorXPath.Proofs.ConfigStore
import SelectorXPath.Proofs.CommentLines
import SelectorXPath.Proofs.SurroundingBlanks
import SelectorXPath.Proofs.TestOrder
import SelectorXPath.Proofs.WrittenStrings
import SelectorXPath.Proofs.WrittenIntegers
import SelectorXPath.Proofs.SettingsFiles
import SelectorXPath.Proofs.JoinedFragments
import SelectorXPath.Proofs.DepthLimit
