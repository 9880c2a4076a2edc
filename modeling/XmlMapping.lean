import XmlMapping.Main
import XmlMapping.Mapping.Deferral
import XmlMapping.Proofs.XPath.Composition
import XmlMapping.Proofs.XPath.Reading
import XmlMapping.Proofs.XPath.Partition
import XmlMapping.Proofs.XPath.Direction
import XmlMapping.Proofs.XPath.Duality
import XmlMapping.Proofs.XPath.Predicates
import XmlMapping.Proofs.XPath.PositionFree
import XmlMapping.Proofs.XPath.Shortcut
import XmlMapping.Proofs.Number.Whole
import XmlMapping.Proofs.XPath.Positions
import XmlMapping.Proofs.XPath.Sequences
import XmlMapping.Proofs.XPath.Prefixes
import XmlMapping.Proofs.XPath.NameTests
import XmlMapping.Proofs.XPath.Unbound
import XmlMapping.Proofs.XPath.Unions
import XmlMapping.Proofs.XPath.Comparisons
import XmlMapping.Proofs.XPath.WellFormed
import XmlMapping.Proofs.Markup.Naming
import XmlMapping.Proofs.Mapping.NodeTree
import XmlMapping.Proofs.Mapping.Paths
import XmlMapping.Proofs.Mapping.Declarations
import XmlMapping.Proofs.Mapping.Selections
import XmlMapping.Proofs.Mapping.Texts
import XmlMapping.Proofs.Mapping.Deferrals
import XmlMapping.Proofs.Config.Merging
import XmlMapping.Proofs.CommandLine.Requests
import XmlMapping.Proofs.CommandLine.Stages
import XmlMapping.Proofs.XPath.Abbreviations
import XmlMapping.Proofs.XPath.Failures
import XmlMapping.Proofs.Date.Segments
import XmlMapping.Proofs.Config.Rebinding
import XmlMapping.Proofs.Config.PrefixNames
import XmlMapping.Proofs.Document.Numbering
import XmlMapping.Proofs.Text.Occurrences
import XmlMapping.Proofs.Text.Words
import XmlMapping.Proofs.XPath.Strings
import XmlMapping.Proofs.Number.Integers
import XmlMapping.Proofs.XPath.Numerals
import XmlMapping.Proofs.XPath.CallDepth
