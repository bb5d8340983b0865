import Bindery.Main
import Bindery.Storage.Desk
import Bindery.Yaml.Writer
import Bindery.Proofs.GraphByTags
import Bindery.Proofs.LinksInText
import Bindery.Proofs.SectionHeadings
import Bindery.Proofs.ArchiveHistory
import Bindery.Proofs.UnreadableNumbers
import Bindery.Proofs.LaterReferences
import Bindery.Proofs.VisitedNodes
import Bindery.Proofs.StoreFailures
import Bindery.Proofs.ArchivedGraphs
import Bindery.Proofs.DocumentOrder
import Bindery.Proofs.NumbersRead
import Bindery.Proofs.LineBreaks
import Bindery.Proofs.OverlongNumbers
import Bindery.Proofs.WrappedLinks
import Bindery.Proofs.DocumentHeader
import Bindery.Proofs.OpenBlocks
import Bindery.Proofs.TaggedNodes
import Bindery.Proofs.Loading
import Bindery.Proofs.DeclaredNodes
import Bindery.Proofs.BoundedRecursion
import Bindery.Proofs.Questions
import Bindery.Proofs.OwnAddress
import Bindery.Proofs.PartialAnswers
import Bindery.Proofs.CommonAddress
import Bindery.Proofs.RootLookup
import Bindery.Proofs.RenumberedAsciiDoc
import Bindery.Proofs.SectionDepths
import Bindery.Proofs.DefaultVersions
import Bindery.Proofs.QuotedTitles
import Bindery.Proofs.TitleNames
import Bindery.Proofs.BlankTags
import Bindery.Proofs.CopiedLines
import Bindery.Proofs.CoordinateTexts
import Bindery.Proofs.FoundNodes
import Bindery.Proofs.ReferenceTags
import Bindery.Proofs.NamedFields
import Bindery.Proofs.SettingsChoices
import Bindery.Proofs.SettingsFaults
import Bindery.Proofs.WireRecords
import Bindery.Proofs.NodeFileFaults
import Bindery.Proofs.JoinedIdentifiers
import Bindery.Proofs.FileNames
import Bindery.Proofs.SectionRanges
import Bindery.Proofs.CollapsedNodes
