import EasyNews.Verified.ArticleTransfer
import EasyNews.Verified.BodyControl
import EasyNews.Verified.CutIndependence
import EasyNews.Verified.HeaderRequests
import EasyNews.Verified.HeaderFetching
import EasyNews.Verified.HeaderAttribution
import EasyNews.Verified.SessionReuse
import EasyNews.Verified.GroupArticles
import EasyNews.Verified.GroupList
import EasyNews.Verified.GroupRefresh
import EasyNews.Verified.ShownArticles
import EasyNews.Verified.HeaderRoundTrip
import EasyNews.Verified.FoldedLines
import EasyNews.Library.StableSort
import EasyNews.Verified.PartOrder
import EasyNews.Verified.GroupListing
import EasyNews.Verified.ArticleFraming
import EasyNews.Verified.WholeLines
import EasyNews.Verified.UnknownLines
import EasyNews.Verified.ReadBoundaries
import EasyNews.Verified.ClosedSessions
import EasyNews.Verified.FileNumbers
import EasyNews.Verified.ShownTitles
import EasyNews.Verified.ArrivalOrder
import EasyNews.Verified.LineReassembly
import EasyNews.Verified.CommandLines
import EasyNews.Verified.LookUps
import EasyNews.Verified.PictureScans
import EasyNews.Verified.OpenedFiles
import EasyNews.Verified.WindowRequests
import EasyNews.Verified.WindowRows
import EasyNews.Verified.YEncTexts
import EasyNews.Verified.WholeSessions
import EasyNews.Verified.WindowSessions
