import MiniGui.Desktop.Confined
import MiniGui.Desktop.GlobalRes
import MiniGui.Desktop.Locks
import MiniGui.Gdi.CellRun
import MiniGui.Kernel.SendDeadlock
import MiniGui.Kernel.TimerOwnership
import MiniGui.Mybmp.RleLoad
import MiniGui.Gdi.DcPool
import MiniGui.Ext.GifSafety
import MiniGui.Gdi.PolygonRows
import MiniGui.Gui.ModalOwners
import MiniGui.Gui.Paint
import MiniGui.Gui.FocusRuns
import MiniGui.Control.TextRuns
import MiniGui.Kernel.KeyRuns
import MiniGui.Kernel.PeekFilter
import MiniGui.Kernel.ThrowAwayExact
import MiniGui.Control.ListRuns
import MiniGui.Control.ListViewRuns
import MiniGui.Font.TextDraw
import MiniGui.Font.TextRoundTrip
import MiniGui.Font.GlyphCacheLru
import MiniGui.Desktop.MouseCapture
import MiniGui.Gdi.ShapeRegion
import MiniGui.Kernel.FixStrRuns
import MiniGui.Gui.MenuRuns
import MiniGui.Vcongui.Safety
import MiniGui.Ext.ListRuns
import MiniGui.Ext.TreeRuns
import MiniGui.Gdi.RegionQuery
import MiniGui.Gdi.FillRuns
import MiniGui.Gdi.MonotoneChains
import MiniGui.Desktop.JoinFailure
import MiniGui.Gdi.HlineExact
import MiniGui.Gdi.ScrollRegion
import MiniGui.Misc.EtcSections
import MiniGui.Gdi.FloodExact
import MiniGui.Gdi.TextWrap
import MiniGui.Gui.ScrollBar
import MiniGui.Gui.Coords
import MiniGui.Gui.DialogItems
import MiniGui.Gdi.RleBlit
import MiniGui.Ext.GifRows
import MiniGui.Font.CharCount
import MiniGui.Gdi.StretchPaint
import MiniGui.Font.NextWord
import MiniGui.Gdi.TextLines
import MiniGui.Control.SlReject
import MiniGui.Control.Scrolled
import MiniGui.Control.ScrollView
import MiniGui.Misc.ClipBoards
import MiniGui.Gui.AccelKey
import MiniGui.Kernel.BlockHeap
