import XcfFlatten.Blend.Alpha
import XcfFlatten.Blend.Channel
import XcfFlatten.Blend.Mode
import XcfFlatten.Canvas
import XcfFlatten.Canvas.Checked
import XcfFlatten.Canvas.Flatten
import XcfFlatten.Color
import XcfFlatten.Color.Hue
import XcfFlatten.Command.Options
import XcfFlatten.Command.Run
import XcfFlatten.Decimal.Binary32
import XcfFlatten.Dissolve
import XcfFlatten.File.Compression
import XcfFlatten.File.Document
import XcfFlatten.File.Error
import XcfFlatten.File.Header
import XcfFlatten.File.Hierarchy
import XcfFlatten.File.LayerPixels
import XcfFlatten.File.LayerRecord
import XcfFlatten.File.Layout
import XcfFlatten.File.Limits
import XcfFlatten.File.Parasite
import XcfFlatten.File.Parasite.InPlace
import XcfFlatten.File.Property
import XcfFlatten.File.PropertyTag
import XcfFlatten.File.Reader
import XcfFlatten.File.RunLength
import XcfFlatten.File.RunLength.InPlace
import XcfFlatten.File.Stored
import XcfFlatten.File.Summary
import XcfFlatten.Folder
import XcfFlatten.Layer
import XcfFlatten.Layer.Kind
import XcfFlatten.Main
import XcfFlatten.Picture
import XcfFlatten.Picture.Bitmap
import XcfFlatten.Picture.ColorTable
import XcfFlatten.Picture.Encode
import XcfFlatten.Picture.Exchange
import XcfFlatten.Picture.Format
import XcfFlatten.Picture.Gif
import XcfFlatten.Picture.Jpeg
import XcfFlatten.Picture.Network
import XcfFlatten.Picture.Packing
import XcfFlatten.Picture.Png
import XcfFlatten.Proofs.Blend.Alpha
import XcfFlatten.Proofs.Canvas.AlphaGrowth
import XcfFlatten.Proofs.Canvas.Apart
import XcfFlatten.Proofs.Canvas.BaseMask
import XcfFlatten.Proofs.Canvas.Cellwise
import XcfFlatten.Proofs.Canvas.Checked
import XcfFlatten.Proofs.Canvas.Conversions
import XcfFlatten.Proofs.Canvas.Cover
import XcfFlatten.Proofs.Canvas.GrayExpansion
import XcfFlatten.Proofs.Canvas.IndexedStack
import XcfFlatten.Proofs.Canvas.Invariant
import XcfFlatten.Proofs.Canvas.MixRange
import XcfFlatten.Proofs.Canvas.Stack
import XcfFlatten.Proofs.Canvas.StoredAlpha
import XcfFlatten.Proofs.Canvas.Transparent
import XcfFlatten.Proofs.Dissolve.Pieces
import XcfFlatten.Proofs.Dissolve.Position
import XcfFlatten.Proofs.File.Appended
import XcfFlatten.Proofs.File.Closed
import XcfFlatten.Proofs.File.CountLimits
import XcfFlatten.Proofs.File.CutTiles
import XcfFlatten.Proofs.File.DocumentLayout
import XcfFlatten.Proofs.File.HierarchyLayout
import XcfFlatten.Proofs.File.HierarchyPlan
import XcfFlatten.Proofs.File.InterleavedPlanes
import XcfFlatten.Proofs.File.LayerLayout
import XcfFlatten.Proofs.File.LayerShape
import XcfFlatten.Proofs.File.Limits
import XcfFlatten.Proofs.File.LiteralRuns
import XcfFlatten.Proofs.File.Outcome
import XcfFlatten.Proofs.File.Outline
import XcfFlatten.Proofs.File.ParasiteRecords
import XcfFlatten.Proofs.File.Probes
import XcfFlatten.Proofs.File.PropertyLayout
import XcfFlatten.Proofs.File.PropertyLists
import XcfFlatten.Proofs.File.PropertyOrder
import XcfFlatten.Proofs.File.PropertyRecords
import XcfFlatten.Proofs.File.RunGrammar
import XcfFlatten.Proofs.File.RunLength
import XcfFlatten.Proofs.File.RunsInPlace
import XcfFlatten.Proofs.File.ShortPayloads
import XcfFlatten.Proofs.File.Stable
import XcfFlatten.Proofs.File.Takes
import XcfFlatten.Proofs.File.WholeRecords
import XcfFlatten.Proofs.Layer.Landing
import XcfFlatten.Proofs.Layer.Shape
import XcfFlatten.Proofs.Raster.Paint
import XcfFlatten.Proofs.Text.Utf8
import XcfFlatten.Proofs.Tile.Overflow
import XcfFlatten.Proofs.Tile.Partition
import XcfFlatten.Raster
import XcfFlatten.Render
import XcfFlatten.Report
import XcfFlatten.Text.FileName
import XcfFlatten.Text.Quoted
import XcfFlatten.Text.Shown
import XcfFlatten.Text.Unsigned
import XcfFlatten.Text.Utf8
import XcfFlatten.Tile
import XcfFlatten.Tile.Cut
import XcfFlatten.Tile.Grid
