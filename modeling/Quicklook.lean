import Quicklook.Binary.Nearest
import Quicklook.Binary.Word
import Quicklook.Bytes
import Quicklook.Catalog.Attribute
import Quicklook.Catalog.Record
import Quicklook.Coding.Encoder
import Quicklook.Coding.Jp2
import Quicklook.Coding.Jpeg
import Quicklook.Decimal.Shortest
import Quicklook.Decode.Basic
import Quicklook.Decode.ByteFile
import Quicklook.Decode.SegmentFile
import Quicklook.Decode.Walk
import Quicklook.Event
import Quicklook.Journal
import Quicklook.Metadata.Country
import Quicklook.Metadata.Extraction
import Quicklook.Metadata.Row
import Quicklook.Metadata.Table
import Quicklook.Pipeline.Basic
import Quicklook.Pipeline.Gate
import Quicklook.Pipeline.Item
import Quicklook.Pipeline.Pool
import Quicklook.Raster.Basic
import Quicklook.Raster.Box
import Quicklook.Raster.Image
import Quicklook.Raster.Resample
import Quicklook.Rendition.Basic
import Quicklook.Rendition.FileName
import Quicklook.Settings.Basic
import Quicklook.Settings.Layers
import Quicklook.Settings.Schema
import Quicklook.Settings.Stock
import Quicklook.Source.Resource
import Quicklook.Source.Stream
import Quicklook.Text.Blank
import Quicklook.Text.CaseTable
import Quicklook.Text.CodePoints
import Quicklook.Text.Lower
import Quicklook.Text.Pieces
import Quicklook.Text.Quoted
import Quicklook.Text.Unprintable
import Quicklook.Time.Civil
import Quicklook.Time.NitfDate
import Quicklook.Toml.Datetime
import Quicklook.Toml.Document
import Quicklook.Toml.Layer
import Quicklook.Toml.Number
import Quicklook.Toml.Quoted
import Quicklook.Toml.Reader
import Quicklook.Toml.Section
import Quicklook.Toml.Statement
import Quicklook.Toml.Value
import Quicklook.Proofs.Binary.Exact
import Quicklook.Proofs.Binary.Monotone
import Quicklook.Proofs.Binary.Rounding
import Quicklook.Proofs.Catalog.Commuting
import Quicklook.Proofs.Catalog.History
import Quicklook.Proofs.Coding.Resolutions
import Quicklook.Proofs.Decode.CutFile
import Quicklook.Proofs.Decode.FirstPicture
import Quicklook.Proofs.Decode.Spooling
import Quicklook.Proofs.Metadata.Clean
import Quicklook.Proofs.Metadata.Entries
import Quicklook.Proofs.Metadata.Isolation
import Quicklook.Proofs.Metadata.Layout
import Quicklook.Proofs.Pipeline.Batch
import Quicklook.Proofs.Pipeline.Entry
import Quicklook.Proofs.Pipeline.FixedPoint
import Quicklook.Proofs.Pipeline.Gate
import Quicklook.Proofs.Pipeline.Item
import Quicklook.Proofs.Pipeline.Pictureless
import Quicklook.Proofs.Pipeline.Stages
import Quicklook.Proofs.Raster.Alpha
import Quicklook.Proofs.Raster.Conversion
import Quicklook.Proofs.Raster.Cropping
import Quicklook.Proofs.Raster.Filling
import Quicklook.Proofs.Raster.Overview
import Quicklook.Proofs.Raster.Pixels
import Quicklook.Proofs.Raster.Proportion
import Quicklook.Proofs.Raster.Resizing
import Quicklook.Proofs.Raster.Size
import Quicklook.Proofs.Rendition.FileName
import Quicklook.Proofs.Rendition.Titles
import Quicklook.Proofs.Settings.Layering
import Quicklook.Proofs.Settings.Writing
import Quicklook.Proofs.Text.Letters
import Quicklook.Proofs.Text.Trimming
import Quicklook.Proofs.Time.Agreement
import Quicklook.Proofs.Time.Calendar
import Quicklook.Proofs.Time.FullForm
import Quicklook.Proofs.Time.Grammar
import Quicklook.Proofs.Time.Places
import Quicklook.Proofs.Time.Shape
import Quicklook.Proofs.Toml.Distinct
import Quicklook.Proofs.Toml.Entries
import Quicklook.Proofs.Toml.Merge
import Quicklook.Proofs.Toml.Paths
