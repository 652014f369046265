import OsterLib.Lib.Run
import OsterLib.Lib.Ring
import OsterLib.Lib.Bytes
import OsterLib.Lib.Post
import OsterLib.Lib.Floating
import OsterLib.Lib.Increasing
import OsterLib.Lib.Decimal
import OsterLib.Lib.Scale
import OsterLib.Lib.Keys
import OsterLib.Lib.Plane
import OsterLib.Lib.Extremes
import OsterLib.Lib.Walk
import OsterLib.Lib.Stretch
import OsterLib.Lib.Compact
import OsterLib.Lib.Parse
import OsterLib.Lib.Layout
import OsterLib.Serialization.Definitions
import OsterLib.Serialization.ByteOrder
import OsterLib.Serialization.MultiBuffer
import OsterLib.Serialization.FlatView
import OsterLib.Serialization.StreamSerializer
import OsterLib.Serialization.SerialType
import OsterLib.Serialization.RoundTrip
import OsterLib.Serialization.Truncation
import OsterLib.Serialization.Lookup
import OsterLib.Serialization.Resume
import OsterLib.Serialization.Work
import OsterLib.Serialization.Counting
import OsterLib.Serialization.Sizes
import OsterLib.Serialization.File
import OsterLib.Serialization.Renaming
import OsterLib.Serialization.Hosts
import OsterLib.Serialization.Durations
import OsterLib.Serialization.Destinations
import OsterLib.Serialization.Cursor
import OsterLib.Serialization.Parser
import OsterLib.Serialization.Announced
import OsterLib.Serialization.Wire
import OsterLib.Network.Definitions
import OsterLib.Network.RingBuffer
import OsterLib.Network.Extraction
import OsterLib.Network.Storage
import OsterLib.Network.VectorizedBuffer
import OsterLib.Network.SendQueue
import OsterLib.Network.Send
import OsterLib.Network.Receive
import OsterLib.Network.Twins
import OsterLib.Network.Resets
import OsterLib.Network.Acceptor
import OsterLib.Network.AcceptorStop
import OsterLib.Network.Worker
import OsterLib.Network.Multiplexor
import OsterLib.Network.EventMask
import OsterLib.Network.ReadInterest
import OsterLib.Network.ConnectLifeCycle
import OsterLib.Network.Requests
import OsterLib.Network.RequestData
import OsterLib.Network.Commands
import OsterLib.Network.CommandQueue
import OsterLib.Network.SyncTask
import OsterLib.Network.ThreadTask
import OsterLib.Network.WakeUp
import OsterLib.Network.Removal
import OsterLib.Network.Link
import OsterLib.Network.Insertions
import OsterLib.Network.PoolWorker
import OsterLib.Network.ThreadPool
import OsterLib.Types.TimeSequence
import OsterLib.Types.Months
import OsterLib.Types.Step
import OsterLib.Types.Difference
import OsterLib.Types.Division
import OsterLib.Types.LeapDays
import OsterLib.Types.Count
import OsterLib.Types.Intersection
import OsterLib.Types.Bound
import OsterLib.Types.Range
import OsterLib.Types.Extend
import OsterLib.Types.Ends
import OsterLib.Types.Text
import OsterLib.Types.Parsing
import OsterLib.Types.TimePeriod
import OsterLib.Types.NextPoint
import OsterLib.Types.AlignedPoint
import OsterLib.Types.PeriodText
import OsterLib.Types.Hashing
import OsterLib.Json.Decoders
import OsterLib.Json.Encoders
import OsterLib.Json.Settings
import OsterLib.Json.Total
import OsterLib.Json.Restore
import OsterLib.Json.Periods
import OsterLib.Json.Addresses
import OsterLib.Geometry.Line
import OsterLib.Geometry.Polyline
import OsterLib.Geometry.Length
import OsterLib.Geometry.Polygon
import OsterLib.Geometry.Validity
import OsterLib.Geometry.Queries
import OsterLib.Geometry.Equivalence
import OsterLib.Geometry.SelfIntersection
import OsterLib.Geometry.Cutting
import OsterLib.Interpolation
import OsterLib.ContextedError
import OsterLib.SafeWrite
import OsterLib.Floats
