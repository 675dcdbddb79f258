import DuckDBJava.Lib.Exec
import DuckDBJava.Lib.PathTree
import DuckDBJava.Lib.Bytes
import DuckDBJava.Lib.TwosComplement
import DuckDBJava.Lib.DecimalText
import DuckDBJava.Lib.Calendar
import DuckDBJava.Lib.LinkedMap
import DuckDBJava.Lib.Traverse
import DuckDBJava.Lib.FixedWidth
import DuckDBJava.Lib.Calls
import DuckDBJava.Lib.Split
import DuckDBJava.Lib.Sources
import DuckDBJava.Lib.Parties
import DuckDBJava.Appender.Types
import DuckDBJava.Appender.Memory
import DuckDBJava.Appender.Columns
import DuckDBJava.Appender.Values
import DuckDBJava.Appender.Put
import DuckDBJava.Appender.Layout
import DuckDBJava.Appender.Overloads
import DuckDBJava.Appender.Machine
import DuckDBJava.Appender.Steps
import DuckDBJava.Appender.Slots
import DuckDBJava.Appender.Cursor
import DuckDBJava.Appender.Rows
import DuckDBJava.Appender.Brackets
import DuckDBJava.Appender.Defaults
import DuckDBJava.Appender.Delivery
import DuckDBJava.Appender.NullMarks
import DuckDBJava.Appender.Sizes
import DuckDBJava.Appender.Capacity
import DuckDBJava.Appender.Writes
import DuckDBJava.Appender.ChunkInvariant
import DuckDBJava.Appender.Arrays2D
import DuckDBJava.Appender.Strings
import DuckDBJava.Appender.UnboundedPositions
import DuckDBJava.Appender.Positions
import DuckDBJava.Appender.Wrapping
import DuckDBJava.Result.Types
import DuckDBJava.Result.Timestamps
import DuckDBJava.Result.CalendarGetters
import DuckDBJava.Result.Vectors
import DuckDBJava.Result.Getters
import DuckDBJava.Result.ArrayCursor
import DuckDBJava.Result.ResultSet
import DuckDBJava.Result.Cells
import DuckDBJava.Result.RowEnumeration
import DuckDBJava.Result.WasNull
import DuckDBJava.Result.Blob
import DuckDBJava.Result.Fetch
import DuckDBJava.Result.Decoding
import DuckDBJava.Result.Totality
import DuckDBJava.Result.LiveSlots
import DuckDBJava.Result.CastStrings
import DuckDBJava.Result.CastBelow
import DuckDBJava.Result.Shown
import DuckDBJava.Result.ReadBack
import DuckDBJava.Result.RoundTrip
import DuckDBJava.Result.ClassNames
import DuckDBJava.Numbers.HugeInt
import DuckDBJava.Numbers.Uuid
import DuckDBJava.Numbers.TimeTz
import DuckDBJava.Numbers.Decimal
import DuckDBJava.Numbers.DecimalWidth
import DuckDBJava.Appender.PlainColumns
import DuckDBJava.Appender.Supplies
import DuckDBJava.Appender.Tracking
import DuckDBJava.Appender.Delivered
import DuckDBJava.Numbers.Parameters
import DuckDBJava.Numbers.TemporalParameters
import DuckDBJava.Numbers.Timestamps
import DuckDBJava.Numbers.CompositeValues
import DuckDBJava.Numbers.CompositeParameters
import DuckDBJava.Connection.Machine
import DuckDBJava.Connection.Steps
import DuckDBJava.Connection.Transactions
import DuckDBJava.Connection.Batches
import DuckDBJava.Connection.SessionInit
import DuckDBJava.Connection.Bindings
import DuckDBJava.Connection.ByValue
import DuckDBJava.Connection.ParameterCounts
import DuckDBJava.Driver.Urls
import DuckDBJava.Driver.Machine
import DuckDBJava.Driver.Pins
import DuckDBJava.Driver.SessionInits
import DuckDBJava.Input.BoundedReading
import DuckDBJava.Handles.Machine
import DuckDBJava.Handles.Ownership
import DuckDBJava.Handles.Closing
import DuckDBJava.Handles.Executing
import DuckDBJava.Handles.Closure
import DuckDBJava.Handles.Propagation
import DuckDBJava.Concurrency.Machine
import DuckDBJava.Concurrency.Discipline
import DuckDBJava.Concurrency.Deadlock
import DuckDBJava.Concurrency.Cancel
import DuckDBJava.Concurrency.References
import DuckDBJava.Concurrency.Effects
import DuckDBJava.Concurrency.Frames
import DuckDBJava.Concurrency.Disconnect
import DuckDBJava.Concurrency.Engine
