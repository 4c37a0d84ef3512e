import OracleNIO.BinaryColumns
import OracleNIO.BinaryFloat
import OracleNIO.BindPositions
import OracleNIO.BoundValues
import OracleNIO.ByteMemory
import OracleNIO.CallLanguages
import OracleNIO.CivilCalendar
import OracleNIO.ClosedHandle
import OracleNIO.ColumnLookup
import OracleNIO.ConnectArguments
import OracleNIO.ConnectRuns
import OracleNIO.ConnectionBalance
import OracleNIO.ConnectionLoop
import OracleNIO.ConversionRoundTrip
import OracleNIO.Dpi
import OracleNIO.DpiDynamicBytes
import OracleNIO.DpiGlobal
import OracleNIO.DpiHandleList
import OracleNIO.DpiHandlePool
import OracleNIO.DpiHandles
import OracleNIO.DpiNumber
import OracleNIO.DpiOracleType
import OracleNIO.DpiStmt
import OracleNIO.DpiVar
import OracleNIO.DynamicElements
import OracleNIO.DynamicValues
import OracleNIO.ErrorAttribution
import OracleNIO.EventLoop
import OracleNIO.FailingCalls
import OracleNIO.FailureReports
import OracleNIO.FetchedRows
import OracleNIO.GlobalErrors
import OracleNIO.GlobalInitialization
import OracleNIO.GraphemeClusters
import OracleNIO.HandleCalls
import OracleNIO.HandleCounts
import OracleNIO.HandleLifetimes
import OracleNIO.HandleRelease
import OracleNIO.IntegerRoundTrip
import OracleNIO.Interaction
import OracleNIO.LabelledRuns
import OracleNIO.MarkedText
import OracleNIO.MergedTable
import OracleNIO.NullColumns
import OracleNIO.NumberRoundTrip
import OracleNIO.NumberTexts
import OracleNIO.ObjectStore
import OracleNIO.OdpiSession
import OracleNIO.OracleConnection
import OracleNIO.OracleData
import OracleNIO.OracleDataAccessors
import OracleNIO.OracleDataConvertible
import OracleNIO.OracleNumbers
import OracleNIO.OracleQuery
import OracleNIO.OracleRow
import OracleNIO.OracleStatement
import OracleNIO.OutgoingStrings
import OracleNIO.OverlappingCalls
import OracleNIO.Placeholders
import OracleNIO.PooledHandles
import OracleNIO.Positional
import OracleNIO.QueryHandles
import OracleNIO.ReadingValues
import OracleNIO.RingBuffer
import OracleNIO.RowColumns
import OracleNIO.RowDelivery
import OracleNIO.SlotTable
import OracleNIO.StatementCalls
import OracleNIO.StatementHandles
import OracleNIO.StatementProtocol
import OracleNIO.SwiftRuntime
import OracleNIO.TaskOperations
import OracleNIO.TextColumns
import OracleNIO.TimestampOffsets
import OracleNIO.TimestampRoundTrip
import OracleNIO.WorkerPool
import OracleNIO.WrittenTimestamps
