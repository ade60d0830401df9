import DatabaseJones.Library.Run
import DatabaseJones.Library.PrefixOrder
import DatabaseJones.Library.Endian
import DatabaseJones.Transaction.Trace
import DatabaseJones.Transaction.Session
import DatabaseJones.Transaction.Bracketing
import DatabaseJones.Transaction.Phase
import DatabaseJones.Transaction.Completion
import DatabaseJones.Transaction.Delivery
import DatabaseJones.Transaction.Failure
import DatabaseJones.Transaction.Absent
import DatabaseJones.Transaction.Begin
import DatabaseJones.IndexBounds.Endpoint
import DatabaseJones.IndexBounds.NumberLine
import DatabaseJones.Library.Sweep
import DatabaseJones.IndexBounds.LineMeaning
import DatabaseJones.IndexBounds.LineStack
import DatabaseJones.IndexBounds.LineAlgebra
import DatabaseJones.IndexBounds.IndexBoundVisitor
import DatabaseJones.Ndb.ScanBound
import DatabaseJones.Query.Predicate
import DatabaseJones.BitMask.Words
import DatabaseJones.BitMask.Runs
import DatabaseJones.Query.SqlVisitor
import DatabaseJones.Query.QueryHandler
import DatabaseJones.Query.SqlGrammar
import DatabaseJones.Query.SqlText
import DatabaseJones.Query.SqlRoundTrip
import DatabaseJones.Query.SqlLiterals
import DatabaseJones.Query.LiteralTokens
import DatabaseJones.Ndb.IntegerEncoders
import DatabaseJones.Ndb.IntegerRoundTrip
import DatabaseJones.Ndb.TemporalEncoders
import DatabaseJones.Ndb.TemporalRoundTrip
import DatabaseJones.Ndb.TemporalValidity
import DatabaseJones.Ndb.TemporalOrder
import DatabaseJones.Ndb.BinaryEncoders
import DatabaseJones.Ndb.StringEncoders
import DatabaseJones.Library.Strtol
import DatabaseJones.Ndb.BigintEncoders
import DatabaseJones.NdbTransaction.Session
import DatabaseJones.NdbTransaction.Contexts
import DatabaseJones.QueryOperation.Images
import DatabaseJones.NdbOperation.ScanFilter
import DatabaseJones.NdbOperation.Builder
import DatabaseJones.NdbOperation.EncoderErrors
import DatabaseJones.TableHandler.Column
import DatabaseJones.TableHandler.Handler
import DatabaseJones.TableHandler.IndexChoice
import DatabaseJones.TableHandler.IndexColumns
import DatabaseJones.TableHandler.IndexMasks
import DatabaseJones.TableHandler.ReadingFrame
import DatabaseJones.NdbOperation.FilterExecution
import DatabaseJones.NdbOperation.FilterMeaning
import DatabaseJones.NdbOperation.OperationResults
import DatabaseJones.NdbOperation.ScanResults
import DatabaseJones.TimeStrings.Conversion
import DatabaseJones.TimeStrings.Preservation
import DatabaseJones.Library.DistinctSort
import DatabaseJones.MySQLSerialize.WellFormed
import DatabaseJones.Ndb.Recoding
import DatabaseJones.Ndb.VarcharRoundTrip
import DatabaseJones.Ndb.CharRoundTrip
import DatabaseJones.Library.BreadthFirst
import DatabaseJones.Projections.Invalidation
import DatabaseJones.Projections.Versions
import DatabaseJones.Promise.Resolution
import DatabaseJones.NdbOperation.FilterEquivalence
import DatabaseJones.TableHandler.FieldNumbers
import DatabaseJones.TableHandler.ColumnNumbers
import DatabaseJones.Library.Utf16
import DatabaseJones.MySQLSerialize.Termination
import DatabaseJones.MySQLSerialize.Parse
import DatabaseJones.Library.OptionLists
import DatabaseJones.MySQLSerialize.Scalars
import DatabaseJones.MySQLSerialize.Layout
import DatabaseJones.MySQLSerialize.AnyBuffer
import DatabaseJones.MySQLSerialize.Containers
import DatabaseJones.MySQLSerialize.RoundTrip
import DatabaseJones.Library.Story
import DatabaseJones.QueuedAsyncCall.Queue
import DatabaseJones.QueuedAsyncCall.Exclusion
import DatabaseJones.QueuedAsyncCall.Effects
import DatabaseJones.DictionaryCall.Groups
import DatabaseJones.DictionaryCall.Delivery
import DatabaseJones.Promise.Promise
import DatabaseJones.Promise.Reactions
import DatabaseJones.Promise.Delivery
import DatabaseJones.Promise.Registration
import DatabaseJones.AutoIncrement.Handler
import DatabaseJones.AutoIncrement.Assignment
import DatabaseJones.AutoIncrement.Batches
import DatabaseJones.Library.Acyclic
import DatabaseJones.Library.BitCount
import DatabaseJones.SessionImpl.Grants
import DatabaseJones.Library.Memory
import DatabaseJones.NdbRecordObject.Record
import DatabaseJones.Library.Components
import DatabaseJones.NdbRecordObject.Views
import DatabaseJones.NdbRecordObject.Refinement
import DatabaseJones.UserContext.Operations
import DatabaseJones.UserContext.Reports
import DatabaseJones.UserContext.TableMappings
import DatabaseJones.Batch.Execution
import DatabaseJones.Batch.Invariant
import DatabaseJones.Batch.Completion
import DatabaseJones.NdbRecordObject.WrittenColumns
import DatabaseJones.ApiTransaction.Machine
import DatabaseJones.ApiTransaction.Law
import DatabaseJones.Library.Ledger
import DatabaseJones.NdbConnection.Sharing
import DatabaseJones.NdbConnection.Opening
import DatabaseJones.NdbConnection.Closing
import DatabaseJones.NdbConnectionPool.Sessions
import DatabaseJones.NdbConnectionPool.Places
import DatabaseJones.NdbConnectionPool.Opening
import DatabaseJones.NdbConnectionPool.Runs
import DatabaseJones.SessionFactory.Ownership
import DatabaseJones.SessionFactory.Sessions
import DatabaseJones.SessionFactory.Closing
import DatabaseJones.JonesConnections.Registry
import DatabaseJones.JonesConnections.Factories
import DatabaseJones.JonesConnections.Connecting
import DatabaseJones.PredicateObjects.Objects
import DatabaseJones.PredicateObjects.Trees
import DatabaseJones.PredicateObjects.Marks
import DatabaseJones.PredicateObjects.SqlTexts
import DatabaseJones.PredicateObjects.Values
import DatabaseJones.Library.Writes
import DatabaseJones.MySQLConnection.Statements
import DatabaseJones.IndexBounds.EndpointOrder
import DatabaseJones.Library.Loop
import DatabaseJones.Loader.Tokenizer
import DatabaseJones.Loader.TokenSteps
import DatabaseJones.Loader.TokenRoundTrip
import DatabaseJones.Mapping.Verifiers
import DatabaseJones.Mapping.TableMapping
import DatabaseJones.Mapping.Validity
import DatabaseJones.Mapping.Runs
import DatabaseJones.Library.QuotedWords
import DatabaseJones.TableCreation.SQLBuilder
import DatabaseJones.TableCreation.Definitions
import DatabaseJones.TableCreation.Written
import DatabaseJones.TableCreation.Statement
import DatabaseJones.TableCreation.Reading
import DatabaseJones.TableCreation.Correspondence
import DatabaseJones.Loader.Scanner
import DatabaseJones.Loader.TextFieldReading
import DatabaseJones.MySQLDictionary.ParseCreateTable
import DatabaseJones.MySQLDictionary.ShowCreateTable
import DatabaseJones.MySQLDictionary.Columns
import DatabaseJones.MySQLDictionary.Clauses
import DatabaseJones.MySQLDictionary.Lines
import DatabaseJones.MySQLDictionary.ReadingBack
import DatabaseJones.MySQLDictionary.PlainNames
