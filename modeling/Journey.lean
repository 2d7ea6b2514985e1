import Journey.Lib.Machine
import Journey.Bustub.Primer.CountMinSketch
import Journey.Bustub.Primer.SketchRep
import Journey.Bustub.Primer.SketchInterleave
import Journey.Bustub.Storage.TablePage
import Journey.Bustub.Storage.TableHeap
import Journey.Bustub.Storage.HeapRep
import Journey.Bustub.Storage.HeapScan
import Journey.Bustub.Storage.SnapshotScan
import Journey.Bustub.Storage.DiskManager
import Journey.Bustub.Storage.DiskManagerMemory
import Journey.Bustub.Type.Value
import Journey.Bustub.Catalog.Schema
import Journey.Bustub.Storage.TupleCodec
import Journey.Bustub.Execution.Executors
import Journey.Bustub.Execution.Pipeline
import Journey.Bustub.Execution.Restart
import Journey.Bustub.Type.Cast
import Journey.Bustub.Execution.Expressions
import Journey.Bustub.Execution.JoinRewrite
import Journey.Bustub.Storage.Index
import Journey.Bustub.Catalog.Catalog
import Journey.Bustub.Catalog.IndexBuild
import Journey.Bustub.Concurrency.UndoLinks
import Journey.Bustub.Concurrency.VersionLatches
import Journey.Bustub.Common.Session
import Journey.Bustub.Optimizer.Plan
import Journey.Bustub.Optimizer.MergeProjection
import Journey.Bustub.Optimizer.MergeFilterNLJ
import Journey.Bustub.Optimizer.OrderByIndexScan
import Journey.Bustub.Optimizer.NLJAsIndexJoin
import Journey.Bustub.Optimizer.IndexRules
import Journey.Bustub.Storage.IndexRuns
import Journey.Bustub.Storage.KeyOrder
import Journey.Bustub.Storage.IndexMap
import Journey.Bustub.Type.Coherence
import Journey.Bustub.Type.Hash
import Journey.Bustub.Execution.Aggregation
import Journey.Bustub.Type.Timestamp
import Journey.Bustub.Binder.Statements
import Journey.Bustub.Planner.Expressions
import Journey.Bustub.Planner.Aggregation
import Journey.Bustub.Planner.Select
import Journey.Bustub.Planner.Rewriting
import Journey.Bustub.Planner.Repeat
import Journey.Bustub.Planner.Values
import Journey.Bustub.Planner.Names
import Journey.Bustub.Storage.DiskGrowth
import Journey.Bustub.Storage.PageFrame
import Journey.Bustub.Storage.DiskReuse
import Journey.Bustub.Storage.DeleteCount
import Journey.Bustub.Storage.HeapOversize
import Journey.Allocator.Arena
import Journey.Containers.Vector
import Journey.Containers.VectorCalls
import Journey.Containers.VectorList
import Journey.Containers.VectorLifetimes
import Journey.Bustub.Common.StringUtil
import Journey.Bustub.Tools.SqlLogicTest
import Journey.Bustub.Tools.SqlLogicTestSafety
import Journey.Bustub.Tools.SqlLogicTestRoundTrip
import Journey.Bustub.Primer.SketchTopK
import Journey.Bustub.Type.Arithmetic
import Journey.Bustub.Execution.ArithmeticTrees
import Journey.Bustub.Type.IntegerCasts
import Journey.Bustub.Type.TimestampOrder
import Journey.Bustub.Optimizer.EliminateTrueFilter
import Journey.Containers.VectorGrowth
import Journey.Containers.VectorThrows
import Journey.Bustub.Planner.Update
import Journey.Bustub.Common.Ddl
import Journey.Concurrency.ParallelAccumulate
import Journey.Lib.SignedInts
import Journey.Bustub.Type.IntegerWidths
import Journey.Bustub.Optimizer.MergeFilterScan
import Journey.Bustub.Optimizer.Optimizer
import Journey.Bustub.Planner.WellTyped
import Journey.Bustub.Common.Channel
import Journey.Bustub.Execution.MockTables
import Journey.Bustub.Planner.QueryRun
import Journey.Bustub.Binder.BindExpression
import Journey.Bustub.Binder.BindSelect
import Journey.Lib.Outcomes
import Journey.Bustub.Binder.Scoping
import Journey.Bustub.Binder.ScopedStatements
import Journey.Bustub.Binder.Session
import Journey.Bustub.Planner.Depth
import Journey.Bustub.Planner.Safety
import Journey.Bustub.Planner.Query
import Journey.Bustub.Planner.Served
import Journey.Bustub.Concurrency.Transactions
import Journey.Bustub.Type.TextOrder
