import Omi.Candidates.Effects
import Omi.Candidates.IntegrationOutbox
import Omi.Candidates.Records
import Omi.Candidates.ResolvedOnce
import Omi.Candidates.Store
import Omi.ChatFirst.Delivery
import Omi.ChatFirst.Effects
import Omi.ChatFirst.Intents
import Omi.ChatFirst.Store
import Omi.Conversations.Merge
import Omi.Conversations.MergeContent
import Omi.Conversations.MergeSafety
import Omi.Conversations.MergeTimeline
import Omi.Conversations.ShareEmail
import Omi.Cutover.Coordinator
import Omi.Cutover.Interleaving
import Omi.Cutover.State
import Omi.Finalization.Completion
import Omi.Finalization.Fanout
import Omi.Finalization.Jobs
import Omi.Finalization.Lease
import Omi.Finalization.ProcessingLease
import Omi.Finalization.Projection
import Omi.Finalization.Replay
import Omi.Finalization.Store
import Omi.Finalization.Sweep
import Omi.Finalization.SweepRotation
import Omi.Foundation.Attempts
import Omi.Foundation.Bisect
import Omi.Foundation.Blocks
import Omi.Foundation.BytePack
import Omi.Foundation.Checks
import Omi.Foundation.CompareAndSet
import Omi.Foundation.Custody
import Omi.Foundation.Framing
import Omi.Foundation.LastWrite
import Omi.Foundation.ListCuts
import Omi.Foundation.Loops
import Omi.Foundation.Machine
import Omi.Foundation.NumberText
import Omi.Foundation.Paging
import Omi.Foundation.PieceMap
import Omi.Foundation.PyText
import Omi.Foundation.PyValue
import Omi.Foundation.Redis
import Omi.Foundation.Rounding
import Omi.Foundation.Runs
import Omi.Foundation.SendLedger
import Omi.Foundation.Settlement
import Omi.Foundation.SharedCursor
import Omi.Foundation.SlidingWindows
import Omi.Foundation.StableSort
import Omi.Foundation.Table
import Omi.Foundation.VersionLog
import Omi.Frames.Cleanup
import Omi.Frames.CleanupSafety
import Omi.Frames.Evidence
import Omi.Frames.Lifecycle
import Omi.Frames.Queue
import Omi.Frames.Request
import Omi.Frames.UploadedObjects
import Omi.Memory.Apply
import Omi.Memory.ApplyCases
import Omi.Memory.ChangesOnce
import Omi.Memory.CommitChain
import Omi.Memory.ContentHash
import Omi.Memory.Control
import Omi.Memory.GraphFence
import Omi.Memory.GraphRuns
import Omi.Memory.GraphStore
import Omi.Memory.Immutability
import Omi.Memory.Item
import Omi.Memory.Legality
import Omi.Memory.Operation
import Omi.Memory.OutboxFence
import Omi.Memory.OutboxWorker
import Omi.Memory.Patch
import Omi.Memory.Promotion
import Omi.Memory.ReplacementFence
import Omi.Memory.ReplacementLog
import Omi.Memory.ReplacementPlan
import Omi.Memory.Retraction
import Omi.Memory.RowLog
import Omi.Memory.RowRuns
import Omi.Memory.SourceReplacement
import Omi.Memory.Writer
import Omi.Memory.WriterFence
import Omi.MemoryList.CursorPaging
import Omi.MemoryList.PageSpec
import Omi.MemoryList.Resume
import Omi.MemoryList.Rows
import Omi.MemoryList.ScanSpec
import Omi.MemoryList.Shown
import Omi.MemoryList.StreamSpec
import Omi.MemoryList.Streams
import Omi.MemoryList.Visibility
import Omi.Pendant.BatchWriter
import Omi.Pendant.DartLoops
import Omi.Pendant.Diagnostics
import Omi.Pendant.DrainAcks
import Omi.Pendant.DrainParity
import Omi.Pendant.FlashDrain
import Omi.Pendant.FlashPages
import Omi.Pendant.Protocol
import Omi.Pendant.Reassembly
import Omi.Pendant.RoundTrip
import Omi.Pendant.Termination
import Omi.Pendant.Varint
import Omi.Pendant.WireFields
import Omi.Playback.TimelineMapper
import Omi.Pusher.Announce
import Omi.Pusher.Buffers
import Omi.Pusher.Frames
import Omi.Pusher.Reconnect
import Omi.Pusher.Session
import Omi.Pusher.World
import Omi.PusherServer.Accounting
import Omi.PusherServer.AudioAccounting
import Omi.PusherServer.AudioSession
import Omi.PusherServer.ChunkStarts
import Omi.PusherServer.PendingBatches
import Omi.PusherServer.PrivateCloudCustody
import Omi.Storage.ChunkCodec
import Omi.Storage.ChunkMerge
import Omi.Stt.Soniox
import Omi.Sync.Jobs
import Omi.Sync.Ledger
import Omi.Sync.LedgerFence
import Omi.Sync.LedgerOnce
import Omi.Sync.MergeDedupe
import Omi.Sync.MergeTimeline
import Omi.Sync.OrderedAssignment
import Omi.Sync.RunLock
import Omi.Sync.TerminalStatus
import Omi.Sync.VadSegments
import Omi.Transcripts.ChunkHydration
import Omi.Transcripts.Chunks
import Omi.Transcripts.CombineReports
import Omi.Transcripts.CombineSegments
import Omi.Transcripts.CombineTimeline
import Omi.Transcripts.Sentences
import Omi.Vad.Alignment
import Omi.Vad.Conservation
import Omi.Vad.Cursor
import Omi.Vad.Finalize
import Omi.Vad.Gate
import Omi.Vad.WallTime
import Omi.Wals.FlashPageAcks
import Omi.Wals.FlashPageSync
import Omi.Wals.FrameFile
import Omi.Wals.LocalSync
import Omi.Wals.RingFraming
import Omi.Wals.RingSafety
import Omi.Wals.RingSync
import Omi.Wals.SessionCapture
import Omi.Wals.SessionFrames
import Omi.Wals.StorageIndices
import Omi.Wals.StorageSync
import Omi.Wals.Upload
import Omi.Wals.UploadClaims
import Omi.Wals.UploadStatus
import Omi.Wals.Wal
