import EF2SDK.Schedule
import EF2SDK.SifRpc
import EF2SDK.SifRpcReplies
import EF2SDK.SifRpcPool
import EF2SDK.ByteMemory
import EF2SDK.Chunks
import EF2SDK.Heap
import EF2SDK.HeapLayout
import EF2SDK.HeapOps
import EF2SDK.HeapClient
import EF2SDK.HeapCoalescing
import EF2SDK.AudioRate
import EF2SDK.AudioRateStream
import EF2SDK.IopAudio
import EF2SDK.IopAudioQueue
import EF2SDK.IopAudioBlocking
import EF2SDK.IopPad
import EF2SDK.IopPadOutcomes
import EF2SDK.IopPadSelect
import EF2SDK.Gif
import EF2SDK.GifStream
import EF2SDK.IopStorage
import EF2SDK.Mx4sio
import EF2SDK.Mx4sioAddress
import EF2SDK.Gs
import EF2SDK.Video
import EF2SDK.VideoUpload
import EF2SDK.Ranges
import EF2SDK.VideoActive
import EF2SDK.VideoVram
import EF2SDK.VideoInit
import EF2SDK.Format
import EF2SDK.FormatRender
import EF2SDK.MemoryCard
import EF2SDK.Mmce
import EF2SDK.StorageRpc
import EF2SDK.Storage
import EF2SDK.StorageNames
import EF2SDK.IopPadRewrites
import EF2SDK.IopPadSent
import EF2SDK.IopPadNeutral
import EF2SDK.HeapTiling
import EF2SDK.DebugLog
import EF2SDK.ScanProbes
import EF2SDK.ScanReport
import EF2SDK.ChunkedTransfer
import EF2SDK.StorageExchanges
import EF2SDK.StorageTransfers
import EF2SDK.SifInit
import EF2SDK.SifInitRuns
import EF2SDK.Edges
import EF2SDK.Pad
import EF2SDK.PadEdges
import EF2SDK.IopAudioVolume
import EF2SDK.IopAudioWakeups
import EF2SDK.HeapLoan
import EF2SDK.Stdio
import EF2SDK.StdioDelivery
import EF2SDK.IopBlocks
import EF2SDK.HeapResize
import EF2SDK.AudioRateBounds
import EF2SDK.BitFields
import EF2SDK.GsPackets
import EF2SDK.VideoDraw
import EF2SDK.VideoTexture
import EF2SDK.VideoTexels
import EF2SDK.IopPadLayout
import EF2SDK.GifTags
import EF2SDK.VideoStream
import EF2SDK.AudioRateMonotone
import EF2SDK.FormatNumbers
import EF2SDK.FormatPieces
import EF2SDK.ChunkFrees
import EF2SDK.HeapFrees
import EF2SDK.MemoryCardReads
import EF2SDK.VideoPacking
import EF2SDK.ByteNumbers
import EF2SDK.Mx4sioCapacity
import EF2SDK.BitPolynomials
import EF2SDK.Mx4sioCrc
import EF2SDK.Rounding
import EF2SDK.AudioMix
import EF2SDK.AudioRateCopy
import EF2SDK.HeapCalloc
import EF2SDK.Profile
import EF2SDK.GifDma
import EF2SDK.GifDmaStats
import EF2SDK.GifSends
import EF2SDK.FlagRegister
import EF2SDK.Timer
import EF2SDK.LookBehind
import EF2SDK.DebugSio
import EF2SDK.Runtime
import EF2SDK.LibcMemory
import EF2SDK.Offers
import EF2SDK.StdioOffers
import EF2SDK.AudioRateDrift
import EF2SDK.CrashLog
import EF2SDK.DoubleBuffer
import EF2SDK.IopPlayback
import EF2SDK.IopPlaybackBlocks
import EF2SDK.IopPlaybackSteps
import EF2SDK.IopPlaybackInv
import EF2SDK.IopPlaybackOrder
import EF2SDK.IopAudioCommitted
import EF2SDK.AudioClient
import EF2SDK.GsMachine
import EF2SDK.Canvas
import EF2SDK.VideoScreens
import EF2SDK.VideoPainter
import EF2SDK.VideoTransfers
import EF2SDK.VideoRefines
import EF2SDK.TextGrid
import EF2SDK.Crash
import EF2SDK.CrashScreen
import EF2SDK.CrashDispatch
import EF2SDK.StorageSession
import EF2SDK.StorageDirect
import EF2SDK.StorageClient
import EF2SDK.Mutex
import EF2SDK.Sio2
import EF2SDK.Sio2Answers
import EF2SDK.Sio2Progress
