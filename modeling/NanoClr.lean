import NanoClr.GarbageCollector.MarkStackSafety
import NanoClr.GarbageCollector.WeakDelegatesListed
import NanoClr.Heap.HeapRuns
import NanoClr.Heap.SalvageScan
import NanoClr.Pal.CompletionQueue
import NanoClr.Startup.DeploymentScanExact
import NanoClr.WireProtocol.Message
import NanoClr.EventCache.CacheConservation
import NanoClr.EventCache.VirtualMethodCache
import NanoClr.StaticConstructors.ConstructorOrder
import NanoClr.Interrupts.EventsKept
import NanoClr.Messaging.PacketSafety
import NanoClr.Collections.ArrayList
import NanoClr.Collections.Stack
import NanoClr.Collections.QueueRuns
import NanoClr.Library.BitStrings
import NanoClr.Streams.BitRoundTrip
import NanoClr.Scheduling.CounterRuns
import NanoClr.Support.ChecksumDivision
import NanoClr.TypeSystem.CompressData
import NanoClr.Timers.ChangeTimer
import NanoClr.Timers.RescheduleTimer
import NanoClr.Text.CountCharacters
import NanoClr.TypeSystem.SubtypeTest
import NanoClr.TypeSystem.LayoutAgreement
import NanoClr.TypeSystem.TypeNameRoundTrip
import NanoClr.Delegates.DelegateAlgebra
import NanoClr.Serialization.CompressedUnsigned
import NanoClr.HeapBlocks.NumericOperations
import NanoClr.HeapBlocks.HashCodes
import NanoClr.Text.SplitStrings
import NanoClr.Text.DecodeChunks
import NanoClr.Text.StringSearch
import NanoClr.Serialization.SerializationHints
import NanoClr.Calendar.DateTime
import NanoClr.Interrupts.BulkQueue
import NanoClr.Hal.RingBufferFifo
import NanoClr.Pal.UsageVisits
import NanoClr.Hal.ConfigurationBlocks
import NanoClr.Convert.FromBase64
import NanoClr.Convert.FormatNative
import NanoClr.Convert.IntegerParsing
import NanoClr.Convert.TrimmedNumerals
import NanoClr.Hal.LinkedListRuns
import NanoClr.GarbageCollector.MarkAndSweep
import NanoClr.Debugger.FieldByOffset
import NanoClr.Linking.LeastResolution
import NanoClr.TypeSystem.LocalsAgreement
import NanoClr.NativeMemory.MemorySafety
import NanoClr.TypeSystem.VirtualDispatch
import NanoClr.WireProtocol.ReceiverRuns
import NanoClr.Scheduling.SignalRuns
