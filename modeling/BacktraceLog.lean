import BacktraceLog.Log.Clear
import BacktraceLog.Log.Bounds
import BacktraceLog.Log.Carve
import BacktraceLog.Log.Checksum
import BacktraceLog.Log.Persistence
import BacktraceLog.Log.Lasting
import BacktraceLog.Log.Report
import BacktraceLog.Log.Printed
import BacktraceLog.Log.Provenance
import BacktraceLog.Unwind.Progress
import BacktraceLog.Unwind.Levels
import BacktraceLog.Unwind.Soundness
import BacktraceLog.Unwind.Region
import BacktraceLog.Unwind.CachedRead
import BacktraceLog.Unwind.ReadOrder
import BacktraceLog.Crash.Callback
import BacktraceLog.Crash.Ends
import BacktraceLog.Crash.CallTrace
import BacktraceLog.Crash.Depends
import BacktraceLog.Crash.Calls
import BacktraceLog.Crash.CacheOff
import BacktraceLog.Hwdt.PostProcessing
import BacktraceLog.Hwdt.Record
import BacktraceLog.Hwdt.Boots
import BacktraceLog.System.Lifetime
import BacktraceLog.System.CrashReport
import BacktraceLog.System.SecondHeap
