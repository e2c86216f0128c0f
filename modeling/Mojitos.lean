import Mojitos.Base.Segments
import Mojitos.Base.Heap
import Mojitos.Base.Runs
import Mojitos.Base.Decimal
import Mojitos.AmdRapl
import Mojitos.RegistryLayout
import Mojitos.RegistryExit
import Mojitos.MemoryCounters
import Mojitos.MemoryCountersOrder
import Mojitos.Prometheus
import Mojitos.PrometheusExport
import Mojitos.PrometheusBounds
import Mojitos.Kernel
import Mojitos.Rapl
import Mojitos.RaplRun
import Mojitos.CounterTable
import Mojitos.Counters
import Mojitos.CountersOpen
import Mojitos.Network
import Mojitos.NetworkSearch
import Mojitos.NetworkScan
import Mojitos.NetworkChunks
import Mojitos.NetworkRoute
import Mojitos.Disk
import Mojitos.Load
import Mojitos.Readings
import Mojitos.RegistryTurns
import Mojitos.RegistryIsolation
import Mojitos.Sources
import Mojitos.SourcesAlone
import Mojitos.Interference
import Mojitos.InterferenceRuns
import Mojitos.AmdTopology
import Mojitos.AmdCores
import Mojitos.AmdBaseline
import Mojitos.Base.Cumulative
import Mojitos.Cumulative
import Mojitos.NetworkNames
import Mojitos.DisplayManager
import Mojitos.Sampling
import Mojitos.RecordFormat
import Mojitos.Base.Ticks
import Mojitos.SamplingRate
import Mojitos.Optparse
import Mojitos.OptparseWords
import Mojitos.OptparseForms
import Mojitos.CommandLine
import Mojitos.CommandLineSplit
import Mojitos.CommandLineServed
import Mojitos.CommandLinePartition
import Mojitos.OptparseProgress
import Mojitos.Lifecycle
import Mojitos.LifecycleCycles
import Mojitos.InfoReaderMatch
import Mojitos.MemoryCountersList
import Mojitos.Base.Fields
import Mojitos.UtilFields
import Mojitos.DiskFields
import Mojitos.DiskDecoding
import Mojitos.DiskReports
import Mojitos.InfoReaderLines
import Mojitos.LoadDecoding
import Mojitos.PrometheusNames
import Mojitos.Base.Enumeration
import Mojitos.Temperature
import Mojitos.TemperatureScan
import Mojitos.TemperatureComplete
import Mojitos.Base.Slots
import Mojitos.NvidiaGpu
import Mojitos.NvidiaLayout
import Mojitos.NvidiaAgreement
import Mojitos.Base.Mutex
import Mojitos.PrometheusThreads
import Mojitos.Base.Lines
import Mojitos.LogFile
import Mojitos.Main
import Mojitos.Memory
import Mojitos.LogColumns
import Mojitos.LogReports
import Mojitos.OptparseRuns
import Mojitos.MainDefined
import Mojitos.Infiniband
import Mojitos.TemperatureColumns
import Mojitos.PrometheusPages
import Mojitos.Base.Blocking
import Mojitos.PrometheusMain
import Mojitos.PrometheusDefined
import Mojitos.PrometheusStop
import Mojitos.LogCut
import Mojitos.Likwid
import Mojitos.RaplColumns
import Mojitos.InfoReaderFiles
import Mojitos.AmdColumns
import Mojitos.NvidiaColumns
import Mojitos.Base.Lasting
import Mojitos.RegistryLasting
import Mojitos.LogLasting
import Mojitos.MemoryColumns
