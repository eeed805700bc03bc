import VariousStuff.HashTableAllocation
import VariousStuff.KallsymsBootstrapRuns
import VariousStuff.LkmTemplateReports
import VariousStuff.LkmTemplateTargets
import VariousStuff.SymbolSizeOffsetParsing
import VariousStuff.SysCallTablePage
import VariousStuff.SysCallTableEntry
import VariousStuff.SyscallWrapper
import VariousStuff.SmallStartPrints
import VariousStuff.GrabUmountListWalk
import VariousStuff.SyscallTest
import VariousStuff.SulogTest
import VariousStuff.ProcKallsymsHook
import VariousStuff.ProfileSessionRuns
import VariousStuff.ProfileToolReports
import VariousStuff.LegacyFallback
import VariousStuff.Memccpy
import VariousStuff.AverageBenchMedians
import VariousStuff.SyscallBenchMain
import VariousStuff.SuToolsGrants
import VariousStuff.ChibiHash64Differences
import VariousStuff.ChibiHash64Reads
import VariousStuff.HostapdFakeCountry
import VariousStuff.TrafficIndicator
import VariousStuff.StartDemos
