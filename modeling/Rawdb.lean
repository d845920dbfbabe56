import Rawdb.Bytes
import Rawdb.Schema
import Rawdb.Store
import Rawdb.Probe
import Rawdb.Types
import Rawdb.SampleCodec
import Rawdb.ReadPath
import Rawdb.Freezer
import Rawdb.Quiescent
import Rawdb.BadBlocks
import Rawdb.Writers
import Rawdb.HeaderIndex
import Rawdb.CommonAncestor
import Rawdb.Logs
import Rawdb.RangeScans
import Rawdb.RoundTrip
import Rawdb.Scalars
import Rawdb.AncientWrite
import Rawdb.AncestorSearch
import Rawdb.Linearizable
import Rawdb.Records
import Rawdb.Caches
import Rawdb.DecodingReads
import Rawdb.LiveScans
import Rawdb.HeaderFiling
import Rawdb.WriterRuns
import Rawdb.FreezerCycle
import Rawdb.Crashes
