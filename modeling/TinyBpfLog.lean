import TinyBpfLog.Backend.Commands
import TinyBpfLog.Backend.History
import TinyBpfLog.Backend.Threads
import TinyBpfLog.Bpftools.Attribution
import TinyBpfLog.Bpftools.MountCall
import TinyBpfLog.Bpftools.MountFilters
import TinyBpfLog.Bpftools.ProcessFilters
import TinyBpfLog.Bpftools.SourceAddress
import TinyBpfLog.Bpftools.StaleBytes
import TinyBpfLog.Protocol.Addressing
import TinyBpfLog.Protocol.Names
import TinyBpfLog.Protocol.Network
import TinyBpfLog.Protocol.Queries
import TinyBpfLog.Protocol.Segments
import TinyBpfLog.Protocol.Session
import TinyBpfLog.Runtime.Progress
