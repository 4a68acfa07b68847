import Gloworm.AtaDisk
import Gloworm.BufcacheFaultContents
import Gloworm.BufcacheRuns
import Gloworm.ElfImage
import Gloworm.ExitedProcess
import Gloworm.Ext2Counts
import Gloworm.Ext2InodeWrite
import Gloworm.Ext2Path
import Gloworm.Ext2Readdir
import Gloworm.Ext2Super
import Gloworm.Ext2Truncate
import Gloworm.FileDescRuns
import Gloworm.FileTransfer
import Gloworm.Gmtime
import Gloworm.InternetChecksum
import Gloworm.KmallocRuns
import Gloworm.MinixReaddir
import Gloworm.MinixRename
import Gloworm.MinixVnodeIdentity
import Gloworm.MinixZoneLookup
import Gloworm.NumberText
import Gloworm.PacketOwnershipRuns
import Gloworm.PageRuns
import Gloworm.PipeModel
import Gloworm.ProcessFamily
import Gloworm.QueueRuns
import Gloworm.Select
import Gloworm.SignalDelivery
import Gloworm.SlipRoundTrip
import Gloworm.SystemClock
import Gloworm.TcpDemux
import Gloworm.TcpSendRing
import Gloworm.TcpStreamEnd
import Gloworm.TcpTranslate
import Gloworm.TcpTransmit
import Gloworm.UnsignedDivision
import Gloworm.VfsParents
import Gloworm.VfsReadOnly
