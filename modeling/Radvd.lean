import Radvd.Agreement
import Radvd.BufferStorage
import Radvd.Dump.Defaults
import Radvd.Dump.Reads
import Radvd.Dump.Restart
import Radvd.Dump.WellFormed
import Radvd.ForeignDomains
import Radvd.Grammar.Order
import Radvd.Ignored
import Radvd.InterfaceNames
import Radvd.Membership
import Radvd.Netlink
import Radvd.PidFile
import Radvd.PrivsepFiles
import Radvd.PrivsepPipe
import Radvd.Program
import Radvd.SearchDomains
import Radvd.Source
import Radvd.Spacing
import Radvd.Withdrawal
