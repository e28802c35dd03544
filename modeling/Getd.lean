import Getd.Lib.Reads
import Getd.Codes
import Getd.Chronicle
import Getd.ReadErrors
import Getd.Disclosure
import Getd.Truncation
import Getd.Acknowledgement
import Getd.Receive
import Getd.Residue
import Getd.Decoding
import Getd.SessionIds
import Getd.StoredId
import Getd.Record
import Getd.UserName
import Getd.OpenFiles
import Getd.Transfer
import Getd.Streams
import Getd.Nanomsg.Wedge
import Getd.Nanomsg.Tasks
import Getd.Nanomsg.Timers
import Getd.Peers
import Getd.Nanomsg.Ticking
