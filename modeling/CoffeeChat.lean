import CoffeeChat.Lib.Memory
import CoffeeChat.Lib.Loop
import CoffeeChat.Lib.Run
import CoffeeChat.Lib.Recorded
import CoffeeChat.Lib.Refinement
import CoffeeChat.Lib.Pieces
import CoffeeChat.Lib.Endian
import CoffeeChat.Lib.WireFormat
import CoffeeChat.Lib.WireFields
import CoffeeChat.Lib.Utf8
import CoffeeChat.Lib.Reader
import CoffeeChat.Lib.Schema
import CoffeeChat.Lib.FieldTypes
import CoffeeChat.Lib.Regex
import CoffeeChat.Lib.Decimal
import CoffeeChat.Lib.Effect
import CoffeeChat.Lib.Keyed
import CoffeeChat.Lib.Seek
import CoffeeChat.Lib.FileTree
import CoffeeChat.Lib.Calendar
import CoffeeChat.Base.Buffer
import CoffeeChat.Base.BufferLemmas
import CoffeeChat.Base.Represents
import CoffeeChat.Base.ByteQueue
import CoffeeChat.Base.TypedQueue
import CoffeeChat.Base.Limits
import CoffeeChat.Base.FileUtil
import CoffeeChat.Base.PathScan
import CoffeeChat.Base.CreateDirectory
import CoffeeChat.Core.Messages
import CoffeeChat.Core.MessagesLemmas
import CoffeeChat.Core.Client
import CoffeeChat.Core.Frame
import CoffeeChat.Core.SendLemmas
import CoffeeChat.Core.Sequence
import CoffeeChat.Core.Receive
import CoffeeChat.Core.Walk
import CoffeeChat.Core.Coalescing
import CoffeeChat.Core.EndToEnd
import CoffeeChat.Core.Wire
import CoffeeChat.Net.TcpClient
import CoffeeChat.Net.TcpClientLemmas
import CoffeeChat.Net.Connect
import CoffeeChat.Net.Steps
import CoffeeChat.Net.Owner
import CoffeeChat.Net.PendingConnect
import CoffeeChat.Net.ConnectCalls
import CoffeeChat.Net.Single
import CoffeeChat.Core.Fragmentation
import CoffeeChat.Core.Robustness
import CoffeeChat.Core.Session
import CoffeeChat.Core.SessionLemmas
import CoffeeChat.Core.History
import CoffeeChat.Core.Untouched
import CoffeeChat.Core.Conversation
import CoffeeChat.Core.Memory
import CoffeeChat.Core.LoginState
import CoffeeChat.Core.Outcomes
import CoffeeChat.Core.Greeting
import CoffeeChat.Core.Numbering
import CoffeeChat.Core.Attempts
import CoffeeChat.Core.PublicCalls
import CoffeeChat.Core.KeepAlive
import CoffeeChat.Core.Deadlines
import CoffeeChat.Core.MessageModel
import CoffeeChat.Core.MessageTime
import CoffeeChat.Crypt.MD5
import CoffeeChat.Crypt.MD5Correct
import CoffeeChat.Crypt.MD5Digest
import CoffeeChat.Crypt.MD5Chunks
import CoffeeChat.Db.Sqlite
import CoffeeChat.Db.ConfigDao
import CoffeeChat.Db.QueryLoop
import CoffeeChat.Db.ConfigStore
import CoffeeChat.Db.Startup
import CoffeeChat.Db.CompleteStore
import CoffeeChat.Db.FailedQuery
import CoffeeChat.Db.Usage
import CoffeeChat.Core.UserManager
import CoffeeChat.Pb.Classes
import CoffeeChat.Pb.Codecs
import CoffeeChat.Pb.Understood
import CoffeeChat.Gui.LoginDialog
import CoffeeChat.Gui.UserRegisterDialog
import CoffeeChat.System.ChatSystem
import CoffeeChat.System.Linked
import CoffeeChat.System.Runs
import CoffeeChat.System.Desktop
import CoffeeChat.System.Reception
import CoffeeChat.System.Faults
