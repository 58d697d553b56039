import ImProject.Library.System
import ImProject.Library.Noninterference
import ImProject.Library.Strands
import ImProject.Library.Transaction
import ImProject.Library.Disk
import ImProject.Library.Bytes
import ImProject.Library.SequencedPipe
import ImProject.Library.Proto
import ImProject.Database.Messages
import ImProject.Database.SaveMessage
import ImProject.Database.Numbering
import ImProject.Database.Migration
import ImProject.Database.Friends
import ImProject.Database.AuthSessions
import ImProject.Database.Users
import ImProject.Database.Writes
import ImProject.Database.WriteQueue
import ImProject.Auth.TokenService
import ImProject.Auth.TokenInvariant
import ImProject.Auth.Refresh
import ImProject.Auth.TokenHistory
import ImProject.Auth.FamilyView
import ImProject.Auth.Isolation
import ImProject.Server.Wire
import ImProject.Server.RoamHandler
import ImProject.Server.RoamPrivacy
import ImProject.Server.State
import ImProject.Server.Exec
import ImProject.Server.Machine
import ImProject.Server.UploadStorage
import ImProject.Server.Effects
import ImProject.Server.Steps
import ImProject.Server.Revocation
import ImProject.Server.Attribution
import ImProject.Server.LoginBinding
import ImProject.Server.OnlineMap
import ImProject.Server.Delivery
import ImProject.Server.Replay
import ImProject.Server.Media
import ImProject.Server.FileService
import ImProject.Server.Downloads
import ImProject.Server.UploadClaims
import ImProject.Server.Identity
import ImProject.Server.FriendConsent
import ImProject.Server.FriendStatus
import ImProject.Channel.Encoding
import ImProject.Channel.Primitives
import ImProject.Channel.Wire
import ImProject.Channel.Session
import ImProject.Channel.SecureChannel
import ImProject.Channel.Machine
import ImProject.Channel.Cases
import ImProject.Channel.Agreement
import ImProject.Channel.Integrity
import ImProject.Client.Events
import ImProject.Client.Room
import ImProject.Library.Newest
import ImProject.Client.Chats
import ImProject.Client.Phone
import ImProject.Client.Preview
import ImProject.Client.Lists
import ImProject.Client.Sequence
import ImProject.Client.Truthful
import ImProject.Server.Receipts
import ImProject.Client.SentStatus
import ImProject.Client.Roaming
import ImProject.Client.History
import ImProject.Library.Threads
import ImProject.Legacy.Kernel
import ImProject.Legacy.Machine
import ImProject.Legacy.Identity
import ImProject.Channel.Monitor
import ImProject.Channel.Destroyed
import ImProject.Client.Connection
import ImProject.Client.Isolation
import ImProject.Client.ViewModel
import ImProject.Client.Dropped
import ImProject.Client.LoadingGuard
import ImProject.Client.Refreshing
import ImProject.Client.Replayed
import ImProject.Client.ConversationIds
import ImProject.Library.Rewrite
import ImProject.Library.Indexed
import ImProject.Client.RoomMigration
import ImProject.Ai.RequestLimiter
import ImProject.Library.Regex
import ImProject.Library.Utf8
import ImProject.Ai.Redaction
import ImProject.Ai.NumberPass
import ImProject.Ai.RedactionLeaks
import ImProject.Ai.Context
import ImProject.Ai.Handler
import ImProject.Ai.LifeCycle
import ImProject.Client.DbKey
import ImProject.Client.MediaDownload
import ImProject.Client.Unread
import ImProject.Server.MessageColumns
import ImProject.Library.While
import ImProject.Library.Hkdf
import ImProject.Channel.Hkdf
import ImProject.Library.Blocks
import ImProject.Library.Sha256
import ImProject.Protocol.Sha256
import ImProject.Library.Framing
import ImProject.Channel.Framing
import ImProject.Library.AsyncWriter
import ImProject.Channel.WriteQueue
import ImProject.Channel.TcpTransport
import ImProject.Database.Passwords
import ImProject.Library.Sorting
import ImProject.Client.Sorted
import ImProject.Library.Json
import ImProject.Server.UploadAnswer
import ImProject.Server.Heartbeats
import ImProject.Server.ReplayOrder
import ImProject.Client.SqliteStorage
import ImProject.Protocol.Truncate
import ImProject.Library.Segments
import ImProject.Legacy.Receive
import ImProject.Legacy.Send
import ImProject.Client.ClientCore
import ImProject.Client.DesktopHistory
import ImProject.Client.DesktopSent
import ImProject.Legacy.Closing
import ImProject.Legacy.Drained
import ImProject.Channel.Delivery
import ImProject.Ai.Assistant
import ImProject.Client.Search
