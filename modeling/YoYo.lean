import YoYo.Accounts.Login
import YoYo.Accounts.Password
import YoYo.Accounts.SignUp
import YoYo.Accounts.SigningUp
import YoYo.Devices.App
import YoYo.Devices.Consent
import YoYo.Devices.Offered
import YoYo.Devices.Screens
import YoYo.Devices.Serial
import YoYo.Devices.Traps
import YoYo.DocStore.Collection
import YoYo.DocStore.Layers
import YoYo.DocStore.Listener
import YoYo.DocStore.Prog
import YoYo.DocStore.Record
import YoYo.DocStore.Registration
import YoYo.DocStore.Run
import YoYo.Friends.Book
import YoYo.Friends.Failure
import YoYo.Friends.Frame
import YoYo.Friends.Interleaving
import YoYo.Friends.Invariant
import YoYo.Friends.Pair
import YoYo.Friends.Screen
import YoYo.Friends.Search
import YoYo.Friends.Service
import YoYo.Friends.Stale
import YoYo.Messages.Chatting
import YoYo.Messages.Conversation
import YoYo.Messages.Media
import YoYo.Messages.Once
import YoYo.Messages.Opened
import YoYo.Messages.Projection
import YoYo.Messages.Receipts
import YoYo.Messages.SeenStatus
import YoYo.Messages.Service
import YoYo.Messages.View
import YoYo.Models
import YoYo.ObjectStore.Path
import YoYo.Player.Alone
import YoYo.Player.Controller
import YoYo.Player.Expiry
import YoYo.Player.Refresh
import YoYo.Player.Subscripts
import YoYo.Player.Timers
import YoYo.Profiles.Edits
import YoYo.Profiles.Integrity
import YoYo.Profiles.Photo
import YoYo.Profiles.Service
import YoYo.Reads.Answers
import YoYo.Reads.Blocked
import YoYo.Reads.ChatList
import YoYo.Reads.Decoding
import YoYo.Reads.Limits
import YoYo.Reads.Paths
import YoYo.Reads.Service
import YoYo.Reads.Visible
import YoYo.Screens.Chats
import YoYo.Screens.Filters
import YoYo.Screens.Rows
import YoYo.Screens.Search
import YoYo.Screens.Subscriptions
import YoYo.Screens.Unread
import YoYo.Storage.Assets
import YoYo.Storage.Service
import YoYo.Stories.Documents
import YoYo.Stories.Service
import YoYo.Stories.Views
import YoYo.Text.Pattern
import YoYo.Text.Search
import YoYo.Uploads.Accounted
import YoYo.Uploads.Cloud
import YoYo.Uploads.Identity
import YoYo.Uploads.Present
import YoYo.Uploads.Programs
