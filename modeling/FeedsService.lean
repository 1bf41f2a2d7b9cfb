import FeedsService.Library.Runs
import FeedsService.Feeds.Database
import FeedsService.Feeds.Memory
import FeedsService.Feeds.Counters
import FeedsService.Feeds.Notifications
import FeedsService.Library.Bytes
import FeedsService.Library.Handlers
import FeedsService.Library.KeyedTable
import FeedsService.Library.Replies
import FeedsService.Library.Rows
import FeedsService.Library.Links
import FeedsService.Library.Counters
import FeedsService.MsgQueue.Delivery
import FeedsService.MsgQueue.Outstanding
import FeedsService.Session.Parser
import FeedsService.Session.RoundTrip
import FeedsService.Session.Sending
import FeedsService.Session.Rounds
import FeedsService.Session.Hostile
import FeedsService.Session.Unsupported
import FeedsService.Feeds.Deactivation
import FeedsService.Feeds.Subscriptions
import FeedsService.Feeds.Pointers
import FeedsService.Feeds.Comments
import FeedsService.Feeds.Rendering
import FeedsService.Library.Evolution
import FeedsService.Feeds.Posts
import FeedsService.Feeds.Authorisation
import FeedsService.Feeds.ChannelMethod
import FeedsService.Feeds.Hidden
import FeedsService.Auth.SignIn
import FeedsService.Auth.Answers
import FeedsService.Auth.Binding
import FeedsService.Auth.StandardAuth
import FeedsService.Auth.System
import FeedsService.Auth.AccessTokens
import FeedsService.Auth.Challenges
import FeedsService.Library.Tickets
import FeedsService.Library.CStrings
import FeedsService.Library.Positional
import FeedsService.Rpc.Object
import FeedsService.Rpc.Parsers
import FeedsService.Rpc.Grammar
import FeedsService.Rpc.Runtime
import FeedsService.Rpc.Safety
import FeedsService.Rpc.Acceptance
import FeedsService.Rpc.Advanced
import FeedsService.Rpc.Answers
import FeedsService.Rpc.CommandHandler
import FeedsService.Rpc.Requests
import FeedsService.Rpc.Disposal
import FeedsService.Rpc.Reception
import FeedsService.Rpc.Returning
import FeedsService.Auth.Confirmations
import FeedsService.Auth.Owner
import FeedsService.Auth.Phases
import FeedsService.Auth.Recovery
import FeedsService.Sql.Mutators
import FeedsService.Sql.Atomicity
import FeedsService.Library.Catalog
import FeedsService.Sql.Migration
import FeedsService.Sql.Preservation
import FeedsService.Sql.References
import FeedsService.Library.Chunking
import FeedsService.Library.MsgPack
import FeedsService.Library.MsgPackFormat
import FeedsService.Rpc.Marshal
import FeedsService.Rpc.Messages
import FeedsService.Rpc.Packets
import FeedsService.Feeds.Answers
import FeedsService.Feeds.Budgets
import FeedsService.Feeds.Listings
import FeedsService.Failures.Calls
import FeedsService.Failures.Feeds
import FeedsService.Failures.FeedsSpared
import FeedsService.Failures.FeedsFaultless
import FeedsService.Failures.Auth
import FeedsService.Failures.AuthSpared
import FeedsService.Failures.Effects
import FeedsService.Failures.Users
import FeedsService.Failures.StoredUsers
import FeedsService.Failures.OwnerRecord
import FeedsService.Auth.Bootstrap
import FeedsService.Auth.Deadlines
import FeedsService.Library.Paths
import FeedsService.MassData.Confinement
import FeedsService.MassData.Store
import FeedsService.Rpc.Versions
import FeedsService.Feeds.Ranges
import FeedsService.Library.Queries
import FeedsService.Feeds.CommentQueries
import FeedsService.Rpc.Truth
import FeedsService.Library.Batches
import FeedsService.Rpc.MultiReplies
import FeedsService.Http.Urls
import FeedsService.Http.Server
import FeedsService.Http.QrCode
import FeedsService.Feeds.References
import FeedsService.Feeds.Times
import FeedsService.Feeds.Replies
import FeedsService.Feeds.Authors
import FeedsService.Feeds.Statistics
import FeedsService.Feeds.Strangers
import FeedsService.Session.Responses
import FeedsService.Session.Delivery
import FeedsService.Utils.Lifetime
import FeedsService.Service.Answers
import FeedsService.Service.Feeds
import FeedsService.Feeds.Paging
import FeedsService.Feeds.PostPages
import FeedsService.MassData.Access
