import VertexApi.About.AboutService
import VertexApi.About.Singleton
import VertexApi.App.AccountRemoval
import VertexApi.App.AccountWrites
import VertexApi.App.Atomicity
import VertexApi.App.Bans
import VertexApi.App.BlankSlugs
import VertexApi.App.CallbackFlows
import VertexApi.App.CommentEmails
import VertexApi.App.CommentWrites
import VertexApi.App.ContentWrites
import VertexApi.App.Credentials
import VertexApi.App.Dates
import VertexApi.App.DeletionBatches
import VertexApi.App.DraftSecrecy
import VertexApi.App.Handlers
import VertexApi.App.HarmlessRequests
import VertexApi.App.Integrity
import VertexApi.App.LinkIntent
import VertexApi.App.LoginPrecedence
import VertexApi.App.MediaDifference
import VertexApi.App.OauthCallback
import VertexApi.App.ObjectDeletions
import VertexApi.App.OtpCalls
import VertexApi.App.OtpSequence
import VertexApi.App.PasswordSecrecy
import VertexApi.App.Permits
import VertexApi.App.PopupErrors
import VertexApi.App.PostMerge
import VertexApi.App.PostUpdates
import VertexApi.App.RemovedAccounts
import VertexApi.App.Routes
import VertexApi.App.Services
import VertexApi.App.ShownMedia
import VertexApi.App.SingleStatements
import VertexApi.App.Site
import VertexApi.App.SiteSteps
import VertexApi.App.SlugLookup
import VertexApi.App.Store
import VertexApi.App.TableMoves
import VertexApi.App.TableSteps
import VertexApi.App.UniqueViolations
import VertexApi.App.ValidRows
import VertexApi.Auth.AdminRole
import VertexApi.Auth.AuthDto
import VertexApi.Auth.Callbacks
import VertexApi.Auth.ExchangeCodes
import VertexApi.Auth.ExchangeOnce
import VertexApi.Auth.ExchangePruning
import VertexApi.Auth.FillIfMissing
import VertexApi.Auth.FirstSignIns
import VertexApi.Auth.GithubMerge
import VertexApi.Auth.Guards
import VertexApi.Auth.JwtPayload
import VertexApi.Auth.Mailboxes
import VertexApi.Auth.OauthBinding
import VertexApi.Auth.OauthBrowsers
import VertexApi.Auth.OauthPlanting
import VertexApi.Auth.OauthState
import VertexApi.Auth.Otp
import VertexApi.Auth.OtpCooldown
import VertexApi.Auth.OtpDelivery
import VertexApi.Auth.OtpGuesses
import VertexApi.Auth.OtpHistory
import VertexApi.Auth.OtpOverlap
import VertexApi.Auth.OtpRecord
import VertexApi.Auth.OtpSingleUse
import VertexApi.Auth.Password
import VertexApi.Auth.ProviderIdentity
import VertexApi.Auth.Sessions
import VertexApi.Auth.SignIn
import VertexApi.Auth.SignUps
import VertexApi.Auth.Strategies
import VertexApi.Comments.CommentsService
import VertexApi.Common.Base64url
import VertexApi.Common.EdgeOriginGuard
import VertexApi.Common.ErrorCodes
import VertexApi.Common.JsString
import VertexApi.Common.Slugify
import VertexApi.Core.Bindings
import VertexApi.Core.Commit
import VertexApi.Core.Conduct
import VertexApi.Core.Fill
import VertexApi.Core.Linearization
import VertexApi.Core.Machine
import VertexApi.Core.OneShot
import VertexApi.Core.Program
import VertexApi.Core.References
import VertexApi.Core.Runs
import VertexApi.Core.Search
import VertexApi.Core.Sql
import VertexApi.Core.Substitution
import VertexApi.Core.Table
import VertexApi.Core.Template
import VertexApi.Core.Text
import VertexApi.Core.Transaction
import VertexApi.Core.Turns
import VertexApi.Core.TwoRuns
import VertexApi.Core.VersionedLog
import VertexApi.Database.Errors
import VertexApi.Database.Schema
import VertexApi.Database.Users
import VertexApi.Email.EmailLayout
import VertexApi.Email.EscapeHtml
import VertexApi.Email.OtpEmailTemplate
import VertexApi.Email.WrapText
import VertexApi.Lambda.Bootstrap
import VertexApi.Lambda.ConfigLoading
import VertexApi.Lambda.ParameterStore
import VertexApi.Posts.MediaCleanup
import VertexApi.Posts.PostDto
import VertexApi.Posts.PostStore
import VertexApi.Posts.PostWrites
import VertexApi.Posts.PostsService
import VertexApi.Posts.PublishDates
import VertexApi.Posts.SlugAddresses
import VertexApi.Projects.ProjectsService
import VertexApi.Throttler.Admission
import VertexApi.Throttler.Chain
import VertexApi.Throttler.ClientTracker
import VertexApi.Throttler.Collection
import VertexApi.Throttler.Contention
import VertexApi.Throttler.Course
import VertexApi.Throttler.Limit
import VertexApi.Throttler.Linearization
import VertexApi.Throttler.Requests
import VertexApi.Throttler.Storage
import VertexApi.Throttler.Window
import VertexApi.Topics.TopicsService
import VertexApi.Uploads.ImageSearch
import VertexApi.Uploads.Keys
import VertexApi.Uploads.Markdown
import VertexApi.Uploads.RoundTrip
import VertexApi.Users.Accounts
import VertexApi.Users.AvatarIsolation
import VertexApi.Users.Profile
import VertexApi.Users.ProfileOverlap
