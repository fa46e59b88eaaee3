import MiniDiscord.Data.GoMap
import MiniDiscord.Transition.LabelledRuns
import MiniDiscord.Transition.Histories
import MiniDiscord.Sfu.Room
import MiniDiscord.Sfu.RouterState
import MiniDiscord.Sfu.RouterRoomLifetime
import MiniDiscord.Sfu.RouterMembership
import MiniDiscord.Hub.VoiceState
import MiniDiscord.Hub.Reconcile
import MiniDiscord.Hub.ReconcileHeals
import MiniDiscord.Hub.System
import MiniDiscord.Hub.StepView
import MiniDiscord.Hub.MapsAgree
import MiniDiscord.Hub.TimerTable
import MiniDiscord.Hub.JoinedOnce
import MiniDiscord.Hub.GraceTimers
import MiniDiscord.Hub.NoGhost
import MiniDiscord.Hub.TeardownPrecision
import MiniDiscord.Hub.ResumeFinal
import MiniDiscord.Sfu.Track
import MiniDiscord.Sfu.Peer
import MiniDiscord.Sfu.System
import MiniDiscord.Sfu.PeerSections
import MiniDiscord.Sfu.Negotiation
import MiniDiscord.Sfu.InitialOffer
import MiniDiscord.Sfu.LeaveIsolation
import MiniDiscord.Sfu.PeerSession
import MiniDiscord.Sfu.LostRenegotiation
import MiniDiscord.Sfu.OneOffer
import MiniDiscord.Sfu.Wiring
import MiniDiscord.Sfu.Grounded
import MiniDiscord.Sfu.Lifecycle
import MiniDiscord.Sfu.PairedSubscriptions
import MiniDiscord.Sfu.Started
import MiniDiscord.Sfu.Announcements
import MiniDiscord.Sfu.EveryoneHears
import MiniDiscord.Sfu.Forwarding
import MiniDiscord.Sfu.ForwardingSteps
import MiniDiscord.Sfu.LayerTarget
import MiniDiscord.Sfu.KeyframeGating
import MiniDiscord.Sfu.LateLayers
import MiniDiscord.Sfu.FirstLayer
import MiniDiscord.Sfu.Rewriting
import MiniDiscord.Sfu.SequenceNumbers
import MiniDiscord.Client.ChatSocket
import MiniDiscord.Client.SupersededSockets
import MiniDiscord.RateLimit.TokenBucket
import MiniDiscord.Client.MarkRead
import MiniDiscord.Client.ReadPositions
import MiniDiscord.Client.VoiceSnapshots
import MiniDiscord.Client.DetachedFlag
import MiniDiscord.Client.CallClient
import MiniDiscord.Client.SessionRecovery
import MiniDiscord.Client.MediaState
import MiniDiscord.Client.MediaRestored
import MiniDiscord.Effects.Program
import MiniDiscord.Commands.Types
import MiniDiscord.Commands.Calls
import MiniDiscord.Commands.Servers
import MiniDiscord.Commands.Voice
import MiniDiscord.Commands.Messages
import MiniDiscord.Commands.Dispatch
import MiniDiscord.Commands.Settlement
import MiniDiscord.Commands.Unheard
import MiniDiscord.Commands.Responses
import MiniDiscord.Commands.SettledOnce
import MiniDiscord.Commands.Survival
import MiniDiscord.Commands.ClientQueue
import MiniDiscord.Commands.NoCrossSettlement
import MiniDiscord.Connections.Registry
import MiniDiscord.Connections.OutboundSafety
import MiniDiscord.Caching.ReadThrough
import MiniDiscord.Storage.Tables
import MiniDiscord.Storage.Cached
import MiniDiscord.Storage.DeliveryCoherence
import MiniDiscord.Storage.AccessCoherence
import MiniDiscord.Transactions.ReadCommitted
import MiniDiscord.Storage.OpenDM
import MiniDiscord.Storage.DMUniqueness
import MiniDiscord.Storage.DMList
import MiniDiscord.Storage.UserCache
import MiniDiscord.Storage.ReadAfterWrite
import MiniDiscord.Auth.Tokens
import MiniDiscord.Auth.SessionLifetime
import MiniDiscord.Notifications.Settings
import MiniDiscord.Notifications.Rules
import MiniDiscord.Notifications.Sender
import MiniDiscord.Notifications.Events
import MiniDiscord.Notifications.OneDecision
import MiniDiscord.Notifications.Pipeline
import MiniDiscord.Notifications.AuthorSpared
import MiniDiscord.Paging.Scans
import MiniDiscord.Paging.Spans
import MiniDiscord.History.Pages
import MiniDiscord.History.Client
import MiniDiscord.History.Invariant
import MiniDiscord.History.ClientSteps
import MiniDiscord.History.Deliveries
import MiniDiscord.History.HubSteps
import MiniDiscord.History.Contiguity
import MiniDiscord.Replication.Arrivals
import MiniDiscord.Content.Tables
import MiniDiscord.Content.System
import MiniDiscord.Content.Invariant
import MiniDiscord.Content.Steps
import MiniDiscord.Content.Readings
import MiniDiscord.Content.Converges
import MiniDiscord.Sfu.CloseDelivery
import MiniDiscord.Effects.Served
import MiniDiscord.Effects.Pool
import MiniDiscord.Commands.SendAtomic
import MiniDiscord.Commands.Uploads
import MiniDiscord.Commands.FileCalls
import MiniDiscord.Commands.UploadInvariant
import MiniDiscord.Commands.UploadPrograms
import MiniDiscord.Commands.AttachedOnce
import MiniDiscord.Transactions.ReadMergeWrite
import MiniDiscord.Notifications.PatchSettings
import MiniDiscord.Aggregation.Windows
import MiniDiscord.Notifications.Payload
import MiniDiscord.Notifications.Aggregation
import MiniDiscord.Notifications.NewestShown
import MiniDiscord.Auth.EmailTokens
import MiniDiscord.Auth.NewestLink
import MiniDiscord.RateLimit.Refill
import MiniDiscord.RateLimit.WindowBound
import MiniDiscord.Storage.SingleFlight
import MiniDiscord.Storage.FreshFlights
import MiniDiscord.Caching.ExpiringMap
import MiniDiscord.Caching.TtlCache
import MiniDiscord.Caching.TtlRefinement
import MiniDiscord.Encoding.Base64
import MiniDiscord.Encoding.JsonText
import MiniDiscord.Encoding.Calendar
import MiniDiscord.Encoding.Decimal
import MiniDiscord.Encoding.Timestamps
import MiniDiscord.History.Cursors
import MiniDiscord.History.PageRequests
import MiniDiscord.History.Walks
import MiniDiscord.Text.Trimming
import MiniDiscord.Links.UrlTail
import MiniDiscord.Text.Matches
import MiniDiscord.Text.Coding
import MiniDiscord.Links.Pattern
import MiniDiscord.Links.Tokens
import MiniDiscord.Links.Rendering
import MiniDiscord.Links.Cuts
import MiniDiscord.Links.Words
import MiniDiscord.Text.Unicode
import MiniDiscord.Links.Agreement
import MiniDiscord.Client.ConnectionQuality
import MiniDiscord.Sfu.SpeakerReports
import MiniDiscord.Commands.Mentions
import MiniDiscord.Embeds.SafeDial
import MiniDiscord.Embeds.Previews
import MiniDiscord.Embeds.Service
import MiniDiscord.Embeds.ImageTokens
import MiniDiscord.Encoding.Layouts
import MiniDiscord.Sfu.Vp8Payload
import MiniDiscord.Sfu.KeyframeDetection
import MiniDiscord.Client.LeaderElection
import MiniDiscord.Client.OneLeader
import MiniDiscord.Storage.PushSubscriptions
import MiniDiscord.Sfu.KeyframeRetries
import MiniDiscord.Client.MentionPicker
import MiniDiscord.Client.Reconnecting
import MiniDiscord.Client.OneConnection
import MiniDiscord.Paging.Prefixes
import MiniDiscord.History.Search
import MiniDiscord.Client.MessageSearch
import MiniDiscord.Client.HitsShown
import MiniDiscord.Commands.Confidentiality
import MiniDiscord.Commands.Noninterference
import MiniDiscord.Commands.SameEvents
