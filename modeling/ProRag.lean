import ProRag.Framework.Rows
import ProRag.Framework.Runs
import ProRag.Framework.Results
import ProRag.Framework.Pool
import ProRag.Framework.Asyncio
import ProRag.Framework.Optimistic
import ProRag.Framework.Cosine
import ProRag.Framework.Query
import ProRag.Framework.UnitOfWork
import ProRag.Framework.Transaction
import ProRag.Framework.Rewriting
import ProRag.Framework.Utf8
import ProRag.Framework.Binary64
import ProRag.Settings
import ProRag.Http
import ProRag.Models
import ProRag.Ingest.Store
import ProRag.Ingest.Core
import ProRag.Ingest.Router
import ProRag.Ingest.Concurrent
import ProRag.Ingest.Session
import ProRag.Ingest.Failure
import ProRag.Ingest.Moves
import ProRag.Ingest.Stability
import ProRag.Ingest.Dedup
import ProRag.Connectors.Sync
import ProRag.Connectors.Deletion
import ProRag.Connectors.Settled
import ProRag.Connectors.Corpus
import ProRag.Connectors.Sweep
import ProRag.Connectors.Idempotence
import ProRag.Connectors.Completeness
import ProRag.Connectors.Isolation
import ProRag.Connectors.Polling
import ProRag.Connectors.Scheduler
import ProRag.Connectors.Withdrawal
import ProRag.Auth.Identity
import ProRag.Auth.Routes
import ProRag.Auth.Disabled
import ProRag.Retrieve.Visibility
import ProRag.Retrieve.Arms
import ProRag.Retrieve.Fuse
import ProRag.Retrieve.Rerank
import ProRag.Retrieve.Crop
import ProRag.Retrieve.Cropping
import ProRag.Operations.Retrieval
import ProRag.Files.Router
import ProRag.Retrieve.Noninterference
import ProRag.Ingest.Disclosure
import ProRag.Retrieve.Plan
import ProRag.Chat.Citations
import ProRag.Chat.Markers
import ProRag.Chat.Stream
import ProRag.Chat.Guard
import ProRag.Chat.Sse
import ProRag.Llm.Calls
import ProRag.Operations.Budget
import ProRag.Operations.Chat
import ProRag.Llm.Pipeline
import ProRag.Chat.Router
import ProRag.Chat.Reading
import ProRag.Chat.Agreement
import ProRag.Chat.Heartbeat
import ProRag.Chat.Shown
import ProRag.Retrieve.Router
import ProRag.Admin.Preview
import ProRag.Ingest.Embedding
import ProRag.Llm.Durable
import ProRag.Llm.Accounting
import ProRag.Eval.Runner
import ProRag.Operations.Gate
import ProRag.Admin.Groups
import ProRag.Admin.Rules
import ProRag.Admin.Access
import ProRag.Admin.Admission
import ProRag.Admin.DefaultDeny
import ProRag.Admin.Revocation
import ProRag.Admin.Consistency
import ProRag.Admin.Coverage
import ProRag.Web.Sse
import ProRag.Web.Feedback
import ProRag.Web.Typewriter
import ProRag.Web.Citations
import ProRag.Ingest.Ending
import ProRag.Scripts.Reingest
import ProRag.Framework.Tally
import ProRag.Retrieve.Fusion
import ProRag.Retrieve.Reranking
import ProRag.Retrieve.Displacement
import ProRag.Retrieve.Surfaces
import ProRag.Framework.Regex
import ProRag.Retrieve.Titles
import ProRag.Retrieve.TitleKeys
import ProRag.Retrieve.Newest
import ProRag.Ingest.Tables
import ProRag.Retrieve.Structured
import ProRag.Ingest.RuleCheck
import ProRag.Retrieve.Fallback
import ProRag.Chat.Pieces
import ProRag.Framework.Windows
import ProRag.Ingest.Chunk
import ProRag.Ingest.Elements
import ProRag.Ingest.Docling
import ProRag.Web.PdfViewer
import ProRag.Web.Selection
import ProRag.Web.Markdown
import ProRag.Web.Layout
import ProRag.Web.Recognition
import ProRag.Admin.Order
import ProRag.Web.Streaming
import ProRag.Admin.Grants
import ProRag.Admin.Usage
import ProRag.Middleware
import ProRag.Auth.Seeding
import ProRag.Connectors.Ticks
import ProRag.Framework.JsonText
import ProRag.Retrieve.Planning
import ProRag.Ingest.Frames
import ProRag.Ingest.Contents
import ProRag.Ingest.Alignment
import ProRag.Ingest.Ceiling
import ProRag.Ingest.Storable
import ProRag.Ingest.Leftovers
import ProRag.Ingest.PageCoverage
import ProRag.Ingest.Headings
import ProRag.Chat.Normalization
import ProRag.Web.Inline
import ProRag.Framework.Waiting
import ProRag.Web.Waiters
import ProRag.Auth.Sessions
import ProRag.Auth.Delegation
import ProRag.Auth.Memberships
import ProRag.Framework.Overshoot
import ProRag.Framework.Tokens
import ProRag.Operations.Overshoot
import ProRag.Framework.Grouping
import ProRag.Admin.Report
import ProRag.Framework.Arrears
import ProRag.Eval.Outcome
import ProRag.Framework.Like
import ProRag.Admin.Views
import ProRag.Auth.OidcFlow
import ProRag.Framework.Monitor
import ProRag.Chat.Protocol
import ProRag.Web.Delivery
