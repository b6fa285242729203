import CallingAgent.Framework.Index
import CallingAgent.Framework.Migration
import CallingAgent.Framework.MigrationCheck
import CallingAgent.Framework.Network
import CallingAgent.Framework.Paging
import CallingAgent.Framework.Program
import CallingAgent.Framework.Regex
import CallingAgent.Framework.Run
import CallingAgent.Framework.Segment
import CallingAgent.Framework.Session
import CallingAgent.Framework.Substring
import CallingAgent.Framework.Table
import CallingAgent.Framework.TwoStep
import CallingAgent.Framework.Window
import CallingAgent.Impl.Admin
import CallingAgent.Impl.AdminSessions
import CallingAgent.Impl.AdminWrites
import CallingAgent.Impl.Auth
import CallingAgent.Impl.CallPipeline
import CallingAgent.Impl.Calls
import CallingAgent.Impl.ClientRouter
import CallingAgent.Impl.Concurrent
import CallingAgent.Impl.Conversation
import CallingAgent.Impl.Creation
import CallingAgent.Impl.Customers
import CallingAgent.Impl.Dashboard
import CallingAgent.Impl.DatabaseUrl
import CallingAgent.Impl.Deployment
import CallingAgent.Impl.Directory
import CallingAgent.Impl.Endpoints
import CallingAgent.Impl.Exotel
import CallingAgent.Impl.ExotelRequest
import CallingAgent.Impl.Finalize
import CallingAgent.Impl.IntegrationService
import CallingAgent.Impl.Jobs
import CallingAgent.Impl.Migrations
import CallingAgent.Impl.Models
import CallingAgent.Impl.Monitoring
import CallingAgent.Impl.Platform
import CallingAgent.Impl.Reads
import CallingAgent.Impl.RequestLogging
import CallingAgent.Impl.RuleBasedAI
import CallingAgent.Impl.RunLoop
import CallingAgent.Impl.SessionManager
import CallingAgent.Impl.Sessions
import CallingAgent.Impl.SharedSecret
import CallingAgent.Impl.SpeechSynthesis
import CallingAgent.Impl.SpeechToText
import CallingAgent.Impl.Tenant
import CallingAgent.Impl.Text
import CallingAgent.Impl.VoiceGateway
import CallingAgent.Impl.VoicePipeline
import CallingAgent.Impl.Worker
import CallingAgent.Impl.Workers
import CallingAgent.Proof.Admin.AuditFailure
import CallingAgent.Proof.Admin.AuditTrail
import CallingAgent.Proof.Admin.Audited
import CallingAgent.Proof.Admin.Described
import CallingAgent.Proof.Admin.Handlers
import CallingAgent.Proof.Admin.Password
import CallingAgent.Proof.Admin.Passwordless
import CallingAgent.Proof.Auth.Identity
import CallingAgent.Proof.Auth.Refresh
import CallingAgent.Proof.Auth.Sessions
import CallingAgent.Proof.Auth.SharedSecret
import CallingAgent.Proof.Calls.Finalize
import CallingAgent.Proof.Concurrent.Customers
import CallingAgent.Proof.Concurrent.Inserts
import CallingAgent.Proof.Config.DatabaseUrl
import CallingAgent.Proof.Config.Migrations
import CallingAgent.Proof.Customers.OneNumber
import CallingAgent.Proof.Customers.PhoneNumber
import CallingAgent.Proof.Customers.Profiles
import CallingAgent.Proof.Gateway.Active
import CallingAgent.Proof.Gateway.ActiveCalls
import CallingAgent.Proof.Gateway.Alone
import CallingAgent.Proof.Gateway.Answers
import CallingAgent.Proof.Gateway.Authenticated
import CallingAgent.Proof.Gateway.Backed
import CallingAgent.Proof.Gateway.Conversation
import CallingAgent.Proof.Gateway.Delivery
import CallingAgent.Proof.Gateway.Drain
import CallingAgent.Proof.Gateway.Keywords
import CallingAgent.Proof.Gateway.Once
import CallingAgent.Proof.Gateway.Overlap
import CallingAgent.Proof.Gateway.Pipeline
import CallingAgent.Proof.Gateway.Provenance
import CallingAgent.Proof.Gateway.Provider
import CallingAgent.Proof.Gateway.Removed
import CallingAgent.Proof.Gateway.Retry
import CallingAgent.Proof.Gateway.Segments
import CallingAgent.Proof.Gateway.SessionCache
import CallingAgent.Proof.Gateway.SessionOps
import CallingAgent.Proof.Gateway.StartEnd
import CallingAgent.Proof.Gateway.Steps
import CallingAgent.Proof.Gateway.Styles
import CallingAgent.Proof.Gateway.Synthesis
import CallingAgent.Proof.Gateway.Tasks
import CallingAgent.Proof.Jobs.Backoff
import CallingAgent.Proof.Jobs.Bounded
import CallingAgent.Proof.Jobs.Creation
import CallingAgent.Proof.Jobs.Endpoints
import CallingAgent.Proof.Jobs.Rows
import CallingAgent.Proof.Jobs.Stranded
import CallingAgent.Proof.Monitoring.Percentile
import CallingAgent.Proof.Monitoring.Requests
import CallingAgent.Proof.Monitoring.Window
import CallingAgent.Proof.Reads.Dates
import CallingAgent.Proof.Reads.NonInterference
import CallingAgent.Proof.Reads.Pages
import CallingAgent.Proof.Reads.Scope
import CallingAgent.Proof.Reads.Simulated
import CallingAgent.Proof.Reads.Visible
import CallingAgent.Proof.Tenant.Context
import CallingAgent.Proof.Tenant.Interference
import CallingAgent.Proof.Tenant.Isolation
import CallingAgent.Proof.Tenant.SavedCalls
import CallingAgent.Proof.Worker.Acknowledge
import CallingAgent.Proof.Worker.Drain
import CallingAgent.Proof.Worker.Escapes
import CallingAgent.Proof.Worker.Faithful
import CallingAgent.Proof.Worker.Integration
import CallingAgent.Proof.Worker.Loop
import CallingAgent.Proof.Worker.Outcome
import CallingAgent.Proof.Worker.Ownership
import CallingAgent.Proof.Worker.Served
import CallingAgent.Proof.Worker.Steps
import CallingAgent.Spec.AuditTrail
import CallingAgent.Spec.CallSessions
import CallingAgent.Spec.CurrentPassword
import CallingAgent.Spec.CustomerProfiles
import CallingAgent.Spec.KeywordRules
import CallingAgent.Spec.Pages
import CallingAgent.Spec.PhoneCall
import CallingAgent.Spec.ProviderCall
