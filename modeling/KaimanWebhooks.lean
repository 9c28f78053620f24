import KaimanWebhooks.CallProgram
import KaimanWebhooks.Interleaving
import KaimanWebhooks.OrderedScan
import KaimanWebhooks.PlainTemplate
import KaimanWebhooks.Text
import KaimanWebhooks.FloatModel
import KaimanWebhooks.IpAddr
import KaimanWebhooks.Http
import KaimanWebhooks.Webhook
import KaimanWebhooks.Crypto
import KaimanWebhooks.Backoff
import KaimanWebhooks.Config
import KaimanWebhooks.Table
import KaimanWebhooks.Statements
import KaimanWebhooks.Calls
import KaimanWebhooks.LockRetry
import KaimanWebhooks.Repository
import KaimanWebhooks.Forwarder
import KaimanWebhooks.Routes
import KaimanWebhooks.Service
import KaimanWebhooks.Protocol
import KaimanWebhooks.Tasks
import KaimanWebhooks.Ledger
import KaimanWebhooks.Retention
import KaimanWebhooks.Polling
import KaimanWebhooks.Answers
import KaimanWebhooks.Delivery
import KaimanWebhooks.Attempts
import KaimanWebhooks.ForwardSafety
import KaimanWebhooks.Isolation
import KaimanWebhooks.ClientIp
import KaimanWebhooks.SingleDelivery
import KaimanWebhooks.HeldQueue
import KaimanWebhooks.Schema
import KaimanWebhooks.Migration
import KaimanWebhooks.Convergence
import KaimanWebhooks.BackoffFormula
import KaimanWebhooks.FailureRecord
import KaimanWebhooks.ScheduleSafety
import KaimanWebhooks.Signing
import KaimanWebhooks.Parity
import KaimanWebhooks.Acceptance
import KaimanWebhooks.Protection
import KaimanWebhooks.HeaderFlow
import KaimanWebhooks.Clock
import KaimanWebhooks.FailedAttempt
import KaimanWebhooks.Bookkeeping
import KaimanWebhooks.Document
import KaimanWebhooks.Payload
import KaimanWebhooks.AcceptanceOrder
import KaimanWebhooks.Turns
import KaimanWebhooks.StuckReport
import KaimanWebhooks.BackoffEnvelope
import KaimanWebhooks.RetryAfter
import KaimanWebhooks.RetryBudget
import KaimanWebhooks.Authorization
import KaimanWebhooks.Credentials
import KaimanWebhooks.QueueView
import KaimanWebhooks.Admission
import KaimanWebhooks.ManualRetry
import KaimanWebhooks.StoredDelay
import KaimanWebhooks.AskedWait
import KaimanWebhooks.Interventions
import KaimanWebhooks.Templates
import KaimanWebhooks.Redaction
import KaimanWebhooks.Lifetimes
import KaimanWebhooks.Restart
import KaimanWebhooks.Redelivery
import KaimanWebhooks.Mailbox
import KaimanWebhooks.Refinement
import KaimanWebhooks.Linearization
import KaimanWebhooks.Stopping
import KaimanWebhooks.Completion
import KaimanWebhooks.StatusHistory
import KaimanWebhooks.AccessControl
import KaimanWebhooks.Pacing
import KaimanWebhooks.Draining
import KaimanWebhooks.Backlog
import KaimanWebhooks.Relay
import KaimanWebhooks.Lockstep
import KaimanWebhooks.Secrets
import KaimanWebhooks.Secrecy
import KaimanWebhooks.Upgrade
