import Emaild.Relational.Table
import Emaild.Relational.Query
import Emaild.Relational.Session
import Emaild.Relational.Versions
import Emaild.Transition.Reaches
import Emaild.Numeric.SlidingWindow
import Emaild.Numeric.Binary64
import Emaild.Text.Regex
import Emaild.Text.Replace
import Emaild.Text.Encoding
import Emaild.Text.Utf8
import Emaild.Text.Base64
import Emaild.Text.Url
import Emaild.Text.Language
import Emaild.Text.Fields
import Emaild.Text.Lines
import Emaild.Text.FormData
import Emaild.Text.Python
import Emaild.Text.Json
import Emaild.Text.JsonText
import Emaild.Models
import Emaild.Classify
import Emaild.Delivery
import Emaild.Mime
import Emaild.Mime.Fallback
import Emaild.Mime.Escaping
import Emaild.Errors
import Emaild.Timeline
import Emaild.Suppressions
import Emaild.Auth
import Emaild.Bootstrap
import Emaild.Secretstore
import Emaild.Ingest
import Emaild.Acceptance.Limits
import Emaild.Acceptance.Expiry
import Emaild.Acceptance.Fingerprint
import Emaild.Suppressions.Blocking
import Emaild.Suppressions.Removal
import Emaild.Suppressions.Scoping
import Emaild.RateLimit
import Emaild.Worker
import Emaild.Recording
import Emaild.RateLimit.Openings
import Emaild.Classify.Verdicts
import Emaild.Fleet
import Emaild.Fleet.Steps
import Emaild.Fleet.Custody
import Emaild.Fleet.Lifecycle
import Emaild.Fleet.Chronicle
import Emaild.Fleet.Attempts
import Emaild.Fleet.RateLaw
import Emaild.Fleet.Recipients
import Emaild.Fleet.Bounces
import Emaild.Fleet.Permission
import Emaild.Fleet.Claims
import Emaild.Fleet.Letters
import Emaild.Fleet.Batch
import Emaild.Fleet.Requests
import Emaild.Fleet.Replays
import Emaild.Fleet.Views
import Emaild.Fleet.Retention
import Emaild.Fleet.Contention
import Emaild.Management
import Emaild.Metrics
import Emaild.Metrics.Promises
import Emaild.Emails
import Emaild.Disclosure
import Emaild.Crypto
import Emaild.Mxroute
import Emaild.Mxroute.Answers
import Emaild.Mxroute.Pacing
import Emaild.Mxroute.Budgets
import Emaild.Provisioning
import Emaild.Provisioning.Agreement
import Emaild.Smtp
import Emaild.Smtp.Limits
import Emaild.Smtp.Connections
import Emaild.Sink
import Emaild.Fleet.Adapters
import Emaild.Dnscheck
import Emaild.Dnscheck.Answers
import Emaild.Dnscheck.Spf
import Emaild.Domains
import Emaild.Domains.Sweeps
import Emaild.Domains.Readiness
import Emaild.Domains.Instructions
import Emaild.Domains.Verification
import Emaild.Authority
import Emaild.Auth.Bearer
import Emaild.Text.Substitution
import Emaild.Logging
import Emaild.Logging.ApiKeys
import Emaild.Logging.Lines
import Emaild.Config
import Emaild.Dashboard.TestSend
import Emaild.Dashboard.TestMessage
import Emaild.Dashboard.Advice
import Emaild.Dashboard.Forms
import Emaild.Dashboard.FormBody
import Emaild.Dashboard.Gates
import Emaild.Dashboard.Routes
import Emaild.Dashboard.Secrets
import Emaild.Dashboard.SetupState
import Emaild.Jobs
import Emaild.Jobs.Names
import Emaild.Jobs.Completion
import Emaild.Jobs.Queue
import Emaild.Provisioner
