import DeployRegistry.Access.Roles
import DeployRegistry.Access.Rules
import DeployRegistry.Ancestry.Address
import DeployRegistry.Ancestry.Client
import DeployRegistry.Ancestry.Retry
import DeployRegistry.Ancestry.ServerName
import DeployRegistry.Ancestry.Transport
import DeployRegistry.Cache
import DeployRegistry.Digest.Hmac
import DeployRegistry.Digest.Sha256
import DeployRegistry.Digest.Sha512
import DeployRegistry.Form.Checked
import DeployRegistry.Form.Issue
import DeployRegistry.Form.Numbers
import DeployRegistry.Form.Rules
import DeployRegistry.Form.Sha
import DeployRegistry.Form.Submissions
import DeployRegistry.History.Snapshots
import DeployRegistry.Http.Content
import DeployRegistry.Http.Lifecycle
import DeployRegistry.Http.Message
import DeployRegistry.Http.Origin
import DeployRegistry.Http.Problem
import DeployRegistry.Http.Route
import DeployRegistry.Http.Server
import DeployRegistry.Http.Shape
import DeployRegistry.Http.Tracing
import DeployRegistry.Json.Document
import DeployRegistry.Json.Printer
import DeployRegistry.Json.Reader
import DeployRegistry.Json.Shown
import DeployRegistry.Json.Value
import DeployRegistry.Log.Record
import DeployRegistry.Log.Session
import DeployRegistry.Memo
import DeployRegistry.Number.Binary64
import DeployRegistry.Number.Decimal
import DeployRegistry.Number.Digits
import DeployRegistry.Number.Fixed
import DeployRegistry.Number.Rounding
import DeployRegistry.Proofs.Constraints
import DeployRegistry.Proofs.Orders
import DeployRegistry.Proofs.Visibility
import DeployRegistry.RequestId
import DeployRegistry.Resolution.Basic
import DeployRegistry.Resolution.Criteria
import DeployRegistry.Resolution.Stored
import DeployRegistry.Service.Denial
import DeployRegistry.Service.Deployments
import DeployRegistry.Service.Environments
import DeployRegistry.Service.Projects
import DeployRegistry.Settings.Basic
import DeployRegistry.Settings.DatabaseUrl
import DeployRegistry.Settings.Derived
import DeployRegistry.Settings.Dotenv
import DeployRegistry.Store.Basic
import DeployRegistry.Store.Changes
import DeployRegistry.Store.Records
import DeployRegistry.Text.Base64Url
import DeployRegistry.Text.Blank
import DeployRegistry.Text.CharClass
import DeployRegistry.Text.Composed
import DeployRegistry.Text.DomainLabel
import DeployRegistry.Text.Hex
import DeployRegistry.Text.LabelClass
import DeployRegistry.Text.LoneUnit
import DeployRegistry.Text.LowerCase
import DeployRegistry.Text.Percent
import DeployRegistry.Text.Punycode
import DeployRegistry.Text.Shown
import DeployRegistry.Text.Unencodable
import DeployRegistry.Text.Utf8
import DeployRegistry.Text.WholeNumber
import DeployRegistry.Text.WordChar
import DeployRegistry.Time.Calendar
import DeployRegistry.Time.Stamp
import DeployRegistry.Time.WallTime
import DeployRegistry.Token.Claims
import DeployRegistry.Token.Holder
import DeployRegistry.Token.Keys
import DeployRegistry.Token.Refusal
import DeployRegistry.Token.Signed
import DeployRegistry.Proofs.Settling
import DeployRegistry.Proofs.Finding
import DeployRegistry.Proofs.Steps
import DeployRegistry.Proofs.Granting
import DeployRegistry.Proofs.Visits
import DeployRegistry.Proofs.Agreement
import DeployRegistry.Proofs.Disclosure
import DeployRegistry.Proofs.Answers
import DeployRegistry.Proofs.Recording
import DeployRegistry.Proofs.Transcript
import DeployRegistry.Proofs.Writes
import DeployRegistry.Proofs.Integrity
import DeployRegistry.Proofs.Authority
import DeployRegistry.Proofs.Inquiries
import DeployRegistry.Proofs.Precision
import DeployRegistry.Proofs.Remembering
import DeployRegistry.Proofs.Addressing
import DeployRegistry.Proofs.Surfacing
import DeployRegistry.Proofs.Readings
import DeployRegistry.Proofs.Recency
import DeployRegistry.Proofs.Displacement
import DeployRegistry.Proofs.Deciding
import DeployRegistry.Proofs.Destinations
import DeployRegistry.Proofs.Verdicts
import DeployRegistry.Proofs.Paging
import DeployRegistry.Proofs.Readback
import DeployRegistry.Proofs.Claims
import DeployRegistry.Proofs.Signatures
import DeployRegistry.Proofs.Lifetimes
import DeployRegistry.Proofs.Holders
import DeployRegistry.Proofs.Rulings
import DeployRegistry.Proofs.Snapshots
import DeployRegistry.Proofs.Completeness
import DeployRegistry.Proofs.Instants
import DeployRegistry.Proofs.Spellings
import DeployRegistry.Proofs.Tracing
import DeployRegistry.Proofs.Doubling
import DeployRegistry.Proofs.Pacing
