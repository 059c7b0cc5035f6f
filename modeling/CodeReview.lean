import CodeReview.CommandLine.Basic
import CodeReview.CommandLine.Help
import CodeReview.CommandLine.Options
import CodeReview.CommandLine.Words
import CodeReview.Config.Basic
import CodeReview.Config.Check
import CodeReview.Config.File
import CodeReview.Config.Malformed
import CodeReview.Config.Sample
import CodeReview.Config.Toml
import CodeReview.Config.Yaml
import CodeReview.Delivery
import CodeReview.Disk.Basic
import CodeReview.Disk.Path
import CodeReview.Duration
import CodeReview.Failure
import CodeReview.Http.Basic
import CodeReview.Http.Charset
import CodeReview.Http.Exchange
import CodeReview.Http.Status
import CodeReview.Json.Reader
import CodeReview.Json.Record
import CodeReview.Json.Token
import CodeReview.Json.Value
import CodeReview.Machine
import CodeReview.Main
import CodeReview.Model.Answer
import CodeReview.Model.Basic
import CodeReview.Model.Request
import CodeReview.Model.Service
import CodeReview.Number.Decimal
import CodeReview.Number.Rounding
import CodeReview.Number.Single
import CodeReview.Operation
import CodeReview.Program.Basic
import CodeReview.Program.LogFilter
import CodeReview.Prompt.Message
import CodeReview.Prompt.Template
import CodeReview.Proofs.CommandLine.Grammar
import CodeReview.Proofs.CommandLine.Quoting
import CodeReview.Proofs.CommandLine.Spelling
import CodeReview.Proofs.CommandLine.Trimming
import CodeReview.Proofs.CommandLine.Verbatim
import CodeReview.Proofs.Config.Dependable
import CodeReview.Proofs.Config.Keys
import CodeReview.Proofs.Config.Names
import CodeReview.Proofs.Config.Rules
import CodeReview.Proofs.Config.SampleFile
import CodeReview.Proofs.Config.Violations
import CodeReview.Proofs.Delivery.AddressName
import CodeReview.Proofs.Delivery.Collection
import CodeReview.Proofs.Delivery.Directory
import CodeReview.Proofs.Disk.Parents
import CodeReview.Proofs.Disk.Tree
import CodeReview.Proofs.Http.Alike
import CodeReview.Proofs.Json.Numeral
import CodeReview.Proofs.Json.Record
import CodeReview.Proofs.Json.RoundTrip
import CodeReview.Proofs.Machine.Keeps
import CodeReview.Proofs.Machine.Licensed
import CodeReview.Proofs.Machine.Quiet
import CodeReview.Proofs.Model.Body
import CodeReview.Proofs.Model.Discretion
import CodeReview.Proofs.Model.Endpoint
import CodeReview.Proofs.Model.Format
import CodeReview.Proofs.Model.Unasked
import CodeReview.Proofs.Number.Numeral
import CodeReview.Proofs.Number.Value
import CodeReview.Proofs.Program.Frame
import CodeReview.Proofs.Program.Nameless
import CodeReview.Proofs.Prompt.Fence
import CodeReview.Proofs.Prompt.Rendering
import CodeReview.Proofs.Prompt.Substitution
import CodeReview.Proofs.RateLimit.Callers
import CodeReview.Proofs.RateLimit.Countdown
import CodeReview.Proofs.RateLimit.History
import CodeReview.Proofs.RateLimit.Ledger
import CodeReview.Proofs.RateLimit.Moves
import CodeReview.Proofs.RateLimit.Nearness
import CodeReview.Proofs.RateLimit.Optimality
import CodeReview.Proofs.RateLimit.Waiting
import CodeReview.Proofs.Review.Obstacle
import CodeReview.Proofs.Review.Patience
import CodeReview.Proofs.Review.Reply
import CodeReview.Proofs.Review.Slots
import CodeReview.Proofs.Session.Acceptance
import CodeReview.Proofs.Session.Amid
import CodeReview.Proofs.Session.Asked
import CodeReview.Proofs.Session.Conduct
import CodeReview.Proofs.Session.Course
import CodeReview.Proofs.Session.Endurance
import CodeReview.Proofs.Session.FailedLoad
import CodeReview.Proofs.Session.SameEffect
import CodeReview.Proofs.Session.Thinning
import CodeReview.Proofs.Session.Transcript
import CodeReview.Proofs.Source.Inference
import CodeReview.Proofs.Text.Trim
import CodeReview.Provider
import CodeReview.RateLimit.Limiter
import CodeReview.RateLimit.Policy
import CodeReview.Review.Desk
import CodeReview.Review.Preparation
import CodeReview.Session.Basic
import CodeReview.Session.Interaction
import CodeReview.Source.Language
import CodeReview.Source.Reading
import CodeReview.Terminal.Divider
import CodeReview.Terminal.Spinner
import CodeReview.Text.Base64
import CodeReview.Text.Blank
import CodeReview.Text.Digit
import CodeReview.Text.LowerCase
import CodeReview.Text.Printable
import CodeReview.Text.Quoted
import CodeReview.Text.Replace
import CodeReview.Text.Split
import CodeReview.Text.Utf8
import CodeReview.Toml.Literal
import CodeReview.Toml.Reader
import CodeReview.Toml.Value
import CodeReview.Url.Address
import CodeReview.Url.Basic
import CodeReview.Url.Domain
import CodeReview.Url.Percent
import CodeReview.Url.Punycode
import CodeReview.Url.Reader
import CodeReview.Url.Reference
import CodeReview.Yaml.Cursor
import CodeReview.Yaml.Node
import CodeReview.Yaml.Reading
import CodeReview.Yaml.Scalar
import CodeReview.Yaml.Token
