import HttpEngine.AccessLog.Writer
import HttpEngine.Connection
import HttpEngine.RateLimiter
import HttpEngine.Request.Diagnosis
import HttpEngine.Server.Build
import HttpEngine.Server.Gate
import HttpEngine.Text.Utf8
import HttpEngine.Validation.Schema
import HttpEngine.Proofs.Stream.Arrivals
import HttpEngine.Proofs.Stream.Receiving
import HttpEngine.Proofs.Multipart.Extraction
import HttpEngine.Proofs.Upload.Receiving
import HttpEngine.Proofs.Pipeline.FileNames
import HttpEngine.Proofs.Upload.Storing
import HttpEngine.Proofs.Connection.Framing
import HttpEngine.Proofs.Connection.Segmentation
import HttpEngine.Proofs.Pipeline.Invariants
import HttpEngine.Proofs.Connection.Admission
import HttpEngine.Proofs.Decimal.Sizes
import HttpEngine.Proofs.Request.Splitting
import HttpEngine.Proofs.Request.Pairs
import HttpEngine.Proofs.Request.RoundTrip
import HttpEngine.Proofs.Text.Encoding
import HttpEngine.Proofs.Text.Pieces
import HttpEngine.Proofs.Route.Matching
import HttpEngine.Proofs.Multipart.Chunks
import HttpEngine.Proofs.RateLimiter.Windows
import HttpEngine.Proofs.Pipeline.Passing
import HttpEngine.Proofs.Pipeline.Plain
import HttpEngine.Proofs.Connection.Panics
import HttpEngine.Proofs.Server.Permits
import HttpEngine.Proofs.AccessLog.Lines
import HttpEngine.Proofs.Connection.Delivery
import HttpEngine.Proofs.Upload.Cleanup
import HttpEngine.Proofs.Text.Lines
import HttpEngine.Text.Cut
import HttpEngine.Proofs.Request.HeaderLimit
import HttpEngine.Proofs.Response.Building
import HttpEngine.Proofs.Response.Reading
import HttpEngine.Proofs.Connection.Uploads
import HttpEngine.Proofs.Multipart.Forms
import HttpEngine.Proofs.Connection.Forms
import HttpEngine.Proofs.Multipart.Preambles
import HttpEngine.Proofs.Multipart.Retention
import HttpEngine.Proofs.Stream.Supply
import HttpEngine.Proofs.Stream.Collecting
import HttpEngine.Proofs.Stream.Heads
import HttpEngine.Proofs.Upload.Agreement
import HttpEngine.Proofs.Request.Grammar
import HttpEngine.Proofs.Route.Finding
import HttpEngine.Proofs.Route.Groups
import HttpEngine.Proofs.RateLimiter.Bursts
import HttpEngine.Proofs.Json.Numbers
import HttpEngine.Proofs.Json.Reading
import HttpEngine.Proofs.Json.Objects
import HttpEngine.Proofs.Validation.Formats
import HttpEngine.Proofs.Validation.Checking
import HttpEngine.Proofs.Validation.Passing
import HttpEngine.AccessLog.Task
import HttpEngine.Machine.Basic
import HttpEngine.Machine.Calendar
import HttpEngine.Machine.Number
import HttpEngine.Machine.Reader
import HttpEngine.Machine.Head
import HttpEngine.Machine.Template
import HttpEngine.Machine.Upload
import HttpEngine.Machine.RateLimiter
import HttpEngine.Proofs.Storage.Directories
import HttpEngine.Proofs.Storage.Appending
import HttpEngine.Proofs.Translations.Texts
import HttpEngine.Proofs.Translations.Files
import HttpEngine.Proofs.Translations.Loading
import HttpEngine.Proofs.Translations.History
import HttpEngine.Proofs.AccessLog.Writing
import HttpEngine.Proofs.AccessLog.Calendar
import HttpEngine.Proofs.Machine.Calendar
import HttpEngine.Proofs.Machine.Reader
import HttpEngine.Proofs.Machine.Head
import HttpEngine.Proofs.Machine.Template
import HttpEngine.Proofs.Machine.Form
import HttpEngine.Proofs.Machine.Upload
import HttpEngine.Proofs.Machine.RateLimiter
import HttpEngine.Proofs.Machine.Safety
import HttpEngine.Proofs.Hash.Changes
import HttpEngine.Proofs.Response.Fields
import HttpEngine.Proofs.Response.Tags
import HttpEngine.Proofs.Decimal.Numerals
import HttpEngine.Proofs.Machine.Number
