import Docroot.AccessLog
import Docroot.ByteRange.Basic
import Docroot.ByteRange.Header
import Docroot.Channel
import Docroot.Copy
import Docroot.Decimal
import Docroot.Delivery
import Docroot.Double.Basic
import Docroot.Double.Shortest
import Docroot.EntityTag.Basic
import Docroot.EntityTag.List
import Docroot.Event
import Docroot.Header.Draft
import Docroot.Header.Map
import Docroot.Header.Quality
import Docroot.IoError
import Docroot.Listing
import Docroot.Logged
import Docroot.Lookup.Compressed
import Docroot.Lookup.File
import Docroot.Lookup.Welcome
import Docroot.MediaType
import Docroot.Negotiator
import Docroot.Ordered
import Docroot.Path.Name
import Docroot.Path.Request
import Docroot.Precondition
import Docroot.Proofs.Answer
import Docroot.Proofs.Canonical
import Docroot.Proofs.Containment
import Docroot.Proofs.Copying
import Docroot.Proofs.Emission
import Docroot.Proofs.Lookup
import Docroot.Proofs.Memory
import Docroot.Proofs.Partial
import Docroot.Proofs.Ranges
import Docroot.Proofs.Result
import Docroot.Proofs.Revalidation
import Docroot.Proofs.Routing
import Docroot.Proofs.Sharing
import Docroot.Proofs.Tags
import Docroot.Proofs.Visible
import Docroot.Reply
import Docroot.Representation
import Docroot.Resource
import Docroot.Service
import Docroot.Serving
import Docroot.Settings.Banner
import Docroot.Settings.Basic
import Docroot.Settings.Key
import Docroot.Settings.Load
import Docroot.Settings.Value
import Docroot.Site
import Docroot.SocketAddress
import Docroot.Status
import Docroot.Text.Basic
import Docroot.Text.Blank
import Docroot.Text.Hidden
import Docroot.Text.Json
import Docroot.Text.Markup
import Docroot.Text.Numeral
import Docroot.Text.Percent
import Docroot.Text.Quoted
import Docroot.Text.Split
import Docroot.Time.Calendar
import Docroot.Time.Clock
import Docroot.Time.Format
import Docroot.Time.HttpDate
import Docroot.Time.Timestamp
import Docroot.Toml.Document
import Docroot.Toml.Moment
import Docroot.Toml.Number
import Docroot.Toml.Quoted
import Docroot.Toml.Space
import Docroot.Toml.Table
import Docroot.Tree.Basic
import Docroot.Tree.Walk
import Docroot.Proofs.Dates
import Docroot.Proofs.Presentation
import Docroot.Proofs.Acceptance
import Docroot.Proofs.Since
import Docroot.Proofs.Totality
import Docroot.Proofs.Announced
import Docroot.Proofs.Descent
import Docroot.Proofs.Grounds
import Docroot.Proofs.HeadOnly
import Docroot.Proofs.InPlace
import Docroot.Proofs.Percent
import Docroot.Proofs.Redirects
import Docroot.Proofs.Regular
import Docroot.Proofs.Welcome
import Docroot.Proofs.Missing
import Docroot.Proofs.Siblings
import Docroot.Proofs.Alike
import Docroot.Proofs.Decoding
import Docroot.Proofs.Validators
import Docroot.Proofs.History
import Docroot.Proofs.Joining
import Docroot.Proofs.Components
import Docroot.Proofs.Selection
import Docroot.Proofs.Interception
import Docroot.Proofs.LogLines
import Docroot.Proofs.Telling
import Docroot.Proofs.ErrorLog
import Docroot.Proofs.Foretold
import Docroot.Proofs.Positions
import Docroot.Proofs.Streaming
import Docroot.Proofs.Cutting
import Docroot.Proofs.Multipart
import Docroot.Proofs.TagLists
import Docroot.Proofs.TagPreconditions
import Docroot.Proofs.DatePreconditions
import Docroot.Proofs.Ascent
import Docroot.Proofs.Arrangement
import Docroot.Proofs.Preference
import Docroot.Proofs.Unencoded
import Docroot.Proofs.Echo
import Docroot.Proofs.TagLines
import Docroot.Proofs.Candidates
import Docroot.Proofs.Entities
import Docroot.Proofs.Table
import Docroot.Proofs.Links
import Docroot.Proofs.Listed
import Docroot.Proofs.Sorting
import Docroot.Proofs.Weights
import Docroot.Proofs.Trimming
import Docroot.Proofs.WeightedLists
import Docroot.Proofs.Replacing
import Docroot.Proofs.Variables
import Docroot.Proofs.Patterns
import Docroot.Proofs.Combined
import Docroot.Proofs.JsonReading
import Docroot.Proofs.JsonLines
import Docroot.Proofs.Handover
import Docroot.Proofs.Suffixes
