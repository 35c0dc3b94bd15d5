import ObjectSpace.Access.Check
import ObjectSpace.Access.Denial
import ObjectSpace.Address.Basic
import ObjectSpace.Address.Builder
import ObjectSpace.Address.Error
import ObjectSpace.Address.Parse
import ObjectSpace.Address.Resolved
import ObjectSpace.Address.Subset
import ObjectSpace.Command.Invocation
import ObjectSpace.Command.Report
import ObjectSpace.Command.Run
import ObjectSpace.Command.Scan
import ObjectSpace.Command.Setting
import ObjectSpace.Enquiry
import ObjectSpace.Enquiry.Faults
import ObjectSpace.File.Error
import ObjectSpace.File.Tree
import ObjectSpace.Json.Basic
import ObjectSpace.Json.Decode
import ObjectSpace.Json.Encode
import ObjectSpace.Json.Read
import ObjectSpace.Json.Write
import ObjectSpace.Main
import ObjectSpace.Name
import ObjectSpace.Permission.Basic
import ObjectSpace.Permission.Parse
import ObjectSpace.PermissionSet
import ObjectSpace.Reference
import ObjectSpace.Reference.Cursor
import ObjectSpace.Resolution.Config
import ObjectSpace.Resolution.ConfigText
import ObjectSpace.Resolution.Failure
import ObjectSpace.Resolution.Resolver
import ObjectSpace.Resolution.Search
import ObjectSpace.Store.Basic
import ObjectSpace.Store.Error
import ObjectSpace.Store.Fixture
import ObjectSpace.Store.Listing
import ObjectSpace.Store.Lookup
import ObjectSpace.Store.Update
import ObjectSpace.Table
import ObjectSpace.Text.Blank
import ObjectSpace.Text.Decimal
import ObjectSpace.Text.Pieces
import ObjectSpace.Text.Reader
import ObjectSpace.Toml.Basic
import ObjectSpace.Toml.Document
import ObjectSpace.Toml.Moment
import ObjectSpace.Toml.Read
import ObjectSpace.User
import ObjectSpace.ValueError
import ObjectSpace.Workspace
import ObjectSpace.Proofs.Collecting
import ObjectSpace.Proofs.Enquiry.Transcript
import ObjectSpace.Proofs.Resolution.Passes
import ObjectSpace.Proofs.Resolution.Phases
import ObjectSpace.Proofs.Store.Reachable
import ObjectSpace.Proofs.Store.Step
import ObjectSpace.Proofs.Store.Invariant
import ObjectSpace.Proofs.Store.Answers
import ObjectSpace.Proofs.Store.Growth
import ObjectSpace.Proofs.Store.Representation
import ObjectSpace.Proofs.Store.Recordwise
import ObjectSpace.Proofs.Store.Regranting
import ObjectSpace.Proofs.Store.Saving
import ObjectSpace.Proofs.Resolution.Single
import ObjectSpace.Proofs.Resolution.Batch
import ObjectSpace.Proofs.Resolution.Run
import ObjectSpace.Proofs.Resolution.Ascent
import ObjectSpace.Proofs.Resolution.Levels
import ObjectSpace.Proofs.Resolution.Lookups
import ObjectSpace.Proofs.Resolution.Justified
import ObjectSpace.Proofs.Resolution.Comparison
import ObjectSpace.Proofs.Resolution.Composition
import ObjectSpace.Proofs.Resolution.Widening
import ObjectSpace.Proofs.Resolution.Unseen
import ObjectSpace.Proofs.Resolution.Totality
import ObjectSpace.Proofs.Resolution.Calls
import ObjectSpace.Proofs.Resolution.Ends
import ObjectSpace.Proofs.Resolution.Interference
import ObjectSpace.Proofs.Listing.Rows
import ObjectSpace.Proofs.Listing.Page
import ObjectSpace.Proofs.Listing.Walk
import ObjectSpace.Proofs.Listing.Agreement
import ObjectSpace.Proofs.Store.History
import ObjectSpace.Proofs.Store.Permanence
import ObjectSpace.Proofs.Access.Checks
import ObjectSpace.Proofs.Text.Cutting
import ObjectSpace.Proofs.Address.Reading
import ObjectSpace.Proofs.Address.Spelling
import ObjectSpace.Proofs.Store.Refusal
import ObjectSpace.Proofs.Text.Numerals
import ObjectSpace.Proofs.Address.Grammar
import ObjectSpace.Proofs.Resolution.Climb
import ObjectSpace.Proofs.Resolution.Ceiling
import ObjectSpace.Proofs.Resolution.Links
import ObjectSpace.Proofs.Resolution.Genuine
import ObjectSpace.Proofs.Resolution.Admittance
import ObjectSpace.Proofs.Resolution.Coordinates
import ObjectSpace.Proofs.Store.Grants
import ObjectSpace.Proofs.Resolution.Cutoff
import ObjectSpace.Proofs.Listing.Grammar
import ObjectSpace.Proofs.Listing.Resumption
import ObjectSpace.Proofs.Address.Building
import ObjectSpace.Proofs.Address.RoundTrip
import ObjectSpace.Proofs.PermissionSet.Building
import ObjectSpace.Proofs.Listing.Forms
import ObjectSpace.Proofs.Fixture.Description
import ObjectSpace.Proofs.Fixture.Steps
import ObjectSpace.Proofs.Fixture.Loading
import ObjectSpace.Proofs.Address.Absolute
import ObjectSpace.Proofs.Address.Elements
import ObjectSpace.Proofs.Resolution.Placing
import ObjectSpace.Proofs.Text.Readers
import ObjectSpace.Proofs.Json.Scalars
import ObjectSpace.Proofs.Json.RoundTrip
import ObjectSpace.Proofs.Json.Decoding
import ObjectSpace.Proofs.PermissionSet.Requests
import ObjectSpace.Proofs.Address.Changes
import ObjectSpace.Proofs.Store.Exhaustion
import ObjectSpace.Proofs.Listing.Clamping
import ObjectSpace.Proofs.Listing.Written
import ObjectSpace.Proofs.Address.Keys
