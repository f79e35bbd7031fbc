import Discussion.Reference.Query
import Discussion.Reference.Key
import Discussion.Color
import Discussion.Palette
import Discussion.Wheel
import Discussion.Post
import Discussion.PostMap
import Discussion.Thread.Basic
import Discussion.Thread.Conversation
import Discussion.Effect
import Discussion.Highlight
import Discussion.Row
import Discussion.View.Basic
import Discussion.View.Click
import Discussion.View.Command
import Discussion.Decimal.Numeral
import Discussion.Decimal.Shortest
import Discussion.Json.Reader
import Discussion.Json.Value
import Discussion.Text.Shown
import Discussion.Wire.Decoder
import Discussion.Wire.Record
import Discussion.Wire.Variant
import Discussion.Wire.Color
import Discussion.Wire.Command
import Discussion.Wire.Effect
import Discussion.Wire.Settings
import Discussion.Wire.Text
import Discussion.Page.Markup
import Discussion.Page.Style
import Discussion.Page.Thread
import Discussion.Session.Arguments
import Discussion.Session.Log
import Discussion.Session.Replay
import Discussion.Session.Run
import Discussion.Main
import Discussion.Proofs.Query.Pattern
import Discussion.Proofs.Query.Segments
import Discussion.Proofs.Wheel.Sequence
import Discussion.Proofs.Thread.Index
import Discussion.Proofs.Thread.Growth
import Discussion.Proofs.Thread.Conversation
import Discussion.Proofs.Thread.Editing
import Discussion.Proofs.Thread.Search
import Discussion.Proofs.View.Retouch
import Discussion.Proofs.Thread.Arrival
import Discussion.Proofs.Thread.Opening
import Discussion.Proofs.View.Layout
import Discussion.Proofs.View.Reach
import Discussion.Proofs.View.Folding
import Discussion.Proofs.View.Eligible
import Discussion.Proofs.Thread.Links
import Discussion.Proofs.View.Links
import Discussion.Proofs.Thread.Loading
import Discussion.Proofs.Thread.Extension
import Discussion.Proofs.Thread.Binding
import Discussion.Proofs.Thread.Walk
import Discussion.Proofs.Thread.Storage
import Discussion.Proofs.View.Loading
import Discussion.Proofs.View.Decoration
import Discussion.Proofs.View.Footprint
import Discussion.Proofs.View.Merging
import Discussion.Proofs.View.Marks
import Discussion.Proofs.View.Ledger
import Discussion.Proofs.View.Accents
import Discussion.Proofs.View.Following
import Discussion.Proofs.View.Hovering
import Discussion.Proofs.View.Repinning
import Discussion.Proofs.View.Calm
import Discussion.Proofs.View.Pinning
import Discussion.Proofs.View.Lit
import Discussion.Proofs.View.Erasing
import Discussion.Proofs.View.Growing
import Discussion.Proofs.View.Asking
import Discussion.Proofs.View.Selecting
import Discussion.Proofs.View.Overlays
import Discussion.Proofs.View.Noninterference
import Discussion.Proofs.View.Unbound
import Discussion.Proofs.View.Placeholders
import Discussion.Proofs.View.Refolding
import Discussion.Proofs.View.Enclosed
import Discussion.Proofs.View.Pointing
import Discussion.Proofs.Highlight.Precedence
import Discussion.Proofs.Json.Grammar
import Discussion.Proofs.Json.Token
import Discussion.Proofs.Json.Completeness
import Discussion.Proofs.Json.Writing
import Discussion.Proofs.Reference.Numeral
import Discussion.Proofs.Wire.Reference
import Discussion.Proofs.Wire.Record
import Discussion.Proofs.Wire.Rendering
import Discussion.Proofs.Wire.Recovery
import Discussion.Proofs.Wire.RoundTrip
import Discussion.Proofs.Wire.Settings
import Discussion.Proofs.Json.Soundness
import Discussion.Proofs.Reference.Address
import Discussion.Proofs.Session.Lines
import Discussion.Proofs.Session.Replay
import Discussion.Proofs.Session.Pivot
import Discussion.Proofs.Session.Scene
import Discussion.Proofs.Page.Tags
import Discussion.Proofs.Page.Outline
