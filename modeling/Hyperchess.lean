import Hyperchess.Logging.Template
import Hyperchess.Main
import Hyperchess.Settings.Validity
import Hyperchess.Text.Lines
import Hyperchess.Proofs.Board.Mirror
import Hyperchess.Proofs.Board.Undo
import Hyperchess.Proofs.Board.Arrangement
import Hyperchess.Proofs.Board.Audit
import Hyperchess.Proofs.Board.Analysis
import Hyperchess.Proofs.Board.Nesting
import Hyperchess.Proofs.Data.Entries
import Hyperchess.Proofs.Data.Order
import Hyperchess.Proofs.Files
import Hyperchess.Proofs.Settings.Fields
import Hyperchess.Proofs.Settings.Storage
import Hyperchess.Proofs.Settings.Kept
import Hyperchess.Proofs.Settings.Run
import Hyperchess.Proofs.Yaml.Evaluation
import Hyperchess.Proofs.Reach.Likeness
import Hyperchess.Proofs.Safety.Trial
import Hyperchess.Proofs.Safety.Verdict
import Hyperchess.Proofs.Safety.Decision
import Hyperchess.Proofs.Board.Symmetry
import Hyperchess.Proofs.Coord.Order
import Hyperchess.Proofs.Coord.Text
import Hyperchess.Proofs.Coord.Reading
import Hyperchess.Proofs.Move.Text
import Hyperchess.Proofs.Coord.Letters
import Hyperchess.Proofs.Move.Label
import Hyperchess.Proofs.Game.Session
import Hyperchess.Proofs.Layout.Placements
import Hyperchess.Proofs.Safety.Enroll
import Hyperchess.Proofs.Game.Coherence
import Hyperchess.Proofs.Game.Start
import Hyperchess.Proofs.Game.Accepted
import Hyperchess.Proofs.Game.Unchanged
import Hyperchess.Proofs.Number.Ceiling
import Hyperchess.Proofs.Text.Case
import Hyperchess.Proofs.Text.Order
import Hyperchess.Proofs.Reach.Conditions
import Hyperchess.Proofs.Rule.Kinds
import Hyperchess.Proofs.Rule.References
import Hyperchess.Proofs.Rule.Builtin
import Hyperchess.Proofs.Rule.Written
import Hyperchess.Proofs.Rule.Reports
import Hyperchess.Proofs.Rule.Merging
import Hyperchess.Proofs.Game.Precedence
import Hyperchess.Proofs.Reach.Depth
import Hyperchess.Proofs.Reach.Chains
import Hyperchess.Proofs.Reach.Room
import Hyperchess.Proofs.Reach.Locality
import Hyperchess.Proofs.Reach.Rays
import Hyperchess.Proofs.Reach.Supply
import Hyperchess.Proofs.Reach.Captures
import Hyperchess.Proofs.Reach.Fans
import Hyperchess.Proofs.Reach.Returns
import Hyperchess.Proofs.Reach.Counts
import Hyperchess.Proofs.Game.Counts
import Hyperchess.Proofs.Reach.Pawns
import Hyperchess.Proofs.Reach.Unbounded
import Hyperchess.Proofs.Number.Literal
import Hyperchess.Proofs.Layout.Outline
import Hyperchess.Proofs.Layout.Rows
import Hyperchess.Proofs.Layout.RoundTrip
import Hyperchess.Proofs.Layout.Room
import Hyperchess.Proofs.Layout.Total
import Hyperchess.Proofs.Game.Membership
import Hyperchess.Proofs.Game.Effect
import Hyperchess.Proofs.Safety.Symmetry
import Hyperchess.Proofs.Game.Symmetry
import Hyperchess.Proofs.Game.History
import Hyperchess.Proofs.Reach.Reversal
import Hyperchess.Proofs.Game.Reversal
import Hyperchess.Proofs.Logging
import Hyperchess.Proofs.Json.Refusals
import Hyperchess.Proofs.Settings.Loading
import Hyperchess.Proofs.Settings.Validity
import Hyperchess.Proofs.Board.Shape
import Hyperchess.Proofs.Board.Enumeration
import Hyperchess.Proofs.Coord.Numbering
import Hyperchess.Proofs.Layout.Offsets
