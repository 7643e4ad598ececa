import Tint.Editor.Workspace
import Tint.Main
import Tint.Text.Offset
import Tint.Proofs.Paint.Bounds
import Tint.Proofs.Paint.Grammar
import Tint.Proofs.Paint.Extents
import Tint.Proofs.Paint.Candidates
import Tint.Proofs.Paint.Firing
import Tint.Proofs.Paint.PaintByLine
import Tint.Proofs.Paint.Agreement
import Tint.Proofs.Rules.Accepted
import Tint.Proofs.RuleFile.Joined
import Tint.Proofs.RuleFile.Account
import Tint.Proofs.Rules.Queries
import Tint.Proofs.RuleFile.Reordered
import Tint.Proofs.RuleFile.Inserted
import Tint.Proofs.Editor.Sessions
import Tint.Proofs.Editor.Histories
import Tint.Proofs.Command.Failure
import Tint.Proofs.Command.Delivery
import Tint.Proofs.Command.Results
import Tint.Proofs.Command.Writing
import Tint.Proofs.RuleFile.Grammar
import Tint.Proofs.Paint.Keywords
import Tint.Proofs.Text.Backslashes
import Tint.Proofs.Rules.Opening
import Tint.Proofs.Color.Notations
import Tint.Proofs.Color.Painted
import Tint.Proofs.Text.Expansions
import Tint.Proofs.Paint.Dropped
