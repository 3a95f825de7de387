import SmallScheme.Inspection
import SmallScheme.Main
import SmallScheme.Session
import SmallScheme.Proofs.Evaluation.Syntax
import SmallScheme.Proofs.Evaluation.BigStep
import SmallScheme.Proofs.Sequencing
import SmallScheme.Proofs.Evaluation.Limits
import SmallScheme.Proofs.Evaluation.Trampoline
import SmallScheme.Proofs.Reader.Grammar
import SmallScheme.Proofs.Reader.Stream
import SmallScheme.Proofs.Reader.Recognition
import SmallScheme.Proofs.Reader.Acceptance
import SmallScheme.Proofs.Object.Writer
import SmallScheme.Proofs.RoundTrip
import SmallScheme.Proofs.Object.Parts
import SmallScheme.Proofs.Store.History
import SmallScheme.Proofs.Evaluation.History
import SmallScheme.Proofs.Evaluation.Scope
import SmallScheme.Proofs.Reader.Yield
import SmallScheme.Proofs.Store.Invariants
import SmallScheme.Proofs.Evaluation.Calls
import SmallScheme.Proofs.Session.History
import SmallScheme.Proofs.Session.Soundness
import SmallScheme.Proofs.Object.Renaming
import SmallScheme.Proofs.Session.Identity
import SmallScheme.Proofs.Store.Renaming
import SmallScheme.Proofs.Evaluation.Renaming
import SmallScheme.Proofs.Session.Isolation
import SmallScheme.Proofs.Evaluation.Code
import SmallScheme.Proofs.Evaluation.Regime
import SmallScheme.Proofs.Evaluation.Irrelevance
import SmallScheme.Proofs.Session.Constancy
import SmallScheme.Proofs.Reader.Texts
import SmallScheme.Proofs.Session.Texts
import SmallScheme.Proofs.Reader.Displacement
import SmallScheme.Proofs.Reader.Joining
import SmallScheme.Proofs.Session.Joining
import SmallScheme.Proofs.Reader.Standing
import SmallScheme.Proofs.Reader.Lookahead
import SmallScheme.Proofs.Session.Recovery
import SmallScheme.Proofs.Nesting
import SmallScheme.Proofs.Session.Files
import SmallScheme.Proofs.Store.Visibility
import SmallScheme.Proofs.Store.Parameters
import SmallScheme.Proofs.Evaluation.Shapes
import SmallScheme.Proofs.Numerals
import SmallScheme.Proofs.Primitive.Arguments
import SmallScheme.Proofs.Reader.Marks
import SmallScheme.Proofs.Primitive.Arithmetic
import SmallScheme.Proofs.Session.Progress
