import Abacus.Main
import Abacus.Proofs.Acceptance
import Abacus.Proofs.Relocation
import Abacus.Proofs.Lexing
import Abacus.Proofs.Spelling
import Abacus.Proofs.RoundTrip
import Abacus.Proofs.TwoPhases
import Abacus.Proofs.Lines
import Abacus.Proofs.Concatenation
import Abacus.Proofs.Layout
import Abacus.Proofs.Sessions
import Abacus.Proofs.Excerpts
import Abacus.Proofs.Nodes
import Abacus.Proofs.Decoding
import Abacus.Proofs.Documents
import Abacus.Proofs.Strictness
import Abacus.Proofs.Rejection
import Abacus.Proofs.ReversePolish
import Abacus.Proofs.FirstFailure
import Abacus.Proofs.RunOutput
import Abacus.Proofs.Variables
import Abacus.Proofs.Inputs
import Abacus.Proofs.Places
import Abacus.Proofs.Guards
import Abacus.Proofs.Reports
import Abacus.Proofs.ExactArithmetic
import Abacus.Proofs.StackMachine
import Abacus.Proofs.Literals
import Abacus.Proofs.Recovery
import Abacus.Proofs.Dumps
import Abacus.Proofs.Parentheses
import Abacus.Proofs.TokenTexts
import Abacus.Proofs.Iteration
import Abacus.Proofs.FailureEffects
import Abacus.Proofs.Conversations
import Abacus.Proofs.ChangeReports
import Abacus.Proofs.Writes
import Abacus.Proofs.Finishing
import Abacus.Proofs.TokenListings
import Abacus.Proofs.Lookahead
import Abacus.Proofs.Routines
import Abacus.Proofs.Progress
import Abacus.Proofs.Overflow
