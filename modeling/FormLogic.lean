import FormLogic.Block.Document
import FormLogic.Main
import FormLogic.Proofs.Answering
import FormLogic.Proofs.Answers
import FormLogic.Proofs.Appended
import FormLogic.Proofs.AuthoredMoments
import FormLogic.Proofs.BlockDocument
import FormLogic.Proofs.BlockShape
import FormLogic.Proofs.Calls
import FormLogic.Proofs.CanonicalJson
import FormLogic.Proofs.CheckedPass
import FormLogic.Proofs.Checker
import FormLogic.Proofs.DayCount
import FormLogic.Proofs.Described
import FormLogic.Proofs.Entries
import FormLogic.Proofs.Evaluation
import FormLogic.Proofs.Exactness
import FormLogic.Proofs.Failure
import FormLogic.Proofs.Following
import FormLogic.Proofs.FormDocument
import FormLogic.Proofs.HiddenAnswers
import FormLogic.Proofs.Hiding
import FormLogic.Proofs.IdleConditions
import FormLogic.Proofs.Indentation
import FormLogic.Proofs.InputCalls
import FormLogic.Proofs.Intake
import FormLogic.Proofs.IssuePlaces
import FormLogic.Proofs.JsonNumbers
import FormLogic.Proofs.Levels
import FormLogic.Proofs.ListLiterals
import FormLogic.Proofs.LiveHistory
import FormLogic.Proofs.OptionPicks
import FormLogic.Proofs.Outcome
import FormLogic.Proofs.Overwriting
import FormLogic.Proofs.OwnText
import FormLogic.Proofs.Pass
import FormLogic.Proofs.Places
import FormLogic.Proofs.PointerText
import FormLogic.Proofs.PrintedJson
import FormLogic.Proofs.PrintedView
import FormLogic.Proofs.QuietPeriod
import FormLogic.Proofs.QuotedText
import FormLogic.Proofs.Reachable
import FormLogic.Proofs.References
import FormLogic.Proofs.Regrouping
import FormLogic.Proofs.Responses
import FormLogic.Proofs.Rounding
import FormLogic.Proofs.RuleDocument
import FormLogic.Proofs.RuleGrammar
import FormLogic.Proofs.StoredRule
import FormLogic.Proofs.Showing
import FormLogic.Proofs.SuitedAnswers
import FormLogic.Proofs.Surfaces
import FormLogic.Proofs.TimestampRange
import FormLogic.Proofs.Watching
import FormLogic.Proofs.Wording
import FormLogic.Proofs.WrittenMoments
import FormLogic.Proofs.Chronology
