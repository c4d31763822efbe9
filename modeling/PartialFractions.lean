import PartialFractions.Bracket
import PartialFractions.CommandLine.Argument
import PartialFractions.CommandLine.Flag
import PartialFractions.CommandLine.Options
import PartialFractions.CommandLine.Program
import PartialFractions.Decomposition
import PartialFractions.Derivation
import PartialFractions.Exponent
import PartialFractions.Factor
import PartialFractions.Factorization
import PartialFractions.Failure
import PartialFractions.Formula
import PartialFractions.Formula.Rendering
import PartialFractions.Fraction
import PartialFractions.Gap
import PartialFractions.Journal
import PartialFractions.Journal.Entries
import PartialFractions.Journal.Session
import PartialFractions.Journal.Timestamp
import PartialFractions.Label
import PartialFractions.Main
import PartialFractions.Number.Binary
import PartialFractions.Number.Decimal
import PartialFractions.Number.Digits
import PartialFractions.Number.Exponential
import PartialFractions.Number.Format
import PartialFractions.Number.Integer
import PartialFractions.Number.Layout
import PartialFractions.Number.Numeral
import PartialFractions.Number.Power
import PartialFractions.Number.Root
import PartialFractions.Number.Scalar
import PartialFractions.Number.Shortest
import PartialFractions.Number.Significant
import PartialFractions.Number.Wide
import PartialFractions.Number.Writing
import PartialFractions.Outcome
import PartialFractions.Proofs.AgreeingReaders
import PartialFractions.Proofs.Antiderivatives
import PartialFractions.Proofs.ArithmeticNotation
import PartialFractions.Proofs.BalancedBraces
import PartialFractions.Proofs.BinaryNumbers
import PartialFractions.Proofs.BracedArguments
import PartialFractions.Proofs.BracketGroups
import PartialFractions.Proofs.BracketPairs
import PartialFractions.Proofs.BracketReading
import PartialFractions.Proofs.ClearedIdentity
import PartialFractions.Proofs.ClosedForms
import PartialFractions.Proofs.ComparedPoints
import PartialFractions.Proofs.ComputationOutcomes
import PartialFractions.Proofs.ContentReading
import PartialFractions.Proofs.Conversations
import PartialFractions.Proofs.DecimalNumerals
import PartialFractions.Proofs.DecimalScales
import PartialFractions.Proofs.DenotedPolynomials
import PartialFractions.Proofs.DerivedPolynomials
import PartialFractions.Proofs.DigitClasses
import PartialFractions.Proofs.DottedDenominators
import PartialFractions.Proofs.ExactNumbers
import PartialFractions.Proofs.ExchangedFactors
import PartialFractions.Proofs.ExpandedPolynomial
import PartialFractions.Proofs.ExpressionParsing
import PartialFractions.Proofs.FactorizationInvariants
import PartialFractions.Proofs.FailedRequests
import PartialFractions.Proofs.FiniteConstants
import PartialFractions.Proofs.FiniteNumbers
import PartialFractions.Proofs.FirstFractions
import PartialFractions.Proofs.FormulaTexts
import PartialFractions.Proofs.FormulaValue
import PartialFractions.Proofs.FractionReading
import PartialFractions.Proofs.GapGrammar
import PartialFractions.Proofs.GapReading
import PartialFractions.Proofs.JoinedSums
import PartialFractions.Proofs.JournalDeliveries
import PartialFractions.Proofs.JournalResets
import PartialFractions.Proofs.LabelledLevels
import PartialFractions.Proofs.Labels
import PartialFractions.Proofs.ListedBrackets
import PartialFractions.Proofs.ListedGroups
import PartialFractions.Proofs.LiteralReading
import PartialFractions.Proofs.NearestNumbers
import PartialFractions.Proofs.NumberTexts
import PartialFractions.Proofs.OppositeNumbers
import PartialFractions.Proofs.PlainDecimals
import PartialFractions.Proofs.PrintedFactors
import PartialFractions.Proofs.PrintedIdentity
import PartialFractions.Proofs.PrintedTerms
import PartialFractions.Proofs.QuadraticRates
import PartialFractions.Proofs.RationalValues
import PartialFractions.Proofs.ReadAtoms
import PartialFractions.Proofs.ReadDecimals
import PartialFractions.Proofs.RealFormulas
import PartialFractions.Proofs.RelistedFactors
import PartialFractions.Proofs.RenderedFormulas
import PartialFractions.Proofs.RequestOutcomes
import PartialFractions.Proofs.RoundedDecimals
import PartialFractions.Proofs.RoundedNumbers
import PartialFractions.Proofs.SamplePoints
import PartialFractions.Proofs.ScannedLetters
import PartialFractions.Proofs.ShortestDecimals
import PartialFractions.Proofs.SignedTerms
import PartialFractions.Proofs.SignedZeros
import PartialFractions.Proofs.SolutionOutcomes
import PartialFractions.Proofs.SolvedShapes
import PartialFractions.Proofs.Spacing
import PartialFractions.Proofs.SpelledTokens
import PartialFractions.Proofs.Summands
import PartialFractions.Proofs.SupportedGrammar
import PartialFractions.Proofs.SupportedSolution
import PartialFractions.Proofs.TemplateLabels
import PartialFractions.Proofs.TermFronts
import PartialFractions.Proofs.TermReading
import PartialFractions.Proofs.TokenScanning
import PartialFractions.Proofs.TrinomialFronts
import PartialFractions.Proofs.TrinomialReading
import PartialFractions.Proofs.TrinomialRoots
import PartialFractions.Proofs.UniqueConstants
import PartialFractions.Proofs.UnreadableTexts
import PartialFractions.Proofs.WordedOutcomes
import PartialFractions.Proofs.WrittenFactors
import PartialFractions.Proofs.WrittenNumbers
import PartialFractions.Proofs.WrittenProducts
import PartialFractions.Proofs.ZeroDenominators
import PartialFractions.Refusal
import PartialFractions.Settings
import PartialFractions.Solution
import PartialFractions.Symbolic.Coefficients
import PartialFractions.Symbolic.Expansion
import PartialFractions.Symbolic.Expression
import PartialFractions.Symbolic.Normal
import PartialFractions.Symbolic.Substitution
import PartialFractions.Symbolic.Value
import PartialFractions.Template
import PartialFractions.Term
import PartialFractions.Text.Blank
import PartialFractions.Text.Cased
import PartialFractions.Text.Cut
import PartialFractions.Text.DecimalDigit
import PartialFractions.Text.LetterCase
import PartialFractions.Text.Lines
import PartialFractions.Text.Printable
import PartialFractions.Text.Quoted
import PartialFractions.Text.Range
import PartialFractions.Text.Word
import PartialFractions.Trinomial
import PartialFractions.Verification
import PartialFractions.Verification.Arithmetic
import PartialFractions.Verification.Evaluation
import PartialFractions.Verification.Literal
import PartialFractions.Verification.Parsing
import PartialFractions.Verification.Reader
import PartialFractions.Wording
