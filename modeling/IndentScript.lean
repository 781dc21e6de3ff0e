import IndentScript.Entries
import IndentScript.Fault
import IndentScript.FileTree
import IndentScript.FileTree.Copy
import IndentScript.Launch
import IndentScript.Limits
import IndentScript.Machine
import IndentScript.Machine.Evaluator
import IndentScript.Machine.Session
import IndentScript.Main
import IndentScript.Number.Binary64
import IndentScript.Number.Decimal
import IndentScript.Number.Digits
import IndentScript.Number.Numeral
import IndentScript.Number.Rounding
import IndentScript.Program
import IndentScript.Program.Parser
import IndentScript.Proofs.CallSignals
import IndentScript.Proofs.CallerScopes
import IndentScript.Proofs.CharacterClasses
import IndentScript.Proofs.CommandFrames
import IndentScript.Proofs.CommandTexts
import IndentScript.Proofs.Concatenation
import IndentScript.Proofs.ControlFlow
import IndentScript.Proofs.DeadEnds
import IndentScript.Proofs.Deeds
import IndentScript.Proofs.DialogEnd
import IndentScript.Proofs.EmptyBlocks
import IndentScript.Proofs.EntryFailures
import IndentScript.Proofs.EvaluatedTexts
import IndentScript.Proofs.Forks
import IndentScript.Proofs.Frames
import IndentScript.Proofs.Grammar
import IndentScript.Proofs.GrammarSoundness
import IndentScript.Proofs.HeldValues
import IndentScript.Proofs.Identities
import IndentScript.Proofs.Indentation
import IndentScript.Proofs.InsertedLines
import IndentScript.Proofs.Lexemes
import IndentScript.Proofs.LineLayout
import IndentScript.Proofs.LoadedFiles
import IndentScript.Proofs.LookedUpNames
import IndentScript.Proofs.LoopConditions
import IndentScript.Proofs.LoopRounds
import IndentScript.Proofs.Moments
import IndentScript.Proofs.OuterBlanks
import IndentScript.Proofs.Output
import IndentScript.Proofs.PackagePlaces
import IndentScript.Proofs.PendingLines
import IndentScript.Proofs.Precedence
import IndentScript.Proofs.PrintedExpressions
import IndentScript.Proofs.PrintedLayout
import IndentScript.Proofs.PrintedLines
import IndentScript.Proofs.Printer
import IndentScript.Proofs.ReaderRules
import IndentScript.Proofs.ReaderSteps
import IndentScript.Proofs.Readers
import IndentScript.Proofs.ReadingProgress
import IndentScript.Proofs.RecordedEntries
import IndentScript.Proofs.RefusedTexts
import IndentScript.Proofs.Reindentation
import IndentScript.Proofs.RenamedTexts
import IndentScript.Proofs.Renaming
import IndentScript.Proofs.Rendering
import IndentScript.Proofs.RoundTrip
import IndentScript.Proofs.RunRules
import IndentScript.Proofs.Runs
import IndentScript.Proofs.ScopeChains
import IndentScript.Proofs.Seams
import IndentScript.Proofs.Seclusion
import IndentScript.Proofs.SourceEnd
import IndentScript.Proofs.SourceNames
import IndentScript.Proofs.SourceSessions
import IndentScript.Proofs.SourceTokens
import IndentScript.Proofs.SourceTrees
import IndentScript.Proofs.SqueezedCode
import IndentScript.Proofs.TableStatements
import IndentScript.Proofs.TerminalSessions
import IndentScript.Proofs.TokenPlaces
import IndentScript.Proofs.Turns
import IndentScript.Proofs.TypedEntries
import IndentScript.Proofs.UnlimitedReaders
import IndentScript.Proofs.ValueFaults
import IndentScript.Proofs.ValueTexts
import IndentScript.Proofs.WordSpacing
import IndentScript.Proofs.WrittenFiles
import IndentScript.Proofs.WrittenTokens
import IndentScript.Terminal
import IndentScript.Terminal.Command
import IndentScript.Terminal.Guidance
import IndentScript.Terminal.Loop
import IndentScript.Terminal.Package
import IndentScript.Text.Blank
import IndentScript.Text.Content
import IndentScript.Text.Digit
import IndentScript.Text.Interval
import IndentScript.Text.Letter
import IndentScript.Text.Lines
import IndentScript.Text.LowerCase
import IndentScript.Text.Printable
import IndentScript.Text.Quoted
import IndentScript.Text.Repetition
import IndentScript.Text.Utf8
import IndentScript.Text.Words
import IndentScript.Token
import IndentScript.Token.Lexer
import IndentScript.Value
import IndentScript.Value.Arithmetic
import IndentScript.Value.Comparison
import IndentScript.Value.Operation
import IndentScript.Value.Template
import IndentScript.Value.Text
