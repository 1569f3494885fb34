import LoxScanner.Trace
import LoxScanner.Lexer.Call
import LoxScanner.Report
import LoxScanner.Console.FileTree
import LoxScanner.Main
import LoxScanner.Proofs.Lead
import LoxScanner.Proofs.WellFormed
import LoxScanner.Proofs.Cut
import LoxScanner.Proofs.Placement
import LoxScanner.Proofs.Cursor
import LoxScanner.Proofs.Lexer
import LoxScanner.Proofs.Lossless
import LoxScanner.Proofs.Acceptance
import LoxScanner.Proofs.LineNumbers
import LoxScanner.Proofs.LongestMatch
import LoxScanner.Proofs.Composition
import LoxScanner.Proofs.RoundTrip
import LoxScanner.Proofs.Reader
import LoxScanner.Proofs.Steps
import LoxScanner.Proofs.Safety
import LoxScanner.Proofs.InputLines
import LoxScanner.Proofs.LineByLine
import LoxScanner.Proofs.PromptFile
import LoxScanner.Proofs.LineEndings
import LoxScanner.Proofs.Resume
import LoxScanner.Proofs.Overrun
import LoxScanner.Proofs.Trace
import LoxScanner.Proofs.Listing
import LoxScanner.Proofs.ShownLines
import LoxScanner.Proofs.Snippets
import LoxScanner.Proofs.Quotation
import LoxScanner.Proofs.OpenStrings
import LoxScanner.Proofs.StrayCharacters
import LoxScanner.Proofs.Runs
import LoxScanner.Proofs.Rounding
import LoxScanner.Proofs.NumberLiterals
import LoxScanner.Proofs.TokenEquality
import LoxScanner.Proofs.ReportLayout
import LoxScanner.Proofs.Rejoining
import LoxScanner.Proofs.PrintedNumbers
