import LoxScanner.Report
import LoxScanner.Scan

/-!
What running the program writes and how it ends.
-/

namespace LoxScanner

/-- Text for the two output streams. -/
structure Written where
  output : String
  errors : String
  deriving DecidableEq

namespace Written

def nothing : Written :=
  ⟨"", ""⟩

def append (before after : Written) : Written :=
  ⟨before.output ++ after.output, before.errors ++ after.errors⟩

instance : Append Written :=
  ⟨append⟩

end Written

/-- How a run ends. -/
inductive Ending
  | success
  | usage
  | badData
  | noInput
  deriving DecidableEq

/-- The process's exit status. -/
def Ending.status : Ending → Nat
  | success => 0
  | usage => 64
  | badData => 65
  | noInput => 66

/-- A finished run. -/
structure Outcome where
  written : Written
  ending : Ending
  deriving DecidableEq

namespace Scan

/-- The tokens, one to a row. -/
def listing (scan : Scan) : String :=
  unlines (scan.tokens.map Token.display)

/-- The diagnostics, each on a row with its report after it. -/
def complaints (scan : Scan) (source : String) : String :=
  String.join (scan.diagnostics.map fun diagnostic =>
    diagnostic.display ++ "\n" ++ diagnostic.render source)

/-- What is written about a scanned text. -/
def written (scan : Scan) (source : String) : Written :=
  ⟨scan.listing, scan.complaints source⟩

end Scan

end LoxScanner
