import LedgerSearch.Host.Joining
import LedgerSearch.Host.Punycode
import LedgerSearch.Host.Spelling

/-
  Names of hosts: labels with full stops between them, each in characters of its own or as it is
  written in ASCII after a mark.
-/

namespace LedgerSearch.Host

/-- What a label written in ASCII starts with. -/
def labelMark : List Char := ['x', 'n', '-', '-']

/-- The most characters of a label written in ASCII, its mark aside. -/
def maxWritten : Nat := 2000

/-- The most characters of a label that has others than ASCII. -/
def maxLabel : Nat := 1000

/-- A spelled label in its own characters. -/
def label? (cs : List Char) : Option (List Char) :=
  if cs.take labelMark.length = labelMark then
    let written := cs.drop labelMark.length
    if written.all isAscii && cs.getLast? != some '-' && written.length ≤ maxWritten then
      (Punycode.decode? written).filter fun cs => cs.all isPlain && composed cs == cs
    else none
  else some cs

/-- Whether a label keeps the rules for marks, joiners and length. -/
def isLabel (cs : List Char) : Bool :=
  !(cs.head?.any isMark) && joinersFit [] cs && (cs.all isAscii || cs.length ≤ maxLabel)

/-- Whether a spelled name is one. -/
def isName (cs : List Char) : Bool :=
  match (cs.splitOn '.').mapM label? with
  | some labels => labels.all isLabel && areReadable labels
  | none => false

end LedgerSearch.Host
