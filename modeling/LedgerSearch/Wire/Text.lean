import LedgerSearch.Text.Base64
import LedgerSearch.Wire.Reader

/-
  Records written as base64 text, white space around it aside.
-/

namespace LedgerSearch.Wire.Reader

/-- A record whose bytes are given as text. -/
def decodeText {α : Type} (r : Reader α) (text : String) : Except DecodeError α :=
  match Text.Base64.decode text with
  | .ok bs => r.decode bs
  | .error fault => .error (.base64 fault.message)

end LedgerSearch.Wire.Reader
