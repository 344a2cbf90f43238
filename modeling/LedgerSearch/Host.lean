import LedgerSearch.Host.Name
import LedgerSearch.Host.Numeric
import LedgerSearch.Text.Utf8

/-
  Hosts as addresses name them: a name, four bytes, or eight groups in brackets.
-/

namespace LedgerSearch.Host

/-- The bytes of a text in which a percent sign and two hexadecimal digits stand for one byte. -/
def unescaped : List Char → Bytes
  | '%' :: hi :: lo :: rest =>
    match Text.Hex.value? hi, Text.Hex.value? lo with
    | some h, some l => UInt8.ofNat (h * 16 + l) :: unescaped rest
    | _, _ => 37 :: unescaped (hi :: lo :: rest)
  | c :: rest => c.toString.toUTF8.toList ++ unescaped rest
  | [] => []

/-- An address in brackets, after the first of them. -/
def isBracketed (cs : List Char) : Bool := cs.getLast? = some ']' && isIpv6 cs.dropLast

/-- A host of the network. A name that ends in a number is an address of four bytes. -/
def isNetworkHost (cs : List Char) : Bool :=
  match cs with
  | '[' :: rest => isBracketed rest
  | _ =>
    match spelling? (Text.Utf8.decodeFrom .between (unescaped cs)) with
    | some name => !name.isEmpty && isName name && (!endsInNumber name || isIpv4 name)
    | none => false

/-- Characters no host has, whatever it is a host of. -/
def isForbidden (c : Char) : Bool :=
  c.toNat == 0 || "\t\n\r #/:<>?@[\\]^|".toList.contains c

/-- A host of something else, which may be empty. -/
def isOtherHost (cs : List Char) : Bool :=
  match cs with
  | '[' :: rest => isBracketed rest
  | _ => cs.all (!isForbidden ·)

end LedgerSearch.Host
