import LedgerSearch.Host

/-
  Whether a text is an absolute URL: a scheme and what that scheme needs. Web addresses need a host;
  a file may have one; other schemes take anything, but a host they give must be well formed, and so
  must what is around it.
-/

namespace LedgerSearch.Settings.Url

/-- Spaces and control characters, which count for nothing at the ends. -/
def isEdge (c : Char) : Bool := c.toNat ≤ 32

/-- The characters an address is read without, wherever they stand. -/
def isSkipped (c : Char) : Bool := c == '\t' || c == '\n' || c == '\r'

/-- The characters that count. -/
def cleaned (text : String) : List Char :=
  ((((text.toList.dropWhile isEdge).reverse.dropWhile isEdge).reverse).filter (!isSkipped ·))

/-- The characters of a scheme, but for its first, which is a letter. -/
def isSchemeChar (c : Char) : Bool := c.isAlphanum || c == '+' || c == '-' || c == '.'

/-- The scheme, in lower case, and what follows its colon. -/
def scheme? (cs : List Char) : Option (String × List Char) :=
  match cs with
  | c :: _ =>
    if c.isAlpha then
      match cs.dropWhile isSchemeChar with
      | ':' :: rest => some (String.ofList ((cs.takeWhile isSchemeChar).map Char.toLower), rest)
      | _ => none
    else none
  | [] => none

/-- The schemes that need a host. -/
def webSchemes : List String := ["http", "https", "ws", "wss", "ftp"]

/-- A backslash counts as a slash. -/
def isSlash (c : Char) : Bool := c == '/' || c == '\\'

/-- What ends an authority. A backslash ends one of the web only. -/
def isEnd (web : Bool) (c : Char) : Bool :=
  c == '/' || c == '?' || c == '#' || (web && c == '\\')

/-- The largest number after the colon of a host. -/
def maxPort : Nat := 65535

/-- A number after the colon of a host, if there is one; after its digits a path may start. -/
def isPort (cs : List Char) : Bool :=
  Text.Hex.number 10 (cs.takeWhile Char.isDigit) ≤ maxPort &&
    (cs.dropWhile Char.isDigit).head?.all fun c => isSlash c || c == '?' || c == '#'

/-- A host and what follows it. A colon in brackets is part of the host. -/
def host (web : Bool) : (inBrackets : Bool) → List Char → List Char × List Char
  | _, [] => ([], [])
  | inBrackets, c :: rest =>
    if isEnd web c || (c == ':' && !inBrackets) then ([], c :: rest)
    else
      let (h, rest) := host web (c == '[' || (inBrackets && c != ']')) rest
      (c :: h, rest)

/-- What is before the last at sign of an authority, and what follows it. -/
def user? (web : Bool) (cs : List Char) : Option (List Char) × List Char :=
  let authority := cs.takeWhile (!isEnd web ·)
  let afterUser := (authority.reverse.takeWhile (· != '@')).reverse
  if afterUser.length = authority.length then (none, cs)
  else
    let size := authority.length - afterUser.length
    (some (cs.take (size - 1)), cs.drop size)

/-- A host, a port that may follow it, and a user that may come before it. A host that is empty has
    neither, and the web has no such hosts. -/
def isAuthority (web : Bool) (cs : List Char) : Bool :=
  let (user, rest) := user? web cs
  let (h, rest) := host web false rest
  let hasPort := rest.head? = some ':'
  if h.isEmpty then
    !web && !hasPort &&
      match user with
      | none => true
      | some [] => rest.isEmpty
      | some name => name = [':']
  else
    (if web then Host.isNetworkHost h else Host.isOtherHost h) && (!hasPort || isPort (rest.drop 1))

/-- A letter and a colon or a bar, which name a drive and no host. -/
def isDrive (cs : List Char) : Bool :=
  match cs with
  | [c, mark] => c.isAlpha && (mark == ':' || mark == '|')
  | _ => false

/-- What follows the scheme of a file: after two slashes there may be a host. -/
def isFile (cs : List Char) : Bool :=
  match cs with
  | a :: b :: rest =>
    let h := rest.takeWhile (!isEnd true ·)
    !(isSlash a && isSlash b) || h.isEmpty || isDrive h || Host.isNetworkHost h
  | _ => true

/-- What has to follow the scheme depends on the scheme. -/
def isAbsolute (text : String) : Bool :=
  match scheme? (cleaned text) with
  | none => false
  | some (scheme, rest) =>
    if scheme = "file" then isFile rest
    else if webSchemes.contains scheme then isAuthority true (rest.dropWhile isSlash)
    else
      match rest with
      | '/' :: '/' :: rest => isAuthority false rest
      | _ => true

end LedgerSearch.Settings.Url
