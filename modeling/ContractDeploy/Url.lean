import ContractDeploy.Url.Host

/-!
# URLs

Where a node is. Only as much is read as tells whether a text is a URL and whether requests can be
sent there: the scheme and the host. Blanks around it and line ends within are passed over. Schemes
of the web need a host, and any number of slashes may stand in front of it; with other schemes what
follows is free unless two slashes announce a host.
-/

namespace ContractDeploy

/-- A URL, as far as it is looked at. -/
structure Url where
  /-- The scheme, in lower case. -/
  scheme : String
  /-- The host, if it has one. -/
  host : Option String
deriving DecidableEq

namespace Url

/-- The text without what is passed over: blanks and control characters around it, and tabs and
line ends within. -/
def tidy (text : List Char) : List Char :=
  let isEdge := fun (c : Char) => c.toNat ≤ 32
  let trimmed := ((text.dropWhile isEdge).reverse.dropWhile isEdge).reverse
  trimmed.filter fun c => c ≠ '\t' && c ≠ '\n' && c ≠ '\r'

/-- Whether a character may stand in a scheme. -/
def isSchemeChar (c : Char) : Bool := c.isAlphanum || c = '+' || c = '-' || c = '.'

/-- The scheme and what follows its colon. -/
def splitScheme (text : List Char) : Option (String × List Char) :=
  match text.takeWhile isSchemeChar, text.dropWhile isSchemeChar with
  | first :: rest, ':' :: after =>
    if first.isAlpha then some (String.ofList ((first :: rest).map Char.toLower), after) else none
  | _, _ => none

/-- The schemes of the web that need a host. -/
def webSchemes : List String := ["http", "https", "ws", "wss", "ftp"]

/-- Whether the part that names the host ends here. -/
def endsAuthority (isWeb : Bool) (c : Char) : Bool :=
  c = '/' || c = '?' || c = '#' || (isWeb && c = '\\')

/-- What follows the last sign that ends a user's name, and whether there is one. -/
def dropUser (authority : List Char) : Bool × List Char :=
  if authority.contains '@' then
    (true, (authority.reverse.takeWhile (· ≠ '@')).reverse)
  else (false, authority)

/-- The host and what follows the colon behind it; a colon between brackets is part of the host. -/
def splitPort (text : List Char) : List Char × Option (List Char) :=
  match text with
  | '[' :: _ =>
    let inside := text.takeWhile (· ≠ ']')
    let rest := text.drop inside.length
    let host := inside ++ rest.take 1
    match rest.drop 1 with
    | ':' :: port => (host, some port)
    | other => (host ++ other, none)
  | _ =>
    let host := text.takeWhile (· ≠ ':')
    match text.drop host.length with
    | _ :: port => (host, some port)
    | [] => (host, none)

/-- Whether a port is a number of sixteen bits, or left out. -/
def isPort : Option (List Char) → Bool
  | none => true
  | some digits => digits.all Char.isDigit && (digitsValue? 10 digits).any (· < 65536)

/-- The host that the part between the slashes and the path names. Without a name of a machine there
can be neither user nor port. -/
def readAuthority (isWeb : Bool) (text : List Char) : Option (Option String) :=
  let (hasUser, rest) := dropUser (text.takeWhile fun c => !endsAuthority isWeb c)
  let (host, port) := splitPort rest
  if host.isEmpty then
    if isWeb || hasUser || port.isSome then none else some none
  else if (if isWeb then isHost host else isOpaqueHost host) && isPort port then
    some (some (String.ofList host))
  else none

/-- The host that what follows the scheme names, if it names one. -/
def readHost (scheme : String) (rest : List Char) : Option (Option String) :=
  if scheme ∈ webSchemes then
    readAuthority true (rest.dropWhile fun c => c = '/' || c = '\\')
  else if scheme = "file" then
    match rest with
    | '/' :: '/' :: after =>
      let host := after.takeWhile fun c => !endsAuthority true c
      if host.isEmpty then some none
      else if isHost host then some (some (String.ofList host)) else none
    | _ => some none
  else
    match rest with
    | '/' :: '/' :: after => readAuthority false after
    | _ => some none

/-- The URL that a text spells. -/
def parse? (text : String) : Option Url := do
  let (scheme, rest) ← splitScheme (tidy text.toList)
  let host ← readHost scheme rest
  return { scheme, host }

/-- Whether requests can be sent to a URL. -/
def takesRequests (url : Url) : Bool :=
  (url.scheme = "http" || url.scheme = "https") && url.host.isSome

example : (parse? "http://127.0.0.1:8545").any takesRequests = true := by decide +kernel

example : (parse? "localhost:8545").map takesRequests = some false := by decide +kernel

example : parse? "not a url" = none := by decide +kernel

example : parse? "http://" = none := by decide +kernel

end Url

end ContractDeploy
