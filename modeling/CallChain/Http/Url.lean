import CallChain.Text.Percent

/-!
# Web addresses

How the address of a call becomes what is written into its request line: the parts that lead
nowhere are resolved, and what the line does not admit is escaped.

* `Url`: an address, as authority, path and query.
* `Url.parse?`: the address of a text.
* `Url.withPairs`: an address with more pairs in its query.
* `Url.target`: what stands in the request line.
-/

set_option autoImplicit false

namespace CallChain

/-- **A web address.** A fragment is of no account for a call. -/
structure Url where
  /-- The scheme, in lower case. -/
  scheme : String
  /-- Who answers: a host and perhaps a number. -/
  authority : String
  /-- The path, which starts with a slash. -/
  path : List Char
  /-- What follows a question mark, if there is one. -/
  query? : Option (List Char) := none
deriving DecidableEq, Repr, Inhabited

namespace Url

/-! ### Characters -/

/-- What stays as it is in a path. -/
def keptInPath (c : Char) : Bool :=
  '!' ≤ c && c ≤ '~' && c ∉ ['"', '#', '<', '>', '?', '\x60', '\x7b', '\x7d']

/-- What stays as it is in a query. -/
def keptInQuery (c : Char) : Bool :=
  '!' ≤ c && c ≤ '~' && c ∉ ['"', '#', '<', '>', '\'']

/-- What stays as it is in a pair of a query. -/
def keptInPair (c : Char) : Bool := c.isAlphanum || c ∈ ['*', '-', '.', '_']

/-- A part of a pair: a space is a plus sign. -/
def encodePart (text : String) : List Char :=
  text.toList.flatMap (fun c => if c = ' ' then ['+'] else Text.percentChar keptInPair c)

/-- Pairs as a query. -/
def encodePairs (pairs : List (String × String)) : List Char :=
  ['&'].intercalate (pairs.map (fun (k, v) => encodePart k ++ '=' :: encodePart v))

/-! ### Paths -/

/-- Whether a segment of a path stands for the place itself. -/
def isHere (segment : List Char) : Bool :=
  String.ofList (segment.map Char.toLower) ∈ [".", "%2e"]

/-- Whether a segment of a path leads back. -/
def isBack (segment : List Char) : Bool :=
  String.ofList (segment.map Char.toLower) ∈ ["..", ".%2e", "%2e.", "%2e%2e"]

/-- Resolves segments that lead nowhere or back; `walked` are the segments before, last first. -/
def resolve (walked : List (List Char)) : List (List Char) → List (List Char)
  | [] => walked.reverse
  | [s] =>
    if isBack s then ([] :: walked.drop 1).reverse
    else if isHere s then ([] :: walked).reverse
    else (s :: walked).reverse
  | s :: rest =>
    if isBack s then resolve (walked.drop 1) rest
    else if isHere s then resolve walked rest
    else resolve (s :: walked) rest

/-- The segments between slashes of either kind. -/
def segments : List Char → List (List Char)
  | [] => [[]]
  | c :: rest =>
    if c = '/' || c = '\\' then [] :: segments rest
    else
      match segments rest with
      | [] => [[c]]
      | s :: more => (c :: s) :: more

/-- A path in the form in which it is written; the slash it starts with is left out of the text. -/
def normalPath (text : List Char) : List Char :=
  (resolve [] (segments text)).flatMap (fun s => '/' :: Text.percentEncode keptInPath s)

/-! ### Addresses -/

/-- Whether the authority of an address ends here. -/
def endsAuthority (c : Char) : Bool := c = '/' || c = '\\' || c = '?' || c = '#'

/-- Whether a text is a host, in one of the forms that are taken as they are. -/
def isHost (cs : List Char) : Bool :=
  !cs.isEmpty && (cs.all (fun c => c.isAlphanum || c = '-' || c = '.' || c = '_') ||
    (cs.head? = some '[' && cs.getLast? = some ']'))

/-- Whether a text is a number that may follow a host; it may be left out after the colon. -/
def isHostNumber (cs : List Char) : Bool :=
  cs.all Char.isDigit && cs.foldl (fun n c => n * 10 + (c.toNat - 48)) 0 < UInt16.size

/-- Whether a text names a host and perhaps a number after a colon. -/
def isAuthority (cs : List Char) : Bool :=
  let fromEnd := cs.reverse
  let number := (fromEnd.takeWhile Char.isDigit).reverse
  match fromEnd.dropWhile Char.isDigit with
  | ':' :: host => isHost host.reverse && isHostNumber number
  | _ => isHost cs

/-- **The address of a text.** Blanks around it and line ends in it do not count. Only addresses of
the web have a meaning here. -/
def parse? (text : String) : Option Url :=
  let isOuter (c : Char) : Bool := c.toNat ≤ 32
  let trimmed := ((text.toList.dropWhile isOuter).reverse.dropWhile isOuter).reverse
  let cs := trimmed.filter (fun c => c ≠ '\t' && c ≠ '\n' && c ≠ '\r')
  let scheme := String.ofList ((cs.takeWhile (· ≠ ':')).map Char.toLower)
  let rest := (cs.dropWhile (· ≠ ':')).drop 1
  let rest := rest.dropWhile (fun c => c = '/' || c = '\\')
  let authority := rest.takeWhile (fun c => !endsAuthority c)
  let rest := rest.drop authority.length
  let path := rest.takeWhile (fun c => c ≠ '?' && c ≠ '#')
  let query? := match rest.drop path.length with
    | '?' :: more => some (Text.percentEncode keptInQuery (more.takeWhile (· ≠ '#')))
    | _ => none
  let host := (authority.reverse.takeWhile (· ≠ '@')).reverse
  if scheme ∈ ["http", "https"] && isAuthority host then
    some ⟨scheme, String.ofList authority, normalPath (path.drop 1), query?⟩
  else none

/-- An address with more pairs in its query; without any it stays as it is. -/
def withPairs (u : Url) (pairs : List (String × String)) : Url :=
  if pairs.isEmpty then u
  else
    let before := match u.query? with
      | some (c :: cs) => c :: cs ++ ['&']
      | _ => []
    { u with query? := some (before ++ encodePairs pairs) }

/-- **What stands in the request line**: the path and the query. -/
def target (u : Url) : String :=
  String.ofList (u.path ++ match u.query? with
    | some query => '?' :: query
    | none => [])

end Url

end CallChain
