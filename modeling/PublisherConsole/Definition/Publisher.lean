import PublisherConsole.Storage.Fault

/-!
# Definitions from a publisher

A publisher answers under a base address, and the definition of an API has an address below it. It is
asked for a definition by one request, which a network carries. A request can only be built for an
address with a host and for a token that can stand in a header.
-/

namespace PublisherConsole.Definition

/-- The address of an API's definition below the publisher's base address. -/
def location (base id : String) : String :=
  String.ofList (base.toList.reverse.dropWhile (· = '/')).reverse ++ "/apis/" ++ id ++ "/asyncapi"

/-- A publisher and the token it wants to see. -/
structure Publisher where
  base : String
  token : Option String
  deriving DecidableEq, Repr, Inhabited

/-- What a network is asked to get. -/
structure Request where
  address : String
  token : Option String
  deriving DecidableEq, Repr, Inhabited

/-- What a network brings back. -/
structure Response where
  status : Nat
  body : String
  deriving DecidableEq, Repr, Inhabited

/-- A network carries requests, or says why it cannot. -/
abbrev Network := Request → Except String Response

/-- The network of a console that is cut off. -/
def Network.none : Network := fun _ => .error "error sending request"

/-- The text behind a beginning, which the case of letters does not matter for. -/
def behind? (start : String) (cs : List Char) : Option (List Char) :=
  let front := cs.take start.length
  if front.map Char.toLower = start.toList then some (cs.drop start.length) else Option.none

/-- Whether a text is the address of something on a host. -/
def isAddress (s : String) : Bool :=
  match (behind? "http://" s.toList).orElse fun _ => behind? "https://" s.toList with
  | some rest =>
    let host := rest.takeWhile fun c => c ≠ '/' && c ≠ '?' && c ≠ '#'
    !host.isEmpty && host.all fun c =>
      c.toNat > 0x20 && c ≠ '<' && c ≠ '>' && c ≠ '^' && c ≠ '|' && c ≠ '%'
  | Option.none => false

/-- Whether a token can stand in a header. -/
def isHeaderText (s : String) : Bool :=
  s.toList.all fun c => c = '\t' || (0x20 ≤ c.toNat && c.toNat ≠ 0x7f)

namespace Publisher

/-- The request for the definition of an API, if it can be built. -/
def request? (p : Publisher) (id : String) : Option Request :=
  let address := location p.base id
  if isAddress address && p.token.all isHeaderText then some ⟨address, p.token⟩ else Option.none

/-- The definition of an API. -/
def fetch (p : Publisher) (network : Network) (id : String) : Except Storage.Fault String :=
  match p.request? id with
  | Option.none => .error (.request "builder error")
  | some request =>
    match network request with
    | .error e => .error (.request e)
    | .ok response =>
      if response.status = 404 then .error (.definitionNotFound id)
      else if 200 ≤ response.status ∧ response.status < 300 then .ok response.body
      else .error (.http response.status response.body)

end Publisher

end PublisherConsole.Definition
