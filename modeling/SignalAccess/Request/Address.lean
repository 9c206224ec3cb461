import SignalAccess.Failure.Basic
import SignalAccess.Request.Basic
import SignalAccess.Text.Number
/-!
# Addresses on other servers

The text behind the format of a server is an address. What its parts mean depends on the server: a
tree with a number, a host with a file behind it, or a host with a path behind it.
-/
namespace SignalAccess

namespace Address

/-- The failure of a tree number that stands alone or is too large. -/
def ambiguous (t : Text) : Failure :=
  .ambiguousTree <|
    ['\''] ++ t ++ "' does not comply with the naming models server/tree/number or ".toList
      ++ "server/path/to/data/tree/number".toList

/-- Takes an address `server/tree/number` apart into a request. The address is read from its end: a
number there is that of the tree in front of it, and what stands in front of the tree is the server; an
address without a number is a server as a whole. An address that is refused leaves the request as it
was. -/
def resolveTree (t : Text) (request : Request) : Except Failure Unit × Request :=
  -- The elements of the text read backwards, each of them backwards as well.
  match Text.elements t.reverse with
  | [] => (.ok (), { request with server := [] })
  | last :: others =>
    if !Text.isInteger last.reverse then (.ok (), { request with server := t })
    else
      match Text.int32? last.reverse, others with
      | some pulse, name :: front =>
        let server := Text.joinBy ['/'] (front.map List.reverse).reverse
        (.ok (), { request with
          pulse := pulse
          file := name.reverse
          server := if t.head? = some '/' && !server.isEmpty then '/' :: server else server })
      | _, _ => (.error (ambiguous t), request)

/-- The request at an address `server/tree/number`, unless the address is refused. -/
def tree (t : Text) (request : Request) : Except Failure Request :=
  (resolveTree t request).1.map fun _ => (resolveTree t request).2

/-- An address decides without a look at the request whether it is refused, whether it sets the server
only, or the pulse and the file as well. -/
theorem tree_cases (t : Text) :
    (∀ request, tree t request = .error (ambiguous t)) ∨
    (∃ server, ∀ request, tree t request = .ok { request with server := server }) ∨
    ∃ server pulse file, ∀ request,
      tree t request = .ok { request with server := server, pulse := pulse, file := file } := by
  unfold tree resolveTree
  cases Text.elements t.reverse with
  | nil => exact .inr (.inl ⟨[], fun _ => rfl⟩)
  | cons last others =>
    dsimp only
    cases Text.isInteger last.reverse with
    | false => exact .inr (.inl ⟨t, fun _ => rfl⟩)
    | true =>
      cases Text.int32? last.reverse with
      | none => exact .inl fun _ => rfl
      | some pulse =>
        cases others with
        | nil => exact .inl fun _ => rfl
        | cons name front => exact .inr (.inr ⟨_, pulse, name.reverse, fun _ => rfl⟩)

/-- How a secured address starts. -/
def securedScheme : Text := "SSL://".toList

/-- A request at an address `host/rest`, where a secured address keeps its scheme in front of the
host. -/
def remote (t : Text) (request : Request) : Request :=
  match t.breakOn securedScheme with
  | some (_, tail) =>
    match tail.breakAt '/' with
    | some (host, rest) => { request with server := securedScheme ++ host, file := rest }
    | none => { request with server := t }
  | none =>
    match t.breakAt '/' with
    | some (host, rest) => { request with server := host, file := rest }
    | none => { request with server := t }

/-- A request at an address `host/path` that its path holds. -/
def database (request : Request) : Request :=
  match request.path.breakAt '/' with
  | some (host, rest) => { request with server := host, path := rest }
  | none => { request with server := request.path, path := [] }

end Address

end SignalAccess
