import SignalAccess.Text.Basic
/-!
# Environment variables in paths

An element of a path that is a dollar sign and the name of a known variable stands for the value of
that variable. In front of the path the value gets a slash unless it has one; further on it loses
its leading slashes, because the path has one already. Unknown names stay as they are.
-/
namespace SignalAccess

namespace Path

/-- What an element of a path stands for; `isFirst` says that the element starts the path. -/
def expandElement (environment? : Text → Option Text) (isFirst : Bool) (element : Text) : Text :=
  match element with
  | '$' :: name =>
    match environment? name with
    | none => element
    | some value =>
      if isFirst then (if value.head? = some '/' then value else '/' :: value)
      else value.dropWhile (· == '/')
  | _ => element

/-- The path with the values of its variables. -/
def expandVariables (environment? : Text → Option Text) (path : Text) : Text :=
  match Text.splitOn '/' path with
  | [] => []
  | first :: others =>
    Text.joinBy ['/']
      (expandElement environment? true first :: others.map (expandElement environment? false))

end Path

end SignalAccess
