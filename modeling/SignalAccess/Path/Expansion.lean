import SignalAccess.Failure.Log
import SignalAccess.Machine.Basic
import SignalAccess.Path.Rules
import SignalAccess.Path.Variables
import SignalAccess.Text.Number
/-!
# Path expansion

A client's path is turned into one that the server can open. Paths that are absolute and plain stay
as they are, and so do those that start with a pulse number. Otherwise the directory is put in front
of a bare name, or its variables are replaced and its links and relative elements resolved; the whole
path is dereferenced if it is a link on the client's side; a path in the shared directory gets its
network name; and at last the path rules apply. A directory that cannot be resolved is left to the
server.
-/
namespace SignalAccess

namespace Path

/-- What expansion depends on: the configuration and the machine. -/
structure Resolver where
  configuration : Configuration
  machine : Machine

namespace Resolver

/-- Whether a path has anything to expand. -/
def needsExpansion (resolver : Resolver) (path : Text) : Bool :=
  path.has "./".toList || path.has "../".toList || path.contains '~' || path.contains '$'
    || path.head? != some '/' || path.startsWith resolver.configuration.scratchLead

/-- Whether the directory of a path has to be found on the machine. -/
def needsDirectory (path : Text) : Bool :=
  path.head? != some '/' || path.has "./".toList || path.contains '$' || path.contains '~'

/-- Whether a path starts with a pulse number, slashes aside. -/
def startsWithPulse (path : Text) : Bool :=
  Text.isInteger ((path.dropWhile (· == '/')).takeWhile (· != '/'))

/-- The path with the rules of the configuration applied. -/
def applyRules (resolver : Resolver) (path : Text) : Except LocatedFailure Text :=
  LocatedFailure.locate "path_replacement" do
    PathRule.replace (← PathRule.ofConfiguration resolver.configuration) path

/-- The target of a path that is a symbolic link to an absolute path, on the client's side only. -/
def dereference (resolver : Resolver) (path : Text) : Text :=
  if resolver.configuration.clientSide then
    match resolver.machine.linkTarget? path with
    | some target => if target.head? = some '/' then target else path
    | none => path
  else path

/-- The name of the host: the configured one, the one in the environment, or the system's. -/
def hostName? (resolver : Resolver) : Option Text :=
  match resolver.configuration.hostName with
  | some name => some name
  | none =>
    match (resolver.machine.environment? "HOSTNAME".toList).filter (!·.isEmpty) with
    | some name => some name
    | none =>
      match resolver.machine.textOf "/etc/hostname".toList with
      | .ok name => if name.trim.isEmpty then none else some name.trim
      | .error _ => none

/-- A path in the shared directory under its network name. -/
def onNetwork (resolver : Resolver) (path : Text) : Text :=
  let network := resolver.configuration.networkName
  let host := (hostName? resolver).getD []
  let step (name : Text) : Text := if name.isEmpty then [] else '/' :: name
  step network ++ step host ++ path

/-- The last steps of every expansion: dereference, network name and rules. -/
def finish (resolver : Resolver) (path : Text) : Except LocatedFailure Text :=
  let path := resolver.dereference path
  let path :=
    if path.startsWith resolver.configuration.scratchLead then resolver.onNetwork path else path
  resolver.applyRules path

/-- The expansion of a bare name. A name that ends up in the shared directory goes through the last
steps once more. -/
def expandName (resolver : Resolver) (directory name : Text) : Except LocatedFailure Text := do
  let replaced ← resolver.applyRules (resolver.dereference (directory ++ '/' :: name))
  if replaced.startsWith resolver.configuration.scratchLead then resolver.finish replaced
  else .ok replaced

/-- A path below a directory, unless it is absolute. -/
def below (directory path : Text) : Text :=
  if path.head? = some '/' then path
  else if directory.isEmpty || directory.getLast? = some '/' then directory ++ path
  else directory ++ '/' :: path

/-- The expansion of a path with a directory in front of its name. The path is left alone when the
machine does not have the directory. -/
def expandBelow (resolver : Resolver) (directory front name path : Text) :
    Except LocatedFailure Text :=
  let place := expandVariables resolver.machine.environment? (front ++ ['/'])
  match resolver.machine.canonical? (below directory place) with
  | none => .ok path
  | some resolved => resolver.finish (resolved ++ '/' :: name)

/-- The path that the server can open in place of a client's path. -/
def expand (resolver : Resolver) (path : Text) : Except LocatedFailure Text :=
  if !path.isLegalPath then
    .error
      ⟨"expand_path".toList,
        .illegalPath ("The Source contains a Syntax Error! (".toList ++ path ++ [')'])⟩
  else if path.isEmpty || !resolver.needsExpansion path || startsWithPulse path then .ok path
  else if needsDirectory path then do
    let directory ← LocatedFailure.locate "expand_path" resolver.machine.directory
    match path.breakAtLast '/' with
    | none => resolver.expandName directory path
    | some (front, name) => resolver.expandBelow directory front name path
  else resolver.finish path

end Resolver

end Path

end SignalAccess
