import SignalAccess.Data.Structure.Document
import SignalAccess.Data.Structure.Wire
/-!
# Packages

What a block holds that is no row of elements: the bytes of a file, a structure graph in the form of
the wire, or a structure graph as an object. The header of the block announces which, and how many
items there are.
-/
namespace SignalAccess

/-- Contents of a block that are no row of elements. -/
inductive Package where
  | file (bytes : Bytes)
  | structures (graph : StructureGraph)
  | object (graph : StructureGraph)

namespace Package

/-- The code that a block's header carries. -/
def code : Package → Int32
  | .file _ => 1
  | .structures _ => 2
  | .object _ => 3

/-- The number of items that a block's header carries. -/
def count : Package → Nat
  | .structures graph => graph.items.length
  | _ => 1

/-- A package on the wire. -/
def encode (part : Section) : Package → Encoding
  | .file bytes => .blob part bytes
  | .structures graph => graph.encode part
  | .object graph => .blob part graph.toObject

/-- Reads the contents of a package that a header announces. -/
def decodeContents (code : Int32) (declared : Nat) : Decoder Package :=
  if code = 1 then do return .file (← Decoder.blob)
  else if code = 2 then do return .structures (← StructureGraph.decode declared)
  else if code = 3 then do
    let bytes ← Decoder.blob
    match StructureGraph.ofObject bytes with
    | .ok graph => return .object graph
    | .error failure => throw failure
  else .refuse (.unknownPackage code)

/-- Reads a package that a header announces, with the number of items that it declares. -/
def decode (code : Int32) (declared : Nat) : Decoder Package := do
  let package ← decodeContents code declared
  if package.count ≠ declared then .refuse (.packageCount package.count declared)
  else return package

end Package

end SignalAccess
