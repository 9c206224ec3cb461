/-!
# Length limits

The most bytes that a text may have in the fields of a block. Texts that end up in such a field are
cut to its limit where they arise.
-/
namespace SignalAccess

namespace Limit

/-- The limit of most text fields. -/
def field : Nat := 1024

/-- The limit of signals, sources and the texts of structures. -/
def long : Nat := 10240

/-- The limit of short names such as a delimiter. -/
def name : Nat := 1024

end Limit

end SignalAccess
