import Std.Data.TreeMap
import StackCode.Program.Tree
import StackCode.Types.Tag

namespace StackCode

structure Annotations where
  types : Std.TreeMap NodeId Tag := {}

namespace Annotations

def record (a : Annotations) (id : NodeId) (type : Tag) : Annotations :=
  ⟨a.types.insert id type⟩

def type? (a : Annotations) (id : NodeId) : Option Tag := a.types[id]?

def count (a : Annotations) : Nat := a.types.size

def toList (a : Annotations) : List (NodeId × Tag) := a.types.toList

end Annotations

end StackCode
