import StackCode.Types.Tag

namespace StackCode

inductive Intrinsic where
  | len
  | add
  | del
  | ord
  | chr
deriving DecidableEq, Repr

namespace Intrinsic

def all : List Intrinsic := [.len, .add, .del, .ord, .chr]

def name : Intrinsic → String
  | .len => "len"
  | .add => "add"
  | .del => "del"
  | .ord => "ord"
  | .chr => "chr"

def ofName? (name : String) : Option Intrinsic := all.find? (·.name == name)

def arity : Intrinsic → Nat
  | .len | .ord | .chr => 1
  | .add | .del => 2

def result : Intrinsic → Tag
  | .len | .ord => .int
  | .chr => .char
  | .add | .del => .void

end Intrinsic

end StackCode
