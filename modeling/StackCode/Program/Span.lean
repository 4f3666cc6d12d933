namespace StackCode

/-- A place in the source text. Line zero means that the place is not known. -/
structure Span where
  line : UInt32 := 0
  column : UInt32 := 0
deriving DecidableEq, Repr, Inhabited

def Span.isKnown (span : Span) : Bool := span.line != 0

def Span.orElse (first second : Span) : Span := if first.isKnown then first else second

def Span.text (span : Span) : String := s!"{span.line}:{span.column}"

structure Ident where
  name : String
  span : Span := {}
deriving DecidableEq, Repr, Inhabited

/-- A written type, which may end in bracket pairs. -/
structure TypeName where
  name : String
  span : Span := {}
deriving DecidableEq, Repr, Inhabited

end StackCode
