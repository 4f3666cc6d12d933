import StackCode.Diagnostic.Message
import StackCode.Emit.Program
import StackCode.Json.Basic

namespace StackCode

structure ReportEntry where
  code : String
  category : Category
  message : String
  span : Span := {}

namespace ReportEntry

def ofDiagnostic (pretty : Tag → String) (d : Diagnostic) : ReportEntry :=
  ⟨d.problem.code, d.problem.category, d.problem.message pretty, d.span⟩

def ofUnsupported (cause : Unsupported) : ReportEntry :=
  { code := Unsupported.code, category := .unsupportedConstruct, message := cause.message }

def text (e : ReportEntry) : String :=
  e.span.text ++ ": error[" ++ e.category.label ++ "]: " ++ e.message

def toJson (e : ReportEntry) : Json :=
  .obj [("code", .str e.code), ("category", .str e.category.name), ("message", .str e.message),
    ("line", .int e.span.line.toNat), ("column", .int e.span.column.toNat)]

end ReportEntry

structure SymbolLine where
  name : String
  level : Int
  type : String
  detail : String

namespace SymbolLine

def ofSymbol (registry : Registry) (s : Symbol) : SymbolLine :=
  ⟨s.name, s.level, registry.pretty s.type, s.detail registry⟩

def toJson (e : SymbolLine) : Json :=
  .obj [("name", .str e.name), ("level", .int e.level), ("type", .str e.type),
    ("detail", .str e.detail)]

end SymbolLine

structure Stats where
  symbols : Nat
  classes : Nat
  methods : Nat
  annotated : Nat
  instructions : Option Nat := none

def Stats.toJson (s : Stats) : Json :=
  .obj [("symbol_count", .int s.symbols), ("class_count", .int s.classes),
    ("method_count", .int s.methods), ("annotated_nodes", .int s.annotated),
    ("instruction_count", (s.instructions.map fun n => Json.int n).getD .null)]

structure Report where
  source : String
  entry : String
  diagnostics : List ReportEntry
  symbols : List SymbolLine
  stats : Stats

namespace Report

def ofCheck (source entry : String) (checked : CheckState) : Report :=
  let table := checked.table
  let history := table.history.toList
  { source, entry
    diagnostics := checked.errors.toList.map (.ofDiagnostic table.pretty)
    symbols := history.map (.ofSymbol table.registry)
    stats :=
      { symbols := history.length
        classes := history.countP Symbol.isClass
        methods := history.countP Symbol.isMethod
        annotated := checked.annotations.count } }

def generated (r : Report) (m : Code.Module) : Report :=
  { r with stats := { r.stats with instructions := some m.size } }

def failed (r : Report) (cause : Unsupported) : Report :=
  { r with diagnostics := r.diagnostics ++ [.ofUnsupported cause] }

/-- The report of a check with what came of generating code. What the check has found stands in it
already. -/
def withResult (r : Report) : Except Rejection Code.Module → Report
  | .ok m => r.generated m
  | .error (.unsupported cause) => r.failed cause
  | .error (.diagnostics _) => r

def success (r : Report) : Bool := r.diagnostics.isEmpty

def countText : Nat → String
  | 0 => "no errors"
  | 1 => "1 error"
  | n => s!"{n} errors"

def text (r : Report) : String :=
  String.join ((r.diagnostics.map ReportEntry.text ++ [countText r.diagnostics.length]).map
    (· ++ "\n"))

def toJson (r : Report) : Json :=
  .obj [("success", .bool r.success), ("source_file", .str r.source), ("entry_point", .str r.entry),
    ("diagnostics", .arr (r.diagnostics.map ReportEntry.toJson)),
    ("symbols", .arr (r.symbols.map SymbolLine.toJson)), ("stats", r.stats.toJson)]

end Report

end StackCode
