import FlowEngine.Reference.Resolve
import FlowEngine.Log.Record

/-!
# References that lead nowhere

A reference into the nodes or variables that resolves to null is worth a warning. The warnings of a
template end where resolving it ends in a fault.
-/

namespace FlowEngine.Scope

def unresolvedWarning (path : String) : Log.Line :=
  Log.line .warning Log.Logger.resolver
    ("Reference resolved to null: \x7b\x7b" ++ path ++
      "\x7d\x7d - check the path and that START output.body is set")

/-- Whether a null at this path is worth a warning. -/
def isWatched (path : String) : Bool :=
  Text.startsWith path "nodes." || Text.startsWith path "variables."

/-- The warnings of the pieces of a template, up to the first fault. -/
def pieceWarnings (scope : Scope) : List Template.Piece → List Log.Line
  | [] => []
  | .char _ :: rest => pieceWarnings scope rest
  | .reference body :: rest =>
    match scope.reference body with
    | .error _ => []
    | .ok v =>
      let path := String.ofList (Text.trimChars body)
      (if v = .null && isWatched path then [unresolvedWarning path] else []) ++
        pieceWarnings scope rest

def warnings (scope : Scope) (template : String) : List Log.Line :=
  scope.pieceWarnings (Template.pieces template.toList)

def settingWarnings (scope : Scope) : Value → List Log.Line
  | .text s => if (soleReference? s).isSome then [] else scope.warnings s
  | _ => []

def settingsWarnings (scope : Scope) : Entries Value → List Log.Line
  | [] => []
  | (_, v) :: rest =>
    scope.settingWarnings v ++
      match scope.setting v with
      | .error _ => []
      | .ok _ => settingsWarnings scope rest

end FlowEngine.Scope
