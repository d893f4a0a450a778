import Scriptlet.Store
import Scriptlet.Text.Quoted

namespace Scriptlet

/-!
# Scopes and values for inspection

A scope is shown by its frame and the names it binds, a value by all of its
fields.
-/

namespace Store

/-- The names that a scope binds, in alphabetical order. -/
def names (store : Store) (id : ScopeId) : List String :=
  let scope := (store.scope? id).getD default
  (scope.bindings.map Binding.name).mergeSort fun first second =>
    !(second < first)

/-- A scope with its frame and its names. -/
def inspectScope (store : Store) (id : ScopeId) : String :=
  let scope := (store.scope? id).getD default
  "Environment \x7b frame: " ++ scope.frame.inspect ++
    ", variables: " ++ Text.quotedList (store.names id) ++ " \x7d"

/-- What a value is, without the scope that it was made in. -/
def inspectPayload (store : Store) : Payload → String
  | .int number => "Int(" ++ toString number.toInt ++ ")"
  | .float number => "Float(" ++ floatText number ++ ")"
  | .bool truth => "Bool(" ++ toString truth ++ ")"
  | .function declaration closure =>
      "Function(FunctionValue \x7b name: " ++ Text.quoted declaration.name ++
        ", parameters: " ++ Text.quotedList declaration.parameters ++
        ", closure: " ++ store.inspectScope closure ++ " \x7d)"

/-- A value with the scope that it was made in. -/
def inspectValue (store : Store) (value : Value) : String :=
  "Value \x7b kind: " ++ store.inspectPayload value.payload ++
    ", environment: " ++ store.inspectScope value.scope ++ " \x7d"

end Store

end Scriptlet
