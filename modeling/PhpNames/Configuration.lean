import PhpNames.Json.Basic
import PhpNames.Settings

/-!
Settings from a configuration value.
-/

namespace PhpNames
namespace Settings

/-- A field that may be absent but has to fit if it is there. -/
def field? {Value : Type} (read? : Json → Option Value) (configuration : Json) (key : String)
    (default : Value) : Option Value :=
  match configuration.get? key with
  | none => some default
  | some value => read? value

def ofObject? (configuration : Json) : Option Settings := do
  let defaults : Settings := {}
  let flag? := field? Json.bool? configuration
  return {
    autoSort := ← flag? "autoSort" defaults.autoSort
    sortAlphabetically := ← flag? "sortAlphabetically" defaults.sortAlphabetically
    sortNatural := ← flag? "sortNatural" defaults.sortNatural
    leadingSeparator := ← flag? "leadingSeparator" defaults.leadingSeparator
    showMessageOnStatusBar := ← flag? "showMessageOnStatusBar" defaults.showMessageOnStatusBar
    exclude := ← field? Json.text? configuration "exclude" defaults.exclude }

/-- The settings of a configuration: either the section itself or an object that holds it under its
name. Anything that does not fit is ignored as a whole. -/
def ofConfiguration? (configuration : Json) : Option Settings :=
  let block := (configuration.get? "namespaceResolver").getD configuration
  if block.isObject then ofObject? block else none

end Settings
end PhpNames
