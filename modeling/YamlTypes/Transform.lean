import YamlTypes.Discovery
import YamlTypes.Generation
import YamlTypes.ModuleBody

/-!
Documents made into script modules.

A document is named by its identifier. Only names that end in `.yaml` or `.yml`
and that no pattern excludes are transformed; others are passed over. The
documents included by one are to be watched with it.
-/

set_option autoImplicit false

namespace YamlTypes

structure Transformed where
  code : String
  /-- The documents that the module hangs on besides its own. -/
  watch : List Path
  deriving DecidableEq, Repr, Inhabited

def documentValue (w : Workspace) (code : String) (options : TransformOptions) :
    Except Error (Value × List Path) :=
  (w.expandIf options.followReferences code.toList options.root options.settings).bind
    fun expansion => (decodeDocument expansion.text).map fun value => (value, expansion.referenced)

/-- The module of a document; `none` if its name is passed over. -/
def transform (code id : String) (options : TransformOptions) :
    Work (Option Transformed) := fun w =>
  if !Discovery.isYamlName id then (.ok none, w)
  else
    match Discovery.patterns? options.exclude with
    | none => (.error .badPattern, w)
    | some patterns =>
      if Discovery.excludes patterns id then (.ok none, w)
      else
        match documentValue w code options with
        | .error error => (.error error, w)
        | .ok (value, watch) =>
          let result : Transformed := ⟨value.moduleBody, watch⟩
          if options.emitTypes then
            match writeDeclaration value ⟨id⟩ w with
            | (.error error, w) => (.error error, w)
            | (.ok _, w) => (.ok (some result), w)
          else (.ok (some result), w)

end YamlTypes
