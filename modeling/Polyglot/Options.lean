import Polyglot.Registry.Basic

/-!
# Options

What a parse is given beside its text: the registry, the context, the settings of
the caller, and the text that the parser saw. Hooks may change any of it.
-/

namespace Polyglot

/-- What a parse is given beside its text. -/
structure Options (κ : Kit) where
  registry : Registry κ
  context : Context
  /-- The text that the parser saw, once it was about to run. -/
  committed : Option String := none
  settings : Table Json := []

namespace Options

variable {κ : Kit}

/-- Fresh options for a document of its own. -/
def new (registry : Registry κ) (parser : String) : Options κ := { registry, context := .top parser }

/-- The options of a document embedded in this one, parsed by another parser. They
    share nothing with these: what happens to them does not come back. -/
def embedded (options : Options κ) (parser : String) : Options κ :=
  { options with context := options.context.nested parser, committed := none }

theorem embedded_context (options : Options κ) (parser : String) :
    (options.embedded parser).context = ⟨parser, some options.context.parser⟩ := rfl

end Options

end Polyglot
