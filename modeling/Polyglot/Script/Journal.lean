import Polyglot.Json.Basic

/-!
# Journals

What scripted plugins keep: an entry for each call, with what the call was given,
and the number of the next factory.
-/

namespace Polyglot.Script

/-- A call of a scripted capability. -/
inductive Entry
  /-- A factory, with the kind of its part and the name or tree format that it is declared for. -/
  | factory (part subject : String)
  | preprocess (parser text : String)
  | parse (parser text : String)
  | print (treeFormat : String)
  | before (hook text : String)
  | after (hook : String) (tree : Json)

/-- An entry as a list of its kind and what the call was given. -/
def Entry.json : Entry → Json
  | .factory part subject => .list [.text "factory", .text part, .text subject]
  | .preprocess parser text => .list [.text "preprocess", .text parser, .text text]
  | .parse parser text => .list [.text "parse", .text parser, .text text]
  | .print treeFormat => .list [.text "print", .text treeFormat]
  | .before hook text => .list [.text "before", .text hook, .text text]
  | .after hook tree => .list [.text "after", .text hook, tree]

/-- What scripted plugins keep. -/
structure Journal where
  /-- The calls so far, in order. -/
  entries : List Entry := []
  nextFactory : Nat := 0

namespace Journal

def add (journal : Journal) (entry : Entry) : Journal :=
  { journal with entries := journal.entries ++ [entry] }

/-- The journal with one factory number more taken. -/
def takeFactory (journal : Journal) : Journal := { journal with nextFactory := journal.nextFactory + 1 }

end Journal

end Polyglot.Script
