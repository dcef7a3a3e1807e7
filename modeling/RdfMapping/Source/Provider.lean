/-
Where records come from.

The engine never reads data itself.  A provider turns a logical source into a sequence of
items, each a record or a read error.  What opening a source gives may depend on what was
opened before, as it does with real data; a provider that always gives the same is the
special case.

A provider may also ask for the run to be cancelled when it hands out an item.
-/
import RdfMapping.Source.Logical
import RdfMapping.ValueMap

namespace RdfMapping

/-- Why a source gives no (further) records. -/
inductive SourceError where
  /-- There is no such source. -/
  | notFound (name : String)
  /-- The data cannot be decoded. -/
  | read (reason : String)
  /-- The data cannot be fetched; the reason is a full sentence of its own. -/
  | transport (reason : String)
deriving DecidableEq

/-- The wording of the error. -/
def SourceError.message : SourceError → String
  | notFound name => "Source not found: " ++ name
  | read reason => "Read error: " ++ reason
  | transport reason => reason

/-- What a source yields at one position. -/
abbrev Item := Except SourceError Record

/-- The outside world as the engine sees it. -/
structure Provider where
  /-- What opening a source gives after the sources listed were opened, oldest first. -/
  openAfter : List LogicalSource → LogicalSource → Except SourceError (List Item)
  /-- Whether the provider asks for cancellation as it hands out its `n`-th item, counted from one
  over all sources. -/
  cancelsAt : Nat → Bool := fun _ => false

end RdfMapping
