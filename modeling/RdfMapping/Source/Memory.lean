/-
Records held in memory.

A memory source set knows records by source name and gives them in order each time they
are asked for.  On top of it a provider can be told to misbehave: to fail when a source
is opened, to fail after some records, or to ask for cancellation after some items.  This
is how the engine's conduct under failures is exercised without failing hardware.
-/
import RdfMapping.Source.Provider

namespace RdfMapping

/-- Records by source name. -/
structure MemorySources where
  /-- The sources, each with its records in order; the first entry of a name counts. -/
  entries : List (String × List Record) := []

namespace MemorySources

/-- Sets the records of a source. -/
def insert (m : MemorySources) (name : String) (records : List Record) : MemorySources :=
  ⟨(name, records) :: m.entries.filter fun e => e.1 != name⟩

/-- The records of a logical source.  Only its name matters: references, iterators and queries are
taken to be dealt with already. -/
def records (m : MemorySources) (source : LogicalSource) : Except SourceError (List Record) :=
  match m.entries.lookup source.source with
  | some records => .ok records
  | none => .error (.notFound source.source)

/-- The provider that gives the records of every source, whenever it is opened. -/
def provider (m : MemorySources) : Provider where
  openAfter _ source := (m.records source).map fun records => records.map .ok

end MemorySources

/-- A failure that a source is told to have. -/
structure Fault where
  /-- The source that fails. -/
  source : String
  /-- The error it fails with. -/
  error : SourceError
  /-- How many records come first; without it, opening fails. -/
  after : Option Nat := none

/-- Memory sources with scheduled failures. -/
structure FaultySources where
  /-- The records behind the failures. -/
  sources : MemorySources := {}
  /-- The failures; the first one of a source counts. -/
  faults : List Fault := []
  /-- The number of items from which on cancellation is asked for. -/
  cancelAfter : Option Nat := none

namespace FaultySources

/-- The items of a source: its failure if opening fails, else its records up to the failure. -/
def items (f : FaultySources) (source : LogicalSource) : Except SourceError (List Item) :=
  match f.faults.find? fun fault => fault.source == source.source with
  | none => (f.sources.records source).map fun records => records.map .ok
  | some ⟨_, error, none⟩ => .error error
  | some ⟨_, error, some n⟩ =>
    (f.sources.records source).map fun records => (records.take n).map .ok ++ [.error error]

/-- The provider of these sources. -/
def provider (f : FaultySources) : Provider where
  openAfter _ source := f.items source
  cancelsAt n := match f.cancelAfter with
    | some limit => limit ≤ n
    | none => false

end FaultySources

end RdfMapping
