import DomainFlow.Domain.Label
import DomainFlow.Sorted.Map

/-!
Numbering domains in the order in which they first occur. One table gives the number of a domain, another one the domain of a
number. Numbers are kept in 32 bits.
-/
namespace DomainFlow

/-- The number of each domain, and the domains in the order of their numbers. -/
structure Interner where
  numbers : SortedMap Domain UInt32
  names : List Domain
deriving DecidableEq

namespace Interner

def empty : Interner := ⟨.empty, []⟩

def get? (interner : Interner) (domain : Domain) : Option Nat := (interner.numbers.get? domain).map UInt32.toNat

def resolve? (interner : Interner) (number : Nat) : Option Domain := interner.names[number]?

def size (interner : Interner) : Nat := interner.names.length

def next (interner : Interner) : UInt32 := interner.size.toUInt32

def add (interner : Interner) (domain : Domain) : Interner :=
  ⟨interner.numbers.insert domain interner.next, interner.names ++ [domain]⟩

/-- Gives a domain the next number, unless it has one. -/
def intern (interner : Interner) (domain : Domain) : Interner × Nat :=
  match interner.get? domain with
  | some number => (interner, number)
  | none => (interner.add domain, interner.next.toNat)

def ofList (domains : List Domain) : Interner :=
  domains.foldl (fun interner domain => (interner.intern domain).1) empty

end Interner

end DomainFlow
