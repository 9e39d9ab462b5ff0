/-!
# Shelves — values that several owners share

A shelf hands out a ticket for each value put on it; whoever holds the ticket reads and replaces
the value. A ticket stays good for ever, because **nothing is ever taken off a shelf**.
-/

set_option autoImplicit false

namespace ServiceHost

/-- The place of a value on a shelf of `α`s. -/
structure Ticket (α : Type) where
  place : Nat
deriving DecidableEq, Repr

/-- Shared values, each in its place. -/
structure Shelf (α : Type) where
  items : List α := []

namespace Shelf

variable {α : Type}

instance : Inhabited (Shelf α) := ⟨{}⟩

def put (shelf : Shelf α) (value : α) : Ticket α × Shelf α :=
  (⟨shelf.items.length⟩, ⟨shelf.items ++ [value]⟩)

def get? (shelf : Shelf α) (ticket : Ticket α) : Option α :=
  shelf.items[ticket.place]?

/-- The value of a ticket; a ticket of another shelf stands for a fresh value. -/
def get [Inhabited α] (shelf : Shelf α) (ticket : Ticket α) : α :=
  (shelf.get? ticket).getD default

def set (shelf : Shelf α) (ticket : Ticket α) (value : α) : Shelf α :=
  ⟨shelf.items.set ticket.place value⟩

end Shelf

end ServiceHost
