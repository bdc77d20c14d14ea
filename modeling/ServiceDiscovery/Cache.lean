import ServiceDiscovery.Endpoint
/-!
# Endpoint cache

The cache holds the latest endpoint list of every service that was ever observed, and beside it the
set of services for which a watch has been started. Neither ever loses an element, and a list is
only ever replaced whole.
-/

namespace ServiceDiscovery

structure Cache where
  /-- One pair a service. -/
  entries : List (String × List Endpoint) := []
  /-- The services with a watch, in the order in which the watches were started. -/
  watching : List String := []
  deriving DecidableEq, Repr, Inhabited

namespace Cache

/-- Gives `key` a value: in its old place, or else at the end. -/
def assign {α : Type} (key : String) (value : α) : List (String × α) → List (String × α)
  | [] => [(key, value)]
  | (k, v) :: rest => if k = key then (key, value) :: rest else (k, v) :: assign key value rest

/-- The cached list, or `none` if the service was never observed. -/
def get? (c : Cache) (service : String) : Option (List Endpoint) := c.entries.lookup service

def set (c : Cache) (service : String) (endpoints : List Endpoint) : Cache :=
  { c with entries := assign service endpoints c.entries }

def isWatched (c : Cache) (service : String) : Bool := service ∈ c.watching

def watched (c : Cache) : Nat := c.watching.length

/-- Marks a service as watched; the answer is whether it was not before. -/
def startWatch (c : Cache) (service : String) : Bool × Cache :=
  if c.isWatched service then (false, c)
  else (true, { c with watching := c.watching ++ [service] })

end Cache

end ServiceDiscovery
