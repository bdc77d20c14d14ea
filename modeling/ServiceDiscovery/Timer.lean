import ServiceDiscovery.Duration
/-!
# The timer

Whoever wants to wait asks the timer for a sleep. It lasts as long as was asked for, unless that is
longer than the timer can wait at all.
-/

namespace ServiceDiscovery

namespace Timer

/-- The longest sleep, thirty years of 365 days or 946080000000 ms. -/
def longest : Duration := Duration.ofParts (30 * 365 * 86400) 0

/-- How long a sleep lasts for which `d` was asked. -/
def lasting (d : Duration) : Duration := d.least longest

/-- When a sleep that begins now is over. -/
def wake (now d : Duration) : Duration := now.plus (lasting d)

end Timer

end ServiceDiscovery
