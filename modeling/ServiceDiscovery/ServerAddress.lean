import ServiceDiscovery.Text.Parts
/-!
# Server addresses

The discovery server is named by `host:port`. A scheme in front of it and slashes behind it are
accepted and dropped; nothing else is looked at.
-/

namespace ServiceDiscovery.ServerAddress

/-- The text without the scheme, if it starts with it. One scheme is dropped, not several. -/
def dropScheme (uri : List Char) : List Char := (Text.afterWord? "tcp://" uri).getD uri

def dropSlashes (uri : List Char) : List Char := (uri.reverse.dropWhile (· = '/')).reverse

def ofUri (uri : String) : String := String.ofList (dropSlashes (dropScheme uri.toList))

end ServiceDiscovery.ServerAddress
